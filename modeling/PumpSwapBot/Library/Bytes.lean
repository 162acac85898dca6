import Mathlib.Data.List.Basic
import Mathlib.Data.List.Chain
import Mathlib.Data.Nat.Digits.Defs

/-!
# Byte strings

Reading fixed-size fields off the front of a byte string, little-endian numbers, the base-58 text of a byte string of
known size, and what the bytes of a text in UTF-8 have in common.

A reader takes a byte string and gives the field and what is left, or nothing when the string is
too short. `takeBytes` is the one reader everything else is made of, and `takeBytes_eq_some` says
all there is to say about it.
-/

namespace PumpSwapBot.Library

/-- Take the first `n` bytes. -/
def takeBytes (n : ℕ) (bs : List UInt8) : Option (List UInt8 × List UInt8) :=
  if n ≤ bs.length then some (bs.take n, bs.drop n) else none

theorem takeBytes_eq_some {n : ℕ} {bs x rest : List UInt8} :
    takeBytes n bs = some (x, rest) ↔ n ≤ bs.length ∧ x = bs.take n ∧ rest = bs.drop n := by
  simp only [takeBytes]
  split_ifs with h
  · simp only [Option.some.injEq, Prod.mk.injEq, h, true_and]
    constructor <;> rintro ⟨rfl, rfl⟩ <;> exact ⟨rfl, rfl⟩
  · simp [h]

/-- The number a little-endian byte string stands for. -/
def leNat : List UInt8 → ℕ
  | [] => 0
  | b :: bs => b.toNat + 256 * leNat bs

/-- Its bytes are the digits of the number in base 256. -/
theorem leNat_eq_ofDigits (bs : List UInt8) : leNat bs = Nat.ofDigits 256 (bs.map UInt8.toNat) := by
  induction bs with
  | nil => rfl
  | cons b bs ih => rw [leNat, ih, List.map_cons, Nat.ofDigits_cons]

/-- Byte strings of the same length that stand for the same number are the same. -/
theorem leNat_inj {bs bs' : List UInt8} (hl : bs.length = bs'.length) (h : leNat bs = leNat bs') : bs = bs' := by
  have hbyte : ∀ bs : List UInt8, ∀ n ∈ bs.map UInt8.toNat, n < 256 := by
    intro bs n hn
    obtain ⟨b, -, rfl⟩ := List.mem_map.mp hn
    exact b.toNat_lt
  have hinj : Function.Injective UInt8.toNat := fun _ _ hb => UInt8.toNat.inj hb
  rw [leNat_eq_ofDigits, leNat_eq_ofDigits] at h
  exact List.map_injective_iff.mpr hinj
    (Nat.ofDigits_inj_of_len_eq (by decide) (by simpa using hl) (hbyte bs) (hbyte bs') h)

/-- The `k` little-endian bytes of a number. -/
def leBytes : ℕ → ℕ → List UInt8
  | 0, _ => []
  | k + 1, n => UInt8.ofNat n :: leBytes k (n / 256)

/-- The `k` big-endian bytes of a number. -/
def beBytes (k n : ℕ) : List UInt8 := (leBytes k n).reverse

@[simp] theorem length_leBytes (k n : ℕ) : (leBytes k n).length = k := by
  induction k generalizing n with
  | zero => rfl
  | succ k ih => simp [leBytes, ih]

@[simp] theorem length_beBytes (k n : ℕ) : (beBytes k n).length = k := by simp [beBytes]

/-- A number that fits is what its bytes stand for. -/
theorem leNat_leBytes {k n : ℕ} (h : n < 256 ^ k) : leNat (leBytes k n) = n := by
  induction k generalizing n with
  | zero =>
    rw [pow_zero, Nat.lt_one_iff] at h
    rw [h]
    rfl
  | succ k ih =>
    have hdiv : n / 256 < 256 ^ k := by
      rw [Nat.div_lt_iff_lt_mul (by decide)]
      rwa [← pow_succ]
    rw [leBytes, leNat, ih hdiv, UInt8.toNat_ofNat']
    exact Nat.mod_add_div n 256

/-- A byte string is the bytes of its number. -/
theorem leBytes_leNat (bs : List UInt8) : leBytes bs.length (leNat bs) = bs := by
  induction bs with
  | nil => rfl
  | cons b bs ih =>
    have hb := b.toNat_lt
    have hdiv : (b.toNat + 256 * leNat bs) / 256 = leNat bs := by omega
    have hbyte : UInt8.ofNat (b.toNat + 256 * leNat bs) = b := by
      apply UInt8.toNat.inj
      rw [UInt8.toNat_ofNat']
      omega
    rw [List.length_cons, leNat, leBytes, hdiv, ih, hbyte]

theorem leNat_lt (bs : List UInt8) : leNat bs < 256 ^ bs.length := by
  induction bs with
  | nil => simp [leNat]
  | cons b bs ih =>
    have hb := b.toNat_lt
    rw [leNat, List.length_cons, pow_succ]
    omega

/-! ### Base 58 -/

namespace Base58

/-- The value of a base-58 digit: the digits and letters without `0`, `O`, `I` and `l`. -/
def digit (c : Char) : Option ℕ :=
  let n := c.toNat
  if 49 ≤ n ∧ n ≤ 57 then some (n - 49)
  else if 65 ≤ n ∧ n ≤ 72 then some (n - 56)
  else if 74 ≤ n ∧ n ≤ 78 then some (n - 57)
  else if 80 ≤ n ∧ n ≤ 90 then some (n - 58)
  else if 97 ≤ n ∧ n ≤ 107 then some (n - 64)
  else if 109 ≤ n ∧ n ≤ 122 then some (n - 65)
  else none

/-- The digits, least first. -/
def alphabet : List Char := "123456789ABCDEFGHJKLMNPQRSTUVWXYZabcdefghijkmnopqrstuvwxyz".toList

/-- The number a base-58 text stands for. -/
def toNat (cs : List Char) : Option ℕ :=
  cs.foldlM (fun n c => (digit c).map (58 * n + ·)) 0

/-- The bytes of a base-58 text of a byte string of `size` bytes: a leading `1` stands for a
leading zero byte. -/
def decode (size : ℕ) (s : String) : Option (List UInt8) :=
  match toNat s.toList with
  | none => none
  | some n =>
    let bs := beBytes size n
    if n < 256 ^ size ∧ (bs.takeWhile (· == 0)).length = (s.toList.takeWhile (· == '1')).length then some bs
    else none

/-- The bytes of a base-58 text of a byte string of any size. -/
def decodeAll (s : String) : Option (List UInt8) :=
  (toNat s.toList).map fun n =>
    (s.toList.takeWhile (· == '1')).map (fun _ => 0) ++ (Nat.digits 256 n).reverse.map UInt8.ofNat

/-- The base-58 text of a byte string. -/
def encode (bs : List UInt8) : String :=
  let zeros := (bs.takeWhile (· == 0)).map fun _ => '1'
  String.ofList (zeros ++ (Nat.digits 58 (leNat bs.reverse)).reverse.map fun d => alphabet.getD d '1')

theorem length_of_decode {size : ℕ} {s : String} {bs : List UInt8} (h : decode size s = some bs) :
    bs.length = size := by
  unfold decode at h
  split at h
  · cases h
  · dsimp only at h
    split_ifs at h
    cases h
    exact length_beBytes size _

theorem digit_alphabet : ∀ d < 58, digit (alphabet.getD d '1') = some d := by decide

theorem toNat_zeros (k : ℕ) : toNat (List.replicate k '1') = some 0 := by
  induction k with
  | zero => rfl
  | succ k ih => exact ih

theorem toNat_append_singleton {cs : List Char} {n d : ℕ} (h : toNat cs = some n) (hd : d < 58) :
    toNat (cs ++ [alphabet.getD d '1']) = some (58 * n + d) := by
  simp only [toNat] at h ⊢
  rw [List.foldlM_append, h]
  show (digit (alphabet.getD d '1')).map (58 * n + ·) >>= pure = _
  rw [digit_alphabet d hd]
  rfl

/-- The text of a byte string stands for its number. -/
theorem toNat_encode (bs : List UInt8) : toNat (encode bs).toList = some (leNat bs.reverse) := by
  have hdigits : ∀ (zeros : List Char) (ds : List ℕ), toNat zeros = some 0 → (∀ d ∈ ds, d < 58) →
      toNat (zeros ++ ds.reverse.map fun d => alphabet.getD d '1') = some (Nat.ofDigits 58 ds) := by
    intro zeros ds hz hds
    induction ds with
    | nil => simpa using hz
    | cons d ds ih =>
      obtain ⟨hd, hds⟩ := List.forall_mem_cons.mp hds
      rw [List.reverse_cons, List.map_append, ← List.append_assoc]
      rw [List.map_singleton, toNat_append_singleton (ih hds) hd, Nat.ofDigits_cons, Nat.add_comm]
  have hzeros : toNat ((bs.takeWhile (· == 0)).map fun _ => '1') = some 0 := by
    rw [List.map_const']
    exact toNat_zeros _
  simp only [encode]
  rw [String.toList_ofList, hdigits _ _ hzeros fun d hd => Nat.digits_lt_base (by decide) hd, Nat.ofDigits_digits]

/-- Byte strings of the same length have different texts. -/
theorem encode_inj {bs bs' : List UInt8} (hl : bs.length = bs'.length) (h : encode bs = encode bs') : bs = bs' := by
  have hn := toNat_encode bs
  rw [h, toNat_encode bs', Option.some.injEq] at hn
  exact (List.reverse_inj.mp (leNat_inj (by simpa using hl.symm) hn)).symm

end Base58

/-! ### Texts -/

/-- Two bytes that can stand next to each other in UTF-8: a byte that begins a character of several is followed by a
continuation, and a continuation does not follow a character of one byte. -/
def Utf8Next (a b : UInt8) : Prop :=
  (192 ≤ a.toNat → 128 ≤ b.toNat ∧ b.toNat < 192) ∧ (128 ≤ b.toNat ∧ b.toNat < 192 → 128 ≤ a.toNat)

instance : DecidableRel Utf8Next := fun _ _ => inferInstanceAs (Decidable (_ ∧ _))

theorem toNat_ofNat_add_mod {n m k : ℕ} (h : k + m ≤ 256) (hm : 0 < m) :
    (UInt8.ofNat (n % m + k)).toNat = n % m + k := by
  have hlt := Nat.mod_lt n hm
  rw [UInt8.toNat_ofNat', Nat.mod_eq_of_lt (by omega)]

theorem isChain_utf8EncodeChar (c : Char) :
    (String.utf8EncodeChar c).IsChain Utf8Next ∧
      (∀ b ∈ (String.utf8EncodeChar c).head?, ¬ (128 ≤ b.toNat ∧ b.toNat < 192)) ∧
      ∀ b ∈ (String.utf8EncodeChar c).getLast?, b.toNat < 192 := by
  simp only [String.utf8EncodeChar]
  split_ifs with hone htwo hthree
  · have hbyte : (UInt8.ofNat c.val.toNat).toNat = c.val.toNat := by
      rw [UInt8.toNat_ofNat', Nat.mod_eq_of_lt (by omega)]
    simp only [List.isChain_singleton, List.head?_cons, List.getLast?_singleton, Option.mem_some_iff, forall_eq', true_and]
    rw [hbyte]
    omega
  all_goals
    simp only [List.isChain_cons_cons, List.isChain_singleton, List.head?_cons, List.getLast?_cons_cons,
      List.getLast?_singleton, Option.mem_some_iff, forall_eq', Utf8Next, and_true]
    repeat rw [toNat_ofNat_add_mod (by decide) (by decide)]
    omega

/-- So stand the bytes of every text. -/
theorem isChain_utf8 (cs : List Char) :
    (cs.flatMap String.utf8EncodeChar).IsChain Utf8Next ∧
      ∀ b ∈ (cs.flatMap String.utf8EncodeChar).head?, ¬ (128 ≤ b.toNat ∧ b.toNat < 192) := by
  induction cs with
  | nil => simp
  | cons c cs ih =>
    obtain ⟨hchain, hhead⟩ := ih
    obtain ⟨hc, hfirst, hlast⟩ := isChain_utf8EncodeChar c
    rw [List.flatMap_cons]
    refine ⟨List.isChain_append.mpr ⟨hc, hchain, fun a ha b hb => ?_⟩, fun b hb => ?_⟩
    · have hle := hlast a ha
      exact ⟨fun hge => absurd hle (by omega), fun hcont => absurd hcont (hhead b hb)⟩
    · rw [List.head?_append_of_ne_nil _ String.utf8EncodeChar_ne_nil] at hb
      exact hfirst b hb

end PumpSwapBot.Library
