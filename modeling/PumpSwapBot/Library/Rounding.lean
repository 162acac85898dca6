import Mathlib.Data.Int.Log
import Mathlib.Data.Rat.Floor
import Mathlib.Tactic.FieldSimp
import Mathlib.Tactic.Linarith
import Mathlib.Tactic.Ring

/-!
# Rounded arithmetic

Floating-point arithmetic as arithmetic of rationals whose results are rounded. What proofs about it
need of the rounding is little, and stands in `Rounding`: it keeps the order, leaves the numbers of
`p` binary digits as they are, and its relative error is at most `2 ^ -p`.

## The model

The exponent is not bounded: overflow, subnormal numbers, infinities and NaN are not there, and there is one zero.

## What is proved

* `exact` and `nearest` are roundings: none at all, and the one to the nearest number of `p` digits, ties to even.
* `round_pos_iff` and its like — a rounded result has the sign of the exact one.
* `Hidden.of_round` — what rounding can hide: two numbers whose order it turns around, or levels, are close.
-/

namespace PumpSwapBot.Library

/-- A rounding that keeps `p` binary digits. -/
structure Rounding (p : ℕ) where
  round : ℚ → ℚ
  monotone : Monotone round
  idem : ∀ x, round (round x) = round x
  kept : ∀ m e : ℤ, |m| ≤ 2 ^ p → round (m * 2 ^ e) = m * 2 ^ e
  close : ∀ x, |round x - x| ≤ |x| / 2 ^ p

namespace Rounding

variable {p : ℕ}

/-! ### Operations -/

section Operations

variable (r : Rounding p) (x y : ℚ)

/-- The rounded sum. -/
def add : ℚ := r.round (x + y)

/-- The rounded difference. -/
def sub : ℚ := r.round (x - y)

/-- The rounded product. -/
def mul : ℚ := r.round (x * y)

/-- The rounded quotient. -/
def div : ℚ := r.round (x / y)

end Operations

/-! ### Signs -/

variable {r : Rounding p} {x y : ℚ}

theorem round_intCast (r : Rounding p) {m : ℤ} (h : |m| ≤ 2 ^ p) : r.round m = m := by
  simpa using r.kept m 0 h

theorem round_natCast (r : Rounding p) {n : ℕ} (h : n ≤ 2 ^ p) : r.round n = n := by
  have habs : |(n : ℤ)| ≤ 2 ^ p := by
    rw [Nat.abs_cast]
    exact_mod_cast h
  exact_mod_cast r.round_intCast habs

@[simp] theorem round_zero (r : Rounding p) : r.round 0 = 0 := by
  simpa using r.round_intCast (m := 0) (by positivity)

/-- A power of two below a number is below the rounded number. -/
theorem round_pos (h : 0 < x) : 0 < r.round x := by
  have hpow := r.kept 1 (Int.log 2 x) (by rw [abs_one]; exact one_le_pow₀ one_le_two)
  rw [Int.cast_one, one_mul] at hpow
  calc (0 : ℚ) < 2 ^ Int.log 2 x := zpow_pos two_pos _
    _ = r.round (2 ^ Int.log 2 x) := hpow.symm
    _ ≤ r.round x := r.monotone (by exact_mod_cast Int.zpow_log_le_self (b := 2) one_lt_two h)

theorem round_nonneg (h : 0 ≤ x) : 0 ≤ r.round x := by
  rw [← r.round_zero]
  exact r.monotone h

theorem round_nonpos (h : x ≤ 0) : r.round x ≤ 0 := by
  rw [← r.round_zero]
  exact r.monotone h

theorem round_pos_iff : 0 < r.round x ↔ 0 < x := by
  refine ⟨fun h => ?_, round_pos⟩
  by_contra hle
  exact absurd h (not_lt.mpr (round_nonpos (not_lt.mp hle)))

theorem pos_div_iff (h : 0 ≤ y) : 0 < r.div x y ↔ 0 < x ∧ y ≠ 0 := by
  rw [div, round_pos_iff]
  rcases h.eq_or_lt with rfl | hy
  · simp
  · rw [div_pos_iff_of_pos_right hy, and_iff_left hy.ne']

theorem nonneg_div (hx : 0 ≤ x) (hy : 0 ≤ y) : 0 ≤ r.div x y := round_nonneg (div_nonneg hx hy)

/-! ### Errors -/

theorem round_le (h : 0 ≤ x) : r.round x ≤ (1 + 1 / 2 ^ p) * x := by
  have hclose := (abs_le.mp (r.close x)).2
  rw [abs_of_nonneg h] at hclose
  linarith [show x / 2 ^ p = 1 / 2 ^ p * x by ring]

theorem le_round (h : 0 ≤ x) : (1 - 1 / 2 ^ p) * x ≤ r.round x := by
  have hclose := (abs_le.mp (r.close x)).1
  rw [abs_of_nonneg h] at hclose
  linarith [show x / 2 ^ p = 1 / 2 ^ p * x by ring]

/-! ### What rounding can hide -/

/-- One number is not above another, as far as it can be seen after so many roundings. -/
def Hidden (p k : ℕ) (x y : ℚ) : Prop := (1 - 1 / 2 ^ p) ^ k * x ≤ (1 + 1 / 2 ^ p) ^ k * y

section Hidden

variable {k : ℕ} {c : ℚ}

theorem error_le_one (p : ℕ) : (1 : ℚ) / 2 ^ p ≤ 1 := by
  rw [div_le_one (by positivity)]
  exact one_le_pow₀ one_le_two

theorem hidden_zero_iff : Hidden p 0 x y ↔ x ≤ y := by simp [Hidden]

/-- **One rounding hides one relative error more.** -/
theorem Hidden.of_round (hx : 0 ≤ x) (hy : 0 ≤ y) (h : Hidden p k (r.round x) (r.round y)) : Hidden p (k + 1) x y := by
  have hlow : (0 : ℚ) ≤ 1 - 1 / 2 ^ p := sub_nonneg.mpr (error_le_one p)
  have hhigh : (0 : ℚ) ≤ 1 + 1 / 2 ^ p := by positivity
  unfold Hidden at h ⊢
  calc (1 - 1 / 2 ^ p) ^ (k + 1) * x = (1 - 1 / 2 ^ p) ^ k * ((1 - 1 / 2 ^ p) * x) := by ring
    _ ≤ (1 - 1 / 2 ^ p) ^ k * r.round x := mul_le_mul_of_nonneg_left (le_round hx) (pow_nonneg hlow k)
    _ ≤ (1 + 1 / 2 ^ p) ^ k * r.round y := h
    _ ≤ (1 + 1 / 2 ^ p) ^ k * ((1 + 1 / 2 ^ p) * y) := mul_le_mul_of_nonneg_left (round_le hy) (pow_nonneg hhigh k)
    _ = (1 + 1 / 2 ^ p) ^ (k + 1) * y := by ring

theorem Hidden.of_div (hc : 0 < c) (h : Hidden p k (x / c) (y / c)) : Hidden p k x y := by
  unfold Hidden at h ⊢
  rwa [← mul_div_assoc, ← mul_div_assoc, div_le_div_iff_of_pos_right hc] at h

theorem Hidden.of_div_left (hc : 0 < c) (hx : 0 < x) (hy : 0 < y) (h : Hidden p k (c / x) (c / y)) :
    Hidden p k y x := by
  unfold Hidden at h ⊢
  rw [mul_div_assoc', mul_div_assoc', div_le_div_iff₀ hx hy, mul_right_comm, mul_right_comm _ c x] at h
  exact le_of_mul_le_mul_right h hc

end Hidden

/-! ### No rounding -/

/-- The exact arithmetic. -/
def exact (p : ℕ) : Rounding p where
  round x := x
  monotone := monotone_id
  idem _ := rfl
  kept _ _ _ := rfl
  close x := by
    rw [sub_self, abs_zero]
    positivity

section Exact

variable (p : ℕ) (x y : ℚ)

@[simp] theorem exact_round : (exact p).round x = x := rfl

@[simp] theorem exact_sub : (exact p).sub x y = x - y := rfl

@[simp] theorem exact_mul : (exact p).mul x y = x * y := rfl

@[simp] theorem exact_div : (exact p).div x y = x / y := rfl

end Exact

/-! ### To the nearest -/

/-- The nearest integer, and between two the even one. -/
def halfEven (q : ℚ) : ℤ :=
  if q - ⌊q⌋ < 1 / 2 then ⌊q⌋
  else if 1 / 2 < q - ⌊q⌋ then ⌊q⌋ + 1
  else if ⌊q⌋ % 2 = 0 then ⌊q⌋ else ⌊q⌋ + 1

section HalfEven

variable {q q' : ℚ}

theorem floor_le_halfEven (q : ℚ) : ⌊q⌋ ≤ halfEven q := by
  unfold halfEven
  split_ifs <;> omega

theorem halfEven_le_floor (q : ℚ) : halfEven q ≤ ⌊q⌋ + 1 := by
  unfold halfEven
  split_ifs <;> omega

@[simp] theorem halfEven_intCast (n : ℤ) : halfEven n = n := by
  simp [halfEven]

theorem abs_halfEven_sub_le (q : ℚ) : |halfEven q - q| ≤ 1 / 2 := by
  have hlow := Int.floor_le q
  have hhigh := Int.lt_floor_add_one q
  unfold halfEven
  rw [abs_le]
  split_ifs <;> push_cast <;> constructor <;> linarith

theorem halfEven_mono (h : q ≤ q') : halfEven q ≤ halfEven q' := by
  rcases (Int.floor_mono h).eq_or_lt with hfloor | hfloor
  · have hq : q - ⌊q'⌋ ≤ q' - ⌊q'⌋ := by linarith
    unfold halfEven
    rw [hfloor]
    split_ifs <;> first | omega | exact absurd hq (by linarith)
  · calc halfEven q ≤ ⌊q⌋ + 1 := halfEven_le_floor q
      _ ≤ ⌊q'⌋ := hfloor
      _ ≤ halfEven q' := floor_le_halfEven q'

theorem le_halfEven {n : ℤ} (h : (n : ℚ) ≤ q) : n ≤ halfEven q := by
  simpa using halfEven_mono h

theorem halfEven_le {n : ℤ} (h : q ≤ n) : halfEven q ≤ n := by
  simpa using halfEven_mono h

end HalfEven

/-- The last digit of a number of `p` digits. -/
def quantum (p : ℕ) (x : ℚ) : ℚ := 2 ^ (Int.log 2 |x| - p + 1)

/-- The nearest number of `p` digits. -/
def nearestTo (p : ℕ) (x : ℚ) : ℚ := halfEven (x / quantum p x) * quantum p x

section Nearest

theorem quantum_pos (p : ℕ) (x : ℚ) : 0 < quantum p x := zpow_pos two_pos _

/-- Numbers on the grid bound what is rounded to it. -/
theorem le_nearestTo {n : ℤ} (h : n * quantum p x ≤ x) : n * quantum p x ≤ nearestTo p x := by
  refine mul_le_mul_of_nonneg_right ?_ (quantum_pos p x).le
  exact_mod_cast le_halfEven ((le_div_iff₀ (quantum_pos p x)).mpr h)

theorem nearestTo_le {n : ℤ} (h : x ≤ n * quantum p x) : nearestTo p x ≤ n * quantum p x := by
  refine mul_le_mul_of_nonneg_right ?_ (quantum_pos p x).le
  exact_mod_cast halfEven_le ((div_le_iff₀ (quantum_pos p x)).mpr h)

theorem nearestTo_of_multiple {n : ℤ} (h : x = n * quantum p x) : nearestTo p x = x := by
  have hdiv : x / quantum p x = n := (div_eq_iff (quantum_pos p x).ne').mpr h
  rw [nearestTo, hdiv, halfEven_intCast, ← h]

theorem zpow_log_le (h : x ≠ 0) : (2 : ℚ) ^ Int.log 2 |x| ≤ |x| := by
  exact_mod_cast Int.zpow_log_le_self (b := 2) one_lt_two (abs_pos.mpr h)

theorem lt_zpow_log (x : ℚ) : |x| < (2 : ℚ) ^ (Int.log 2 |x| + 1) := by
  exact_mod_cast Int.lt_zpow_succ_log_self (b := 2) one_lt_two |x|

/-- The powers of two around a number are on its grid. -/
theorem zpow_log_eq (hp : 0 < p) (x : ℚ) : (2 : ℚ) ^ Int.log 2 |x| = ((2 ^ (p - 1) : ℤ) : ℚ) * quantum p x := by
  rw [quantum, Int.cast_pow, Int.cast_ofNat, ← zpow_natCast, ← zpow_add₀ two_ne_zero]
  congr 1
  omega

theorem zpow_log_succ_eq (p : ℕ) (x : ℚ) : (2 : ℚ) ^ (Int.log 2 |x| + 1) = ((2 ^ p : ℤ) : ℚ) * quantum p x := by
  rw [quantum, Int.cast_pow, Int.cast_ofNat, ← zpow_natCast, ← zpow_add₀ two_ne_zero]
  congr 1
  omega

theorem abs_nearestTo_le (p : ℕ) (x : ℚ) : |nearestTo p x| ≤ 2 ^ (Int.log 2 |x| + 1) := by
  have hlt := (lt_zpow_log x).le
  rw [zpow_log_succ_eq p x] at hlt ⊢
  rw [abs_le] at hlt ⊢
  refine ⟨?_, nearestTo_le hlt.2⟩
  have hlow := le_nearestTo (p := p) (x := x) (n := -2 ^ p)
  rw [Int.cast_neg, neg_mul] at hlow
  exact hlow hlt.1

theorem zpow_log_le_nearestTo (hp : 0 < p) (h : 0 < x) : 2 ^ Int.log 2 |x| ≤ nearestTo p x := by
  have hle := zpow_log_le h.ne'
  rw [zpow_log_eq hp] at hle ⊢
  rw [abs_of_pos h] at hle
  exact le_nearestTo hle

theorem nearestTo_le_neg_zpow_log (hp : 0 < p) (h : x < 0) : nearestTo p x ≤ -2 ^ Int.log 2 |x| := by
  have hle := zpow_log_le h.ne
  rw [zpow_log_eq hp] at hle ⊢
  rw [abs_of_neg h] at hle
  have hhigh := nearestTo_le (p := p) (x := x) (n := -2 ^ (p - 1))
  rw [Int.cast_neg, neg_mul] at hhigh
  exact hhigh (by linarith)

/-- Numbers of one binade have one grid; between two binades there is a power of two. -/
theorem nearestTo_mono (hp : 0 < p) : Monotone (nearestTo p) := by
  intro x y hxy
  have hgrid : Int.log 2 |x| = Int.log 2 |y| → nearestTo p x ≤ nearestTo p y := by
    intro hlog
    have hquantum : quantum p x = quantum p y := by rw [quantum, quantum, hlog]
    rw [nearestTo, nearestTo, hquantum]
    refine mul_le_mul_of_nonneg_right ?_ (quantum_pos p y).le
    exact_mod_cast halfEven_mono (div_le_div_of_nonneg_right hxy (quantum_pos p y).le)
  have hpow : ∀ {a b : ℤ}, a < b → (2 : ℚ) ^ (a + 1) ≤ 2 ^ b := fun hab => zpow_le_zpow_right₀ one_le_two hab
  rcases lt_trichotomy x 0 with hx | rfl | hx
  · rcases lt_trichotomy y 0 with hy | rfl | hy
    · have habs : |y| ≤ |x| := by
        rw [abs_of_neg hx, abs_of_neg hy]
        linarith
      rcases (Int.log_mono_right (abs_pos.mpr hy.ne) habs : Int.log 2 |y| ≤ Int.log 2 |x|).eq_or_lt with hlog | hlog
      · exact hgrid hlog.symm
      · calc nearestTo p x ≤ -2 ^ Int.log 2 |x| := nearestTo_le_neg_zpow_log hp hx
          _ ≤ -2 ^ (Int.log 2 |y| + 1) := neg_le_neg (hpow hlog)
          _ ≤ nearestTo p y := (abs_le.mp (abs_nearestTo_le p y)).1
    · calc nearestTo p x ≤ ((0 : ℤ) : ℚ) * quantum p x := nearestTo_le (by simpa using hx.le)
        _ = nearestTo p 0 := by simp [nearestTo, halfEven]
    · calc nearestTo p x ≤ ((0 : ℤ) : ℚ) * quantum p x := nearestTo_le (by simpa using hx.le)
        _ = ((0 : ℤ) : ℚ) * quantum p y := by simp
        _ ≤ nearestTo p y := le_nearestTo (by simpa using hy.le)
  · calc nearestTo p 0 = ((0 : ℤ) : ℚ) * quantum p y := by simp [nearestTo, halfEven]
      _ ≤ nearestTo p y := le_nearestTo (by simpa using hxy)
  · have hy : 0 < y := hx.trans_le hxy
    have habs : |x| ≤ |y| := by rwa [abs_of_pos hx, abs_of_pos hy]
    rcases (Int.log_mono_right (abs_pos.mpr hx.ne') habs : Int.log 2 |x| ≤ Int.log 2 |y|).eq_or_lt with hlog | hlog
    · exact hgrid hlog
    · calc nearestTo p x ≤ 2 ^ (Int.log 2 |x| + 1) := (abs_le.mp (abs_nearestTo_le p x)).2
        _ ≤ 2 ^ Int.log 2 |y| := hpow hlog
        _ ≤ nearestTo p y := zpow_log_le_nearestTo hp hy

/-- A number of `p` digits is on its grid. -/
theorem nearestTo_kept (hp : 0 < p) {m : ℤ} (e : ℤ) (hm : |m| ≤ 2 ^ p) : nearestTo p (m * 2 ^ e) = m * 2 ^ e := by
  by_cases hzero : m = 0
  · simp [hzero, nearestTo, halfEven]
  set x : ℚ := m * 2 ^ e with hx
  have habs : |x| = |m| * 2 ^ e := by
    rw [hx, abs_mul, abs_of_pos (zpow_pos (two_pos : (0 : ℚ) < 2) e), Int.cast_abs]
  have hne : x ≠ 0 := mul_ne_zero (by exact_mod_cast hzero) (zpow_pos two_pos e).ne'
  have hle : Int.log 2 |x| ≤ p + e := by
    have hupper : |x| ≤ (2 : ℚ) ^ ((p : ℤ) + e) := by
      rw [habs, zpow_add₀ two_ne_zero, zpow_natCast]
      exact mul_le_mul_of_nonneg_right (by exact_mod_cast hm) (zpow_pos two_pos e).le
    exact (zpow_le_zpow_iff_right₀ one_lt_two).mp ((zpow_log_le hne).trans hupper)
  rcases hle.lt_or_eq with hlt | heq
  · -- The last digit is finer than `2 ^ e`.
    obtain ⟨k, hk⟩ : ∃ k : ℕ, e = (Int.log 2 |x| - p + 1) + k :=
      ⟨(e - (Int.log 2 |x| - p + 1)).toNat, by omega⟩
    refine nearestTo_of_multiple (n := m * 2 ^ k) ?_
    rw [quantum, Int.cast_mul, Int.cast_pow, Int.cast_ofNat, mul_assoc, ← zpow_natCast, ← zpow_add₀ two_ne_zero, add_comm,
      ← hk]
  · -- Only a power of two fills all digits and one more.
    have hpow : (2 : ℚ) ^ p ≤ |m| := by
      have hlow := zpow_log_le hne
      rw [heq, habs, zpow_add₀ two_ne_zero, zpow_natCast] at hlow
      exact le_of_mul_le_mul_right hlow (zpow_pos two_pos e)
    have hm' : |m| = 2 ^ p := le_antisymm hm (by exact_mod_cast hpow)
    have hx' : |x| = ((2 ^ (p - 1) : ℤ) : ℚ) * quantum p x := by
      rw [← zpow_log_eq hp, heq, habs, hm', zpow_add₀ two_ne_zero, zpow_natCast]
      push_cast
      rfl
    rcases abs_choice x with hsign | hsign
    · exact nearestTo_of_multiple (hsign.symm.trans hx')
    · refine nearestTo_of_multiple (n := -2 ^ (p - 1)) ?_
      rw [Int.cast_neg, neg_mul, ← hx', hsign, neg_neg]

theorem abs_nearestTo_sub_le (p : ℕ) (x : ℚ) : |nearestTo p x - x| ≤ |x| / 2 ^ p := by
  by_cases hx : x = 0
  · simp [hx, nearestTo, halfEven]
  have hq := quantum_pos p x
  have hhalf : |nearestTo p x - x| ≤ 1 / 2 * quantum p x := by
    calc |nearestTo p x - x| = |halfEven (x / quantum p x) - x / quantum p x| * quantum p x := by
          rw [← abs_of_pos hq, ← abs_mul, abs_of_pos hq, sub_mul, div_mul_cancel₀ x hq.ne', nearestTo]
      _ ≤ 1 / 2 * quantum p x := mul_le_mul_of_nonneg_right (abs_halfEven_sub_le _) hq.le
  refine hhalf.trans ((le_div_iff₀ (by positivity)).mpr ?_)
  calc 1 / 2 * quantum p x * 2 ^ p = 1 / 2 * (2 ^ (Int.log 2 |x| + 1)) := by
        rw [zpow_log_succ_eq p x]
        push_cast
        ring
    _ = 2 ^ Int.log 2 |x| := by
        rw [zpow_add_one₀ two_ne_zero]
        ring
    _ ≤ |x| := zpow_log_le hx

theorem nearestTo_idem (hp : 0 < p) (x : ℚ) : nearestTo p (nearestTo p x) = nearestTo p x := by
  refine nearestTo_kept hp (Int.log 2 |x| - p + 1) ?_
  have habs := abs_nearestTo_le p x
  rw [zpow_log_succ_eq p x, nearestTo, abs_mul, abs_of_pos (quantum_pos p x)] at habs
  exact_mod_cast le_of_mul_le_mul_right habs (quantum_pos p x)

end Nearest

/-- To the nearest number of `p` digits, ties to even. -/
def nearest (p : ℕ) (hp : 0 < p) : Rounding p where
  round := nearestTo p
  monotone := nearestTo_mono hp
  idem := nearestTo_idem hp
  kept _ e hm := nearestTo_kept hp e hm
  close := abs_nearestTo_sub_le p

/-- The rounding of doubles. -/
def binary64 : Rounding 53 := nearest 53 (by decide)

end Rounding

end PumpSwapBot.Library
