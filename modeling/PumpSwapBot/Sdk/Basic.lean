import PumpSwapBot.Library.Bytes
import Mathlib.Tactic.SplitIfs

/-!
# Addresses, errors and machine arithmetic

What the SDK and the bot share: 32-byte addresses with their base-58 texts, errors with their
context, and `u64` arithmetic.

## The model

* `Pubkey` stands for both `solana_sdk::pubkey::Pubkey` and `solana_address::Address`: the bot
  copies one to the other byte by byte. The length is a field, so that every address has 32 bytes.
* A computation ends in a value, in an `anyhow::Error`, or in a panic (`Failure`). A caller can
  catch an error; a panic ends the task.
* Integer overflow panics in a build with overflow checks and wraps without them (`Profile`); every
  operation of the source that is not a checked one goes through `addU64`, `subU64` or `mulU64`.
-/

namespace PumpSwapBot.Sdk

open PumpSwapBot.Library

/-! ### Addresses -/

/-- An address of 32 bytes. -/
structure Pubkey where
  /-- The bytes. -/
  bytes : List UInt8
  /-- There are 32 of them. -/
  length_eq : bytes.length = 32
  deriving DecidableEq

@[ext] theorem Pubkey.ext_bytes {a b : Pubkey} (h : a.bytes = b.bytes) : a = b := by
  cases a
  cases b
  cases h
  rfl

namespace Pubkey

/-- The address of 32 zero bytes, `Pubkey::default()`. -/
def default : Pubkey := ⟨List.replicate 32 0, List.length_replicate⟩

instance : Inhabited Pubkey := ⟨default⟩

/-- Parse the base-58 text of an address, `Pubkey::from_str`. -/
def fromStr (s : String) : Option Pubkey :=
  match h : Base58.decode 32 s with
  | some bs => some ⟨bs, Base58.length_of_decode h⟩
  | none => none

/-- The text of the error for a text that is no address. -/
def parseError (s : String) : String :=
  if s.utf8ByteSize ≤ 44 ∧ s.toList.any (fun c => (Base58.digit c).isNone) then "Invalid Base58 string"
  else "String is the wrong size"

/-- The base-58 text of an address. -/
def toText (k : Pubkey) : String := Base58.encode k.bytes

theorem toText_inj {k k' : Pubkey} : k.toText = k'.toText ↔ k = k' := by
  constructor
  · intro h
    exact Pubkey.ext_bytes (Base58.encode_inj (k.length_eq.trans k'.length_eq.symm) h)
  · rintro rfl
    rfl

end Pubkey

/-- An address given by its text in the source, `pubkey!("…")`; a text that is no address does not
compile. -/
def pubkey (s : String) (h : (Base58.decode 32 s).isSome = true := by decide +kernel) : Pubkey :=
  ⟨(Base58.decode 32 s).get h, Base58.length_of_decode (Option.some_get h).symm⟩

/-! ### Errors -/

/-- An `anyhow::Error`: a message, and the messages of what caused it, outermost first. -/
structure Error where
  /-- The message shown by `{}`. -/
  msg : String
  /-- The messages below it. -/
  causes : List String := []
  deriving DecidableEq

/-- The error of `anyhow!("…")`. -/
def anyhow (msg : String) : Error := { msg := msg }

/-- One entry of the list of causes in the text of `{:?}`: the first line after the number, the
others below it. -/
def Error.indented (number : Option ℕ) (msg : String) : String :=
  let lead := match number with
    | some n => String.ofList (List.replicate (5 - (toString n).length) ' ') ++ toString n ++ ": "
    | none => "    "
  let indent := match number with
    | some _ => "       "
    | none => "    "
  "\n" ++ lead ++ ("\n" ++ indent).intercalate (msg.splitOn "\n")

/-- The text of `{:?}`: the message and the causes, numbered when there are several. -/
def Error.debug (e : Error) : String :=
  match e.causes with
  | [] => e.msg
  | [c] => e.msg ++ "\n\nCaused by:" ++ Error.indented none c
  | cs => e.msg ++ "\n\nCaused by:" ++ String.join (cs.mapIdx fun i c => Error.indented (some i) c)

/-- How a computation can fail. -/
inductive Failure where
  /-- An error handed to the caller. -/
  | err (e : Error)
  /-- A panic, with its message. -/
  | panic (msg : String)
  deriving DecidableEq

/-- A Rust computation's outcome. -/
abbrev Result (α : Type) := Except Failure α

/-- Fail with an error. -/
def bail {α : Type} (msg : String) : Result α := .error (.err (anyhow msg))

/-- Return early with an error, `if c { return Err(anyhow!("…")) }`. -/
def bailIf (c : Prop) [Decidable c] (msg : String) : Result Unit := if c then bail msg else .ok ()

theorem bailIf_eq_ok {c : Prop} [Decidable c] {msg : String} {u : Unit} : bailIf c msg = .ok u ↔ ¬ c := by
  simp only [bailIf]
  split_ifs with h <;> simp [bail, h]

theorem bailIf_neg {c : Prop} [Decidable c] (msg : String) (h : ¬ c) : bailIf c msg = .ok () := if_neg h

section Bind

variable {α β : Type}

@[simp] theorem ok_bind (a : α) (f : α → Result β) : ((.ok a : Result α) >>= f) = f a := rfl

@[simp] theorem error_bind (e : Failure) (f : α → Result β) :
    ((.error e : Result α) >>= f) = .error e := rfl

theorem bind_eq_ok {r : Result α} {f : α → Result β} {b : β} :
    (r >>= f) = .ok b ↔ ∃ a, r = .ok a ∧ f a = .ok b := by
  rcases r with _ | a <;> simp

end Bind

/-- The value of an option that must be there, `.ok_or_else(|| anyhow!("…"))?`. -/
def okOr {α : Type} (msg : String) : Option α → Result α
  | some a => .ok a
  | none => bail msg

@[simp] theorem okOr_some {α : Type} (msg : String) (a : α) : okOr msg (some a) = .ok a := rfl

theorem okOr_eq_ok {α : Type} {msg : String} {o : Option α} {a : α} : okOr msg o = .ok a ↔ o = some a := by
  rcases o with _ | _ <;> simp [okOr, bail]

/-- Add a message on top of the error, `.context("…")`; a panic goes through. -/
def context {α : Type} (msg : String) : Result α → Result α
  | .error (.err e) => .error (.err { msg := msg, causes := e.msg :: e.causes })
  | r => r

/-- Look at an outcome, `match … { Ok(a) => …, Err(e) => … }`: an error is caught, a panic is not. -/
def caught {α : Type} : Result α → Result (Except Error α)
  | .ok a => .ok (.ok a)
  | .error (.err e) => .ok (.error e)
  | .error (.panic msg) => .error (.panic msg)

/-- Hand an error on, `?`. -/
def orFail {α : Type} : Except Error α → Result α
  | .ok a => .ok a
  | .error e => .error (.err e)

@[simp] theorem context_ok {α : Type} (msg : String) (a : α) : context msg (.ok a) = .ok a := rfl

theorem context_eq_ok {α : Type} {msg : String} {r : Result α} {a : α} :
    context msg r = .ok a ↔ r = .ok a := by
  rcases r with (_ | _) | _ <;> simp [context]

theorem caught_eq_ok {α : Type} {r : Result α} {o : Except Error α} (h : caught r = .ok o) :
    r = orFail o := by
  rcases r with (e | m) | a <;> simp only [caught, Except.ok.injEq, reduceCtorEq] at h <;> subst h <;> rfl

theorem orFail_eq_ok {α : Type} {o : Except Error α} {a : α} : orFail o = .ok a ↔ o = .ok a := by
  rcases o with _ | _ <;> simp [orFail]

/-! ### Arithmetic -/

/-- Whether the build checks for overflow. -/
inductive Profile where
  /-- `overflow-checks = true`, the `dev` profile. -/
  | dev
  /-- `overflow-checks = false`, the `release` profile. -/
  | release
  deriving DecidableEq

/-- The result of an arithmetic operation on `u64`: `wrapped` if it is exact, and otherwise what
the profile makes of an overflow. -/
def checkedU64 (p : Profile) (exact : Prop) [Decidable exact] (verb : String) (wrapped : UInt64) :
    Result UInt64 :=
  if exact then .ok wrapped
  else match p with
    | .dev => .error (.panic ("attempt to " ++ verb ++ " with overflow"))
    | .release => .ok wrapped

/-- The operation `a + b`. -/
def addU64 (p : Profile) (a b : UInt64) : Result UInt64 :=
  checkedU64 p (a.toNat + b.toNat < 2 ^ 64) "add" (a + b)

/-- The operation `a - b`. -/
def subU64 (p : Profile) (a b : UInt64) : Result UInt64 :=
  checkedU64 p (b.toNat ≤ a.toNat) "subtract" (a - b)

/-- The operation `a * b`. -/
def mulU64 (p : Profile) (a b : UInt64) : Result UInt64 :=
  checkedU64 p (a.toNat * b.toNat < 2 ^ 64) "multiply" (a * b)

theorem addU64_ok {p : Profile} {a b : UInt64} (h : a.toNat + b.toNat < 2 ^ 64) :
    addU64 p a b = .ok (a + b) := if_pos h

theorem subU64_ok {p : Profile} {a b : UInt64} (h : b.toNat ≤ a.toNat) :
    subU64 p a b = .ok (a - b) := if_pos h

theorem mulU64_ok {p : Profile} {a b : UInt64} (h : a.toNat * b.toNat < 2 ^ 64) :
    mulU64 p a b = .ok (a * b) := if_pos h

/-- The conversion `as u64` of a wider number. -/
def asU64 (n : ℕ) : UInt64 := UInt64.ofNat n

theorem toNat_asU64 {n : ℕ} (h : n < 2 ^ 64) : (asU64 n).toNat = n := UInt64.toNat_ofNat_of_lt' h

/-- The digits of a decimal text, read from the left onto `n`. -/
def parseDigits : ℕ → List Char → Except String UInt64
  | n, [] => .ok (asU64 n)
  | n, c :: cs =>
    if c.isDigit then
      let n := 10 * n + (c.toNat - 48)
      if n < 2 ^ 64 then parseDigits n cs else .error "number too large to fit in target type"
    else .error "invalid digit found in string"

/-- Parse a decimal text, `str::parse::<u64>`, with the texts of its errors. -/
def parseU64 (s : String) : Except String UInt64 :=
  match s.toList with
  | [] => .error "cannot parse integer from empty string"
  | ['+'] => .error "invalid digit found in string"
  | '+' :: cs => parseDigits 0 cs
  | cs => parseDigits 0 cs

end PumpSwapBot.Sdk
