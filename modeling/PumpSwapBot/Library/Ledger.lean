import Mathlib.Data.List.Basic

/-!
# Ledgers of one slot

A slot holds at most one item at a time. Its ledger is the list of what happened to it, newest first:
an item was put in (`opened`) or taken out (`closed`). `Books ms held` says that the ledger `ms` is
one of a slot that was empty at first, takes an item only when it is empty, gives back only the item
it holds, and holds `held` now.

## What is proved

* `Books.count` — such a slot is taken exactly when more was put in than taken out.
* `Books.reverse_eq` — read from the oldest, such a ledger is a sequence of rounds, each item put in
  and then taken out, and last what is in the slot.
-/

namespace PumpSwapBot.Library.Ledger

variable {α : Type}

/-- What happens to a slot. -/
inductive Move (α : Type) where
  /-- An item is put in. -/
  | opened (a : α)
  /-- An item is taken out. -/
  | closed (a : α)
  deriving DecidableEq

/-- An item is put in. -/
def Move.isOpened : Move α → Bool
  | .opened _ => true
  | .closed _ => false

/-- An item is taken out. -/
def Move.isClosed (m : Move α) : Bool := !m.isOpened

@[simp] theorem Move.isOpened_opened (a : α) : (Move.opened a).isOpened = true := rfl

@[simp] theorem Move.isOpened_closed (a : α) : (Move.closed a).isOpened = false := rfl

@[simp] theorem Move.isClosed_opened (a : α) : (Move.opened a).isClosed = false := rfl

@[simp] theorem Move.isClosed_closed (a : α) : (Move.closed a).isClosed = true := rfl

/-- The ledger, newest first, of a slot and what it holds. -/
inductive Books : List (Move α) → Option α → Prop where
  | empty : Books [] none
  | opened {ms : List (Move α)} (a : α) : Books ms none → Books (.opened a :: ms) (some a)
  | closed {ms : List (Move α)} {a : α} : Books ms (some a) → Books (.closed a :: ms) none

/-- What was put in and what was taken out differ by what is held. -/
theorem Books.count {ms : List (Move α)} {held : Option α} (h : Books ms held) :
    ms.countP Move.isOpened = ms.countP Move.isClosed + held.toList.length := by
  induction h with
  | empty => rfl
  | opened a _ ih => simp [List.countP_cons, ih]
  | closed _ ih => simp [List.countP_cons, ih]

/-- The slot is taken exactly when more was put in than taken out. -/
theorem Books.isSome_iff {ms : List (Move α)} {held : Option α} (h : Books ms held) :
    held.isSome = true ↔ ms.countP Move.isClosed < ms.countP Move.isOpened := by
  rw [h.count]
  cases held <;> simp

/-- Rounds: each item put in and taken out. -/
def rounds (as : List α) : List (Move α) := as.flatMap fun a => [.opened a, .closed a]

/-- **A ledger is a sequence of rounds**, and last what is held. -/
theorem Books.reverse_eq {ms : List (Move α)} {held : Option α} (h : Books ms held) :
    ∃ as, ms.reverse = rounds as ++ held.toList.map Move.opened := by
  induction h with
  | empty => exact ⟨[], rfl⟩
  | opened a _ ih =>
    obtain ⟨as, has⟩ := ih
    exact ⟨as, by simp [has]⟩
  | @closed ms a _ ih =>
    obtain ⟨as, has⟩ := ih
    exact ⟨as ++ [a], by simp [has, rounds]⟩

end PumpSwapBot.Library.Ledger
