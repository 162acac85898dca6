import Mathlib.Init

/-!
# Programs that may fail

A program that reads and changes a state, and that may stop part way with a failure, is a
function from the prestate to its outcome and the poststate (`Proc`). The poststate is there
whether the program returned or failed: what a failed program has already done stays done.

## What is proved

* The equations of the operations (`bind_run` and its neighbours), by which a program is run
  symbolically, one part after the other (`bind_run_ok`) or up to its first failure
  (`bind_run_error`).
* `Returns` — a program does not fail, with the rules for its parts (`returns_bind_iff`).
* `Relates` — a program run from two related states, with the rules for its parts.
-/

namespace PumpSwapBot.Library

/-- A program over states `σ`: it returns an `α` or fails with an `ε`, in a poststate. -/
def Proc (σ ε α : Type) : Type := σ → Except ε α × σ

namespace Proc

variable {σ ε α β : Type}

/-- Run a program from a state. -/
def run (m : Proc σ ε α) (s : σ) : Except ε α × σ := m s

instance : Monad (Proc σ ε) where
  pure a := fun s => (.ok a, s)
  bind m f := fun s => match m s with
    | (.ok a, s') => f a s'
    | (.error e, s') => (.error e, s')

/-- The state. -/
def get : Proc σ ε σ := fun s => (.ok s, s)

/-- Change the state. -/
def modify (f : σ → σ) : Proc σ ε Unit := fun s => (.ok (), f s)

/-- A computation that does not touch the state. -/
def ofExcept (r : Except ε α) : Proc σ ε α := fun s => (r, s)

/-- Run `m` and hand its outcome on as a value: a failure is caught. -/
def attempt (m : Proc σ ε α) : Proc σ ε (Except ε α) := fun s => (.ok (m s).1, (m s).2)

/-- Run a program on a part of the state. -/
def zoom {τ : Type} (part : σ → τ) (put : τ → σ → σ) (m : Proc τ ε α) : Proc σ ε α :=
  fun s => ((m (part s)).1, put (m (part s)).2 s)

@[simp] theorem pure_run (a : α) (s : σ) : (pure a : Proc σ ε α).run s = (.ok a, s) := rfl

@[simp] theorem get_run (s : σ) : (get : Proc σ ε σ).run s = (.ok s, s) := rfl

@[simp] theorem modify_run (f : σ → σ) (s : σ) : (modify f : Proc σ ε Unit).run s = (.ok (), f s) := rfl

@[simp] theorem ofExcept_run (r : Except ε α) (s : σ) : (ofExcept r : Proc σ ε α).run s = (r, s) := rfl

@[simp] theorem attempt_run (m : Proc σ ε α) (s : σ) :
    (attempt m).run s = (.ok (m.run s).1, (m.run s).2) := rfl

@[simp] theorem zoom_run {τ : Type} (part : σ → τ) (put : τ → σ → σ) (m : Proc τ ε α) (s : σ) :
    (zoom part put m).run s = ((m.run (part s)).1, put (m.run (part s)).2 s) := rfl

theorem bind_run (m : Proc σ ε α) (f : α → Proc σ ε β) (s : σ) :
    (m >>= f).run s = match m.run s with
      | (.ok a, s') => (f a).run s'
      | (.error e, s') => (.error e, s') := rfl

/-- A program whose first part returns goes on with the rest. -/
theorem bind_run_ok {m : Proc σ ε α} {f : α → Proc σ ε β} {s s' : σ} {a : α}
    (h : m.run s = (.ok a, s')) : (m >>= f).run s = (f a).run s' := by
  rw [bind_run, h]

/-- A program whose first part fails, fails. -/
theorem bind_run_error {m : Proc σ ε α} {f : α → Proc σ ε β} {s s' : σ} {e : ε}
    (h : m.run s = (.error e, s')) : (m >>= f).run s = (.error e, s') := by
  rw [bind_run, h]

/-- A program that goes on to return a value leaves the state it had. -/
theorem bind_pure_state (m : Proc σ ε α) (b : α → β) (s : σ) : ((m >>= fun a => pure (b a)).run s).2 = (m.run s).2 := by
  rw [bind_run]
  rcases m.run s with ⟨e | a, s'⟩ <;> rfl

/-! ### Runs that return -/

/-- From a state the program returns. -/
def Returns (m : Proc σ ε α) (s : σ) : Prop := ∃ a, (m.run s).1 = .ok a

section Returns

variable {m : Proc σ ε α} {f : α → Proc σ ε β} {s : σ}

@[simp] theorem returns_pure (a : α) (s : σ) : (pure a : Proc σ ε α).Returns s := ⟨a, rfl⟩

@[simp] theorem returns_ofExcept_iff {r : Except ε α} : (ofExcept r : Proc σ ε α).Returns s ↔ ∃ a, r = .ok a := Iff.rfl

@[simp] theorem returns_zoom_iff {τ : Type} {part : σ → τ} {put : τ → σ → σ} {m : Proc τ ε α} :
    (zoom part put m).Returns s ↔ m.Returns (part s) := Iff.rfl

/-- Two parts return if the first does, and the second from where the first leaves it. -/
theorem returns_bind_iff :
    (m >>= f).Returns s ↔ ∃ a, (m.run s).1 = .ok a ∧ (f a).Returns (m.run s).2 := by
  rcases hm : m.run s with ⟨e | a, s'⟩
  · simp [Returns, bind_run_error hm]
  · simp [Returns, bind_run_ok hm]

@[simp] theorem returns_get_bind_iff {f : σ → Proc σ ε β} : (get >>= f).Returns s ↔ (f s).Returns s := Iff.rfl

@[simp] theorem returns_modify_bind_iff {g : σ → σ} {f : Unit → Proc σ ε β} :
    (modify g >>= f).Returns s ↔ (f ()).Returns (g s) := Iff.rfl

theorem returns_ofExcept_bind_iff {r : Except ε α} :
    (ofExcept r >>= f).Returns s ↔ ∃ a, r = .ok a ∧ (f a).Returns s := returns_bind_iff

end Returns

/-! ### Two runs -/

/-- From related states the program has the same outcome, and leaves related states. -/
def Relates (R : σ → σ → Prop) (m : Proc σ ε α) : Prop :=
  ∀ s s', R s s' → (m.run s).1 = (m.run s').1 ∧ R (m.run s).2 (m.run s').2

section Relates

variable {R : σ → σ → Prop} {m : Proc σ ε α} {f : α → Proc σ ε β}

theorem relates_pure (a : α) : Relates R (pure a : Proc σ ε α) := fun _ _ h => ⟨rfl, h⟩

theorem relates_ofExcept (r : Except ε α) : Relates R (ofExcept r : Proc σ ε α) := fun _ _ h => ⟨rfl, h⟩

theorem relates_modify {g : σ → σ} (h : ∀ s s', R s s' → R (g s) (g s')) : Relates R (modify g : Proc σ ε Unit) :=
  fun s s' hs => ⟨rfl, h s s' hs⟩

theorem Relates.bind (hm : Relates R m) (hf : ∀ a, Relates R (f a)) : Relates R (m >>= f) := by
  intro s s' hs
  obtain ⟨hout, hstate⟩ := hm s s' hs
  rcases hrun : m.run s with ⟨e | a, s₁⟩ <;> rcases hrun' : m.run s' with ⟨e' | a', s₁'⟩ <;>
    simp only [hrun, hrun', reduceCtorEq] at hout hstate
  · rw [bind_run_error hrun, bind_run_error hrun']
    exact ⟨by rw [Except.error.inj hout], hstate⟩
  · rw [bind_run_ok hrun, bind_run_ok hrun', Except.ok.inj hout]
    exact hf a' s₁ s₁' hstate

/-- A program that looks at the state does the same from related states, if what it goes on with does. -/
theorem relates_get {f : σ → Proc σ ε β} (h : ∀ s s', R s s' → f s = f s') (hf : ∀ s, Relates R (f s)) :
    Relates R (get >>= f) := by
  intro s s' hs
  rw [bind_run_ok (get_run s), bind_run_ok (get_run s'), h s s' hs]
  exact hf s' s s' hs

end Relates

end Proc

end PumpSwapBot.Library
