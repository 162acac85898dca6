import Mathlib.Logic.Function.Basic

/-!
# A lock and the parties that use it

The parties are at stages, and at some of them a party has the lock. `Owned` says that the lock's own record is right: it
names a party exactly if this one is at such a stage.

## What is proved

* `Owned.acquire`, `Owned.release`, `Owned.stay` — a party that takes the lock when it is free, gives it back, or goes on
  without doing either keeps the record right.
* `Owned.exclusive` — and while it is right, no two parties have the lock.
-/

namespace PumpSwapBot.Library.Mutex

variable {ι σ : Type} {holds : σ → Prop} {lock : Option ι} {stages : ι → σ} {i j : ι} {x : σ}

/-- The lock is with the party that is at a stage with the lock. -/
def Owned (holds : σ → Prop) (lock : Option ι) (stages : ι → σ) : Prop := ∀ i, lock = some i ↔ holds (stages i)

theorem Owned.free (h : ∀ i, ¬ holds (stages i)) : Owned holds none stages := fun i =>
  ⟨fun hi => (by cases hi), fun hi => (h i hi).elim⟩

theorem Owned.exclusive (h : Owned holds lock stages) (hi : holds (stages i)) (hj : holds (stages j)) : i = j :=
  Option.some.inj (((h i).mpr hi).symm.trans ((h j).mpr hj))

variable [DecidableEq ι]

theorem Owned.stay (h : Owned holds lock stages) (hx : holds x ↔ holds (stages i)) :
    Owned holds lock (Function.update stages i x) := by
  intro j
  by_cases hj : j = i
  · subst hj
    rw [Function.update_self, hx, h j]
  · rw [Function.update_of_ne hj, h j]

theorem Owned.acquire (h : Owned holds none stages) (hx : holds x) : Owned holds (some i) (Function.update stages i x) := by
  intro j
  by_cases hj : j = i
  · subst hj
    simpa using hx
  · rw [Function.update_of_ne hj, ← h j]
    simpa using fun hij => hj hij.symm

theorem Owned.release (h : Owned holds lock stages) (hi : holds (stages i)) (hx : ¬ holds x) :
    Owned holds none (Function.update stages i x) := by
  refine .free fun j hj => ?_
  by_cases hji : j = i
  · subst hji
    rw [Function.update_self] at hj
    exact hx hj
  · rw [Function.update_of_ne hji] at hj
    exact hji (h.exclusive hj hi)

end PumpSwapBot.Library.Mutex
