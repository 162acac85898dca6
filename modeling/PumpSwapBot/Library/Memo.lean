import Mathlib.Logic.Function.Basic

/-!
# Tables of what was computed before

A table holds, for some keys, a value that was computed for the key. `Holds R t` says that each of them is related to
its key as `R` says.

## What is proved

* `Holds.insert` — the relation is kept by writing a value that has it.
-/

namespace PumpSwapBot.Library.Memo

variable {K V : Type} {R R' : K → V → Prop} {t : K → Option V} {k : K} {v : V}

/-- Every value of the table is related to its key. -/
def Holds (R : K → V → Prop) (t : K → Option V) : Prop := ∀ k v, t k = some v → R k v

theorem Holds.empty : Holds R fun _ => none := fun _ _ h => by cases h

theorem Holds.mono (h : Holds R t) (hR : ∀ k v, R k v → R' k v) : Holds R' t := fun k v hv => hR k v (h k v hv)

theorem Holds.insert [DecidableEq K] (h : Holds R t) (hk : R k v) : Holds R (Function.update t k (some v)) := by
  intro k' v' hv
  by_cases hkey : k' = k
  · subst hkey
    rw [Function.update_self] at hv
    cases hv
    exact hk
  · rw [Function.update_of_ne hkey] at hv
    exact h k' v' hv

end PumpSwapBot.Library.Memo
