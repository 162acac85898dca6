import Mathlib.Algebra.BigOperators.Group.Finset.Piecewise
import Mathlib.Data.Fintype.Basic
import Mathlib.Tactic.Abel

/-!
# Machines of several parties

A machine is a partial step function: from a state, an action leads to a next state or is not
enabled. A run is a list of actions that are enabled one after the other. Parties that act at their
own pace are a machine whose actions say which party goes on, so that a list of actions is one
interleaving, and what holds of every list holds of every interleaving.

## What is proved

* `invariant` — what every step keeps, every run keeps.
* `invariant_along` — the same for the runs that meet a condition at each step.
* `sum_update` — a sum over the parties when one of them changes.
-/

namespace PumpSwapBot.Library.Machine

open scoped BigOperators

variable {σ α : Type} {step : σ → α → Option σ}

/-- The state after a list of actions, if each is enabled when its turn comes. -/
def run (step : σ → α → Option σ) : σ → List α → Option σ
  | s, [] => some s
  | s, a :: as => (step s a).bind fun s' => run step s' as

/-- The condition `C` holds of each state of a run and the action taken there. -/
def Along (step : σ → α → Option σ) (C : σ → α → Prop) : σ → List α → Prop
  | _, [] => True
  | s, a :: as => C s a ∧ ∀ s', step s a = some s' → Along step C s' as

@[simp] theorem run_nil (s : σ) : run step s [] = some s := rfl

theorem run_cons {s s'' : σ} {a : α} {as : List α} :
    run step s (a :: as) = some s'' ↔ ∃ s', step s a = some s' ∧ run step s' as = some s'' := by
  simp [run, Option.bind_eq_some_iff]

/-- Runs one after the other. -/
theorem run_trans {s s' s'' : σ} {as as' : List α} (h : run step s as = some s') (h' : run step s' as' = some s'') :
    run step s (as ++ as') = some s'' := by
  induction as generalizing s with
  | nil =>
    cases h
    exact h'
  | cons a as ih =>
    obtain ⟨s₁, hs, hrest⟩ := run_cons.mp h
    exact run_cons.mpr ⟨s₁, hs, ih hrest⟩

/-- **The rule for invariants under a condition.** -/
theorem invariant_along {I : σ → Prop} {C : σ → α → Prop}
    (hstep : ∀ s a s', I s → C s a → step s a = some s' → I s') {s s' : σ} {as : List α} (h : I s)
    (hcond : Along step C s as) (hrun : run step s as = some s') : I s' := by
  induction as generalizing s with
  | nil =>
    cases hrun
    exact h
  | cons a as ih =>
    obtain ⟨s₁, hs, hrest⟩ := run_cons.mp hrun
    exact ih (hstep s a s₁ h hcond.1 hs) (hcond.2 s₁ hs) hrest

theorem along_of_forall {C : σ → α → Prop} {as : List α} (h : ∀ a ∈ as, ∀ s, C s a) (s : σ) : Along step C s as := by
  induction as generalizing s with
  | nil => trivial
  | cons a as ih =>
    rw [List.forall_mem_cons] at h
    exact ⟨h.1 s, fun s' _ => ih h.2 s'⟩

/-- **The rule for invariants.** -/
theorem invariant {I : σ → Prop} (hstep : ∀ s a s', I s → step s a = some s' → I s') {s s' : σ} {as : List α}
    (h : I s) (hrun : run step s as = some s') : I s' :=
  invariant_along (fun s a s' hs _ => hstep s a s' hs) h (along_of_forall (fun _ _ _ => trivial) s) hrun

/-! ### Parties -/

/-- What the parties hold together, when party `i` changes to `x`. -/
theorem sum_update {ι W M : Type} [Fintype ι] [DecidableEq ι] [AddCommMonoid M] (g : W → M) (f : ι → W) (i : ι) (x : W) :
    ∑ j, g (Function.update f i x j) + g (f i) = ∑ j, g (f j) + g x := by
  have hcomp : (fun j => g (Function.update f i x j)) = Function.update (g ∘ f) i (g x) := by
    funext j
    by_cases h : j = i
    · subst h
      simp
    · simp [h]
  have hsplit : g (f i) + ∑ j ∈ Finset.univ.erase i, g (f j) = ∑ j, g (f j) :=
    Finset.add_sum_erase Finset.univ (fun j => g (f j)) (Finset.mem_univ i)
  rw [hcomp, Finset.sum_update_of_mem (Finset.mem_univ i), Finset.sdiff_singleton_eq_erase, ← hsplit]
  simp only [Function.comp_apply]
  abel

end PumpSwapBot.Library.Machine
