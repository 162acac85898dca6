import Mathlib.Data.List.Induction
import Mathlib.Data.List.Infix

/-!
# Properties along a list of events

What holds after each of some events, that is, of every prefix of their list.

## What is proved

* `invariant_of_steps` — an invariant that each event keeps under a condition holds after every event, if every
  event meets its condition.
* `property_iff_steps` — a property holds after every event exactly if every event meets its condition, where an
  invariant leads from the conditions to the property and back.
-/

namespace PumpSwapBot.Library.Prefixes

-- `I` and `P` are of the prefixes, and `C` is of an event after a prefix.
variable {ε : Type} {events : List ε} {I P : List ε → Prop} {C : List ε → ε → Prop}

/-- **The rule for invariants.** -/
theorem invariant_of_steps (hnil : I [])
    (hstep : ∀ before e, before ++ [e] <+: events → I before → C before e → I (before ++ [e]))
    (h : ∀ before e, before ++ [e] <+: events → I before → C before e) : ∀ before, before <+: events → I before := by
  intro before
  induction before using List.reverseRecOn with
  | nil => exact fun _ => hnil
  | append_singleton before e ih =>
    intro hpre
    have hbefore := ih ((List.prefix_append before [e]).trans hpre)
    exact hstep before e hpre hbefore (h before e hpre hbefore)

/-- **The rule for exact conditions.** The condition of an event follows from the property after it, as far as the
invariant holds before. -/
theorem property_iff_steps (hnil : I [])
    (hstep : ∀ before e, before ++ [e] <+: events → I before → C before e → I (before ++ [e]))
    (hproperty : ∀ before, before <+: events → I before → P before)
    (hcondition : ∀ before e, before ++ [e] <+: events → I before → P (before ++ [e]) → C before e) :
    (∀ before, before <+: events → P before) ↔ ∀ before e, before ++ [e] <+: events → C before e := by
  constructor
  · intro hall before e hpre
    have hmet : ∀ before e, before ++ [e] <+: events → I before → C before e :=
      fun before e hpre hbefore => hcondition before e hpre hbefore (hall _ hpre)
    have hbefore := invariant_of_steps hnil hstep hmet before ((List.prefix_append before [e]).trans hpre)
    exact hmet before e hpre hbefore
  · intro hmet before hpre
    exact hproperty before hpre (invariant_of_steps hnil hstep (fun before e hpre _ => hmet before e hpre) before hpre)

end PumpSwapBot.Library.Prefixes
