import PumpSwapBot.Sdk.Wakeups
import Mathlib.Algebra.Order.BigOperators.Group.List

/-!
# The fee table under concurrent writers

The table of fees (`common/gas_fee_strategy.rs`) is shared: every clone of a `GasFeeStrategy` writes
the same map. A call of it is not one write but several, each atomic by itself (`rcu`): a normal entry
is written by removing the two others and then inserting it.

## The model

A call is the list of its atomic edits (`FeeCall.edits`). Writers are parties of one machine
(`Library.Machine`), whose step is one edit of one writer. `GasFeeStrategy.set` and
`setGlobalFeeStrategy` of `Sdk.Swqos` are these calls run alone (`set_eq_run`,
`setGlobalFeeStrategy_eq_run`).

## What is proved

`Exclusive` says that no channel has a normal entry beside one of the others. A single writer keeps
it; for several, `exclusive_of_ordered` says under which condition on their interleaving they do, and
`exclusive_lost` that without it there is a way on to a table that is not exclusive.
-/

namespace PumpSwapBot.Sdk

open PumpSwapBot.Library

/-! ### Edits and calls -/

/-- One atomic change of the table. -/
inductive Edit where
  | del (s : SwqosType) (t : TradeType) (k : GasFeeStrategyType)
  | delAll (s : SwqosType) (t : TradeType)
  | insert (s : SwqosType) (t : TradeType) (k : GasFeeStrategyType) (v : GasFeeStrategyValue)
  | clear
  | updateTip (t : TradeType) (tip : ℚ)
  | updateCuPrice (t : TradeType) (cuPrice : UInt64)

namespace GasFeeStrategy

/-- Remove the entries of a channel for a kind of trade. -/
def delAll (g : GasFeeStrategy) (s : SwqosType) (t : TradeType) : GasFeeStrategy :=
  fun s' t' k' => if s' = s ∧ t' = t then none else g s' t' k'

/-- Write an entry and leave the others. -/
def insert (g : GasFeeStrategy) (s : SwqosType) (t : TradeType) (k : GasFeeStrategyType) (v : GasFeeStrategyValue) :
    GasFeeStrategy :=
  fun s' t' k' => if s' = s ∧ t' = t ∧ k' = k then some v else g s' t' k'

/-- Change all entries of a kind of trade. -/
def update (g : GasFeeStrategy) (t : TradeType) (f : GasFeeStrategyValue → GasFeeStrategyValue) : GasFeeStrategy :=
  fun s' t' k' => if t' = t then (g s' t' k').map f else g s' t' k'

end GasFeeStrategy

/-- What an edit makes of the table. -/
def Edit.apply (g : GasFeeStrategy) : Edit → GasFeeStrategy
  | .del s t k => g.del s t k
  | .delAll s t => g.delAll s t
  | .insert s t k v => g.insert s t k v
  | .clear => .new
  | .updateTip t tip => g.update t fun v => { v with tip := tip }
  | .updateCuPrice t cuPrice => g.update t fun v => { v with cuPrice := cuPrice }

/-- The edits of `set`: the entries the new one excludes are removed first. -/
def setEdits (s : SwqosType) (t : TradeType) (k : GasFeeStrategyType) (cuLimit : UInt32) (cuPrice : UInt64) (tip : ℚ) :
    List Edit :=
  (if k = .normal then [.del s t .highTipLowCuPrice, .del s t .lowTipHighCuPrice] else [.del s t .normal])
    ++ [.insert s t k ⟨cuLimit, cuPrice, tip⟩]

/-- The edits of `set_high_low_fee_strategies` for one channel. -/
def highLowEdits (t : TradeType) (cuLimit : UInt32) (lowCuPrice highCuPrice : UInt64) (lowTip highTip : ℚ) (s : SwqosType) :
    List Edit :=
  [.del s t .normal] ++ setEdits s t .lowTipHighCuPrice cuLimit highCuPrice lowTip
    ++ setEdits s t .highTipLowCuPrice cuLimit lowCuPrice highTip

/-- The edits of `set_normal_fee_strategies` for one channel. -/
def normalEdits (cuLimit : UInt32) (cuPrice : UInt64) (buyTip sellTip : ℚ) (s : SwqosType) : List Edit :=
  [.delAll s .buy, .delAll s .sell] ++ setEdits s .buy .normal cuLimit cuPrice buyTip
    ++ setEdits s .sell .normal cuLimit cuPrice sellTip

/-- The calls that change the table. -/
inductive FeeCall where
  | set (s : SwqosType) (t : TradeType) (k : GasFeeStrategyType) (cuLimit : UInt32) (cuPrice : UInt64) (tip : ℚ)
  | setGlobalFeeStrategy (buyCuLimit sellCuLimit : UInt32) (buyCuPrice sellCuPrice : UInt64) (buyTip sellTip : ℚ)
  | setHighLowFeeStrategies (ss : List SwqosType) (t : TradeType) (cuLimit : UInt32) (lowCuPrice highCuPrice : UInt64)
      (lowTip highTip : ℚ)
  | setHighLowFeeStrategy (s : SwqosType) (t : TradeType) (cuLimit : UInt32) (lowCuPrice highCuPrice : UInt64)
      (lowTip highTip : ℚ)
  | setNormalFeeStrategies (ss : List SwqosType) (cuLimit : UInt32) (cuPrice : UInt64) (buyTip sellTip : ℚ)
  | setNormalFeeStrategy (s : SwqosType) (cuLimit : UInt32) (cuPrice : UInt64) (buyTip sellTip : ℚ)
  | delAll (s : SwqosType) (t : TradeType)
  | del (s : SwqosType) (t : TradeType) (k : GasFeeStrategyType)
  | clear
  | updateBuyTip (tip : ℚ)
  | updateSellTip (tip : ℚ)
  | updateBuyCuPrice (cuPrice : UInt64)
  | updateSellCuPrice (cuPrice : UInt64)

/-- The edits of a call, in their order. The plain RPC has no high and low entries, unless it is in a list of channels. -/
def FeeCall.edits : FeeCall → List Edit
  | .set s t k cuLimit cuPrice tip => setEdits s t k cuLimit cuPrice tip
  | .setGlobalFeeStrategy buyCuLimit sellCuLimit buyCuPrice sellCuPrice buyTip sellTip =>
    ((SwqosType.values.filter (· ≠ .default)).flatMap fun s =>
      setEdits s .buy .normal buyCuLimit buyCuPrice buyTip ++ setEdits s .sell .normal sellCuLimit sellCuPrice sellTip)
      ++ setEdits .default .buy .normal buyCuLimit buyCuPrice 0
      ++ setEdits .default .sell .normal sellCuLimit sellCuPrice 0
  | .setHighLowFeeStrategies ss t cuLimit lowCuPrice highCuPrice lowTip highTip =>
    ss.flatMap (highLowEdits t cuLimit lowCuPrice highCuPrice lowTip highTip)
  | .setHighLowFeeStrategy s t cuLimit lowCuPrice highCuPrice lowTip highTip =>
    if s = .default then [] else highLowEdits t cuLimit lowCuPrice highCuPrice lowTip highTip s
  | .setNormalFeeStrategies ss cuLimit cuPrice buyTip sellTip => ss.flatMap (normalEdits cuLimit cuPrice buyTip sellTip)
  | .setNormalFeeStrategy s cuLimit cuPrice buyTip sellTip => normalEdits cuLimit cuPrice buyTip sellTip s
  | .delAll s t => [.delAll s t]
  | .del s t k => [.del s t k]
  | .clear => [.clear]
  | .updateBuyTip tip => [.updateTip .buy tip]
  | .updateSellTip tip => [.updateTip .sell tip]
  | .updateBuyCuPrice cuPrice => [.updateCuPrice .buy cuPrice]
  | .updateSellCuPrice cuPrice => [.updateCuPrice .sell cuPrice]

/-- Edits one after the other. -/
def runEdits (g : GasFeeStrategy) (es : List Edit) : GasFeeStrategy := es.foldl Edit.apply g

/-- A call alone. -/
def FeeCall.run (g : GasFeeStrategy) (c : FeeCall) : GasFeeStrategy := runEdits g c.edits

theorem runEdits_append (g : GasFeeStrategy) (es es' : List Edit) : runEdits g (es ++ es') = runEdits (runEdits g es) es' :=
  List.foldl_append

theorem set_eq_run (g : GasFeeStrategy) (s : SwqosType) (t : TradeType) (k : GasFeeStrategyType) (cuLimit : UInt32)
    (cuPrice : UInt64) (tip : ℚ) : g.set s t k cuLimit cuPrice tip = runEdits g (setEdits s t k cuLimit cuPrice tip) := by
  unfold setEdits
  split_ifs with hk
  · simp only [GasFeeStrategy.set, if_pos hk]
    rfl
  · simp only [GasFeeStrategy.set, if_neg hk]
    rfl

theorem setGlobalFeeStrategy_eq_run (g : GasFeeStrategy) (bl sl : UInt32) (bp sp : UInt64) (bt st : ℚ) :
    g.setGlobalFeeStrategy bl sl bp sp bt st = (FeeCall.setGlobalFeeStrategy bl sl bp sp bt st).run g := by
  have hfold : ∀ (ss : List SwqosType) (g : GasFeeStrategy), ss.foldl (fun g s =>
      (g.set s .buy .normal bl bp bt).set s .sell .normal sl sp st) g =
      runEdits g (ss.flatMap fun s => setEdits s .buy .normal bl bp bt ++ setEdits s .sell .normal sl sp st) := by
    intro ss
    induction ss with
    | nil => exact fun _ => rfl
    | cons s ss ih =>
      intro g
      rw [List.foldl_cons, ih, List.flatMap_cons, runEdits_append, runEdits_append, ← set_eq_run, ← set_eq_run]
  simp only [GasFeeStrategy.setGlobalFeeStrategy, FeeCall.run, FeeCall.edits, runEdits_append, ← set_eq_run, hfold]

/-! ### Tables without excluded entries -/

/-- A normal entry and one of the others exclude each other. -/
def Opposed (k k' : GasFeeStrategyType) : Prop := k = .normal ∧ k' ≠ .normal ∨ k ≠ .normal ∧ k' = .normal

theorem Opposed.symm {k k' : GasFeeStrategyType} (h : Opposed k k') : Opposed k' k := by
  rcases h with ⟨h₁, h₂⟩ | ⟨h₁, h₂⟩
  · exact .inr ⟨h₂, h₁⟩
  · exact .inl ⟨h₂, h₁⟩

/-- No channel has entries that exclude each other. -/
def Exclusive (g : GasFeeStrategy) : Prop := ∀ s t k k', Opposed k k' → g s t k ≠ none → g s t k' = none

/-- The edit inserts no entry beside one it excludes. -/
def Edit.Ready (g : GasFeeStrategy) : Edit → Prop
  | .insert s t k _ => ∀ k', Opposed k k' → g s t k' = none
  | _ => True

/-- The edit removes an entry. -/
def Edit.Deletes (s : SwqosType) (t : TradeType) (k : GasFeeStrategyType) : Edit → Prop
  | .del s' t' k' => s' = s ∧ t' = t ∧ k' = k
  | .delAll s' t' => s' = s ∧ t' = t
  | .clear => True
  | _ => False

/-- Each of the edits is ready when it is run after those before it. -/
def Safe (g : GasFeeStrategy) : List Edit → Prop
  | [] => True
  | e :: es => e.Ready g ∧ Safe (e.apply g) es

theorem safe_append (g : GasFeeStrategy) (es es' : List Edit) :
    Safe g (es ++ es') ↔ Safe g es ∧ Safe (runEdits g es) es' := by
  induction es generalizing g with
  | nil => simp [Safe, runEdits]
  | cons e es ih => simp [Safe, ih, runEdits, and_assoc]

theorem safe_flatMap {ι : Type} {f : ι → List Edit} (h : ∀ i g, Safe g (f i)) (is : List ι) (g : GasFeeStrategy) :
    Safe g (is.flatMap f) := by
  induction is generalizing g with
  | nil => trivial
  | cons i is ih =>
    rw [List.flatMap_cons, safe_append]
    exact ⟨h i g, ih _⟩

/-- `set` removes what its entry excludes. -/
theorem safe_setEdits (g : GasFeeStrategy) (s : SwqosType) (t : TradeType) (k : GasFeeStrategyType) (cuLimit : UInt32)
    (cuPrice : UInt64) (tip : ℚ) : Safe g (setEdits s t k cuLimit cuPrice tip) := by
  unfold setEdits
  split_ifs with hk
  · subst hk
    refine ⟨trivial, trivial, ?_, trivial⟩
    rintro k' (⟨-, hk'⟩ | ⟨hk, -⟩)
    · rcases k' with _ | _ | _
      · exact absurd rfl hk'
      · simp [Edit.apply, GasFeeStrategy.del]
      · simp [Edit.apply, GasFeeStrategy.del]
    · exact absurd rfl hk
  · refine ⟨trivial, ?_, trivial⟩
    rintro k' (⟨hk', -⟩ | ⟨-, rfl⟩)
    · exact absurd hk' hk
    · simp [Edit.apply, GasFeeStrategy.del]

/-- Every call, run alone, is safe on every table. -/
theorem safe_edits (g : GasFeeStrategy) (c : FeeCall) : Safe g c.edits := by
  have hlow : ∀ t l p p' x x' s g, Safe g (highLowEdits t l p p' x x' s) := by
    intro t l p p' x x' s g
    unfold highLowEdits
    rw [safe_append, safe_append]
    exact ⟨⟨⟨trivial, trivial⟩, safe_setEdits _ _ _ _ _ _ _⟩, safe_setEdits _ _ _ _ _ _ _⟩
  have hnormal : ∀ l p x x' s g, Safe g (normalEdits l p x x' s) := by
    intro l p x x' s g
    unfold normalEdits
    rw [safe_append, safe_append]
    exact ⟨⟨⟨trivial, trivial, trivial⟩, safe_setEdits _ _ _ _ _ _ _⟩, safe_setEdits _ _ _ _ _ _ _⟩
  cases c with
  | set s t k cuLimit cuPrice tip => exact safe_setEdits g s t k cuLimit cuPrice tip
  | setGlobalFeeStrategy bl sl bp sp bt st =>
    simp only [FeeCall.edits]
    rw [safe_append, safe_append]
    refine ⟨⟨safe_flatMap (fun s g => ?_) _ g, safe_setEdits _ _ _ _ _ _ _⟩, safe_setEdits _ _ _ _ _ _ _⟩
    rw [safe_append]
    exact ⟨safe_setEdits _ _ _ _ _ _ _, safe_setEdits _ _ _ _ _ _ _⟩
  | setHighLowFeeStrategies ss t l p p' x x' => exact safe_flatMap (fun s g => hlow t l p p' x x' s g) ss g
  | setHighLowFeeStrategy s t l p p' x x' =>
    simp only [FeeCall.edits]
    split_ifs
    · trivial
    · exact hlow t l p p' x x' s g
  | setNormalFeeStrategies ss l p x x' => exact safe_flatMap (fun s g => hnormal l p x x' s g) ss g
  | setNormalFeeStrategy s l p x x' => exact hnormal l p x x' s g
  | delAll s t => exact ⟨trivial, trivial⟩
  | del s t k => exact ⟨trivial, trivial⟩
  | clear => exact ⟨trivial, trivial⟩
  | updateBuyTip tip => exact ⟨trivial, trivial⟩
  | updateSellTip tip => exact ⟨trivial, trivial⟩
  | updateBuyCuPrice cuPrice => exact ⟨trivial, trivial⟩
  | updateSellCuPrice cuPrice => exact ⟨trivial, trivial⟩

/-! ### What an edit does to the entries -/

section Entries

variable {g g' : GasFeeStrategy} {s s' : SwqosType} {t t' : TradeType} {k k' : GasFeeStrategyType}

/-- The entries of a table after an edit that inserts nothing were there before. -/
theorem apply_eq_none {e : Edit} (hinsert : ∀ v, e ≠ .insert s t k v) (h : g s t k = none) : e.apply g s t k = none := by
  cases e with
  | del s₁ t₁ k₁ => simp [Edit.apply, GasFeeStrategy.del, h]
  | delAll s₁ t₁ => simp [Edit.apply, GasFeeStrategy.delAll, h]
  | insert s₁ t₁ k₁ v =>
    have hne : ¬ (s = s₁ ∧ t = t₁ ∧ k = k₁) := by
      rintro ⟨rfl, rfl, rfl⟩
      exact hinsert v rfl
    simp [Edit.apply, GasFeeStrategy.insert, hne, h]
  | clear => rfl
  | updateTip t₁ tip => simp [Edit.apply, GasFeeStrategy.update, h]
  | updateCuPrice t₁ cuPrice => simp [Edit.apply, GasFeeStrategy.update, h]

theorem apply_of_deletes {e : Edit} (h : e.Deletes s t k) : e.apply g s t k = none := by
  cases e with
  | del s₁ t₁ k₁ =>
    obtain ⟨rfl, rfl, rfl⟩ := h
    simp [Edit.apply, GasFeeStrategy.del]
  | delAll s₁ t₁ =>
    obtain ⟨rfl, rfl⟩ := h
    simp [Edit.apply, GasFeeStrategy.delAll]
  | clear => rfl
  | insert s₁ t₁ k₁ v => exact h.elim
  | updateTip t₁ tip => exact h.elim
  | updateCuPrice t₁ cuPrice => exact h.elim

theorem apply_ne_none {e : Edit} (hdel : ¬ e.Deletes s t k) (h : g s t k ≠ none) : e.apply g s t k ≠ none := by
  cases e with
  | del s₁ t₁ k₁ =>
    have hne : ¬ (s = s₁ ∧ t = t₁ ∧ k = k₁) := by
      rintro ⟨rfl, rfl, rfl⟩
      exact hdel ⟨rfl, rfl, rfl⟩
    simpa [Edit.apply, GasFeeStrategy.del, hne] using h
  | delAll s₁ t₁ =>
    have hne : ¬ (s = s₁ ∧ t = t₁) := by
      rintro ⟨rfl, rfl⟩
      exact hdel ⟨rfl, rfl⟩
    simpa [Edit.apply, GasFeeStrategy.delAll, hne] using h
  | insert s₁ t₁ k₁ v =>
    simp only [Edit.apply, GasFeeStrategy.insert]
    split_ifs
    · simp
    · exact h
  | clear => exact absurd trivial hdel
  | updateTip t₁ tip =>
    simp only [Edit.apply, GasFeeStrategy.update]
    split_ifs <;> simpa using h
  | updateCuPrice t₁ cuPrice =>
    simp only [Edit.apply, GasFeeStrategy.update]
    split_ifs <;> simpa using h

/-- An edit that is ready keeps the table free of excluded entries. -/
theorem exclusive_apply {e : Edit} (h : Exclusive g) (hready : e.Ready g) : Exclusive (e.apply g) := by
  intro s t k k' hk hsome
  by_cases hinsert : ∃ v, e = .insert s t k v
  · obtain ⟨v, rfl⟩ := hinsert
    refine apply_eq_none ?_ (hready k' hk)
    rintro v' heq
    cases heq
    rcases hk with ⟨h₁, h₂⟩ | ⟨h₁, h₂⟩
    · exact h₂ h₁
    · exact h₁ h₂
  · have hold : g s t k ≠ none := fun hnone => hsome (apply_eq_none (fun v hv => hinsert ⟨v, hv⟩) hnone)
    have hnone := h s t k k' hk hold
    by_cases hinsert' : ∃ v, e = .insert s t k' v
    · obtain ⟨v, rfl⟩ := hinsert'
      exact absurd (hready k hk.symm) hold
    · exact apply_eq_none (fun v hv => hinsert' ⟨v, hv⟩) hnone

end Entries

/-! ### Writers -/

/-- The table and what is left of the call of each writer. -/
structure FeeState where
  table : GasFeeStrategy
  writers : ℕ → List Edit

/-- A writer begins a call, or makes its next edit. -/
inductive FeeAction where
  | call (w : ℕ) (c : FeeCall)
  | edit (w : ℕ)

namespace FeeState

/-- The empty table, and no call. -/
def init : FeeState := ⟨.new, fun _ => []⟩

/-- One action. -/
def step (s : FeeState) : FeeAction → Option FeeState
  | .call w c => match s.writers w with
    | [] => some { s with writers := Function.update s.writers w c.edits }
    | _ :: _ => none
  | .edit w => match s.writers w with
    | [] => none
    | e :: es => some ⟨e.apply s.table, Function.update s.writers w es⟩

theorem step_call {s s' : FeeState} {w : ℕ} {c : FeeCall} (h : s.step (.call w c) = some s') :
    s' = { s with writers := Function.update s.writers w c.edits } := by
  simp only [step] at h
  split at h
  · cases h
    rfl
  · cases h

theorem step_edit {s s' : FeeState} {w : ℕ} (h : s.step (.edit w) = some s') :
    ∃ e es, s.writers w = e :: es ∧ s' = ⟨e.apply s.table, Function.update s.writers w es⟩ := by
  simp only [step] at h
  split at h
  · cases h
  next e es hw =>
    cases h
    exact ⟨e, es, hw, rfl⟩

end FeeState

/-- Before an entry that `k` excludes is inserted, an edit removes `k`. -/
def Awaits (s : SwqosType) (t : TradeType) (k : GasFeeStrategyType) : List Edit → Prop
  | [] => True
  | e :: es => e.Deletes s t k ∨ (∀ k' v, e = .insert s t k' v → ¬ Opposed k k') ∧ Awaits s t k es

/-- Every entry of the second table, up to one, is in the first. -/
def FewerBut (s : SwqosType) (t : TradeType) (k : GasFeeStrategyType) (g g' : GasFeeStrategy) : Prop :=
  ∀ s' t' k', ¬ (s' = s ∧ t' = t ∧ k' = k) → g s' t' k' = none → g' s' t' k' = none

/-- Every entry of the second table is in the first. -/
def Fewer (g g' : GasFeeStrategy) : Prop := ∀ s t k, g s t k = none → g' s t k = none

section Others

variable {g g' : GasFeeStrategy} {s : SwqosType} {t : TradeType} {k : GasFeeStrategyType}

/-- The same edit of two tables, at an entry that is in neither. -/
theorem apply_eq_none_of {e : Edit} (hold : g s t k = none → g' s t k = none) (h : e.apply g s t k = none) :
    e.apply g' s t k = none := by
  by_cases hdel : e.Deletes s t k
  · exact apply_of_deletes hdel
  · have hnone : g s t k = none := by
      by_contra hsome
      exact apply_ne_none hdel hsome h
    refine apply_eq_none ?_ (hold hnone)
    rintro v rfl
    simp [Edit.apply, GasFeeStrategy.insert] at h

theorem Fewer.safe (h : Fewer g g') {es : List Edit} (hsafe : Safe g es) : Safe g' es := by
  induction es generalizing g g' with
  | nil => trivial
  | cons e es ih =>
    refine ⟨?_, ih (fun s t k => apply_eq_none_of (h s t k)) hsafe.2⟩
    have hready := hsafe.1
    cases e with
    | insert s t k v => exact fun k' hk' => h s t k' (hready k' hk')
    | del s t k => trivial
    | delAll s t => trivial
    | clear => trivial
    | updateTip t tip => trivial
    | updateCuPrice t cuPrice => trivial

/-- A writer that will remove the entry before it inserts one that excludes it does not mind the entry. -/
theorem FewerBut.safe (h : FewerBut s t k g g') {es : List Edit} (hawaits : Awaits s t k es) (hsafe : Safe g es) :
    Safe g' es := by
  induction es generalizing g g' with
  | nil => trivial
  | cons e es ih =>
    have hready : e.Ready g' := by
      have hready := hsafe.1
      cases e with
      | insert s₁ t₁ k₁ v =>
        intro k' hk'
        refine h s₁ t₁ k' ?_ (hready k' hk')
        rintro ⟨rfl, rfl, rfl⟩
        rcases hawaits with hdel | ⟨hno, -⟩
        · exact hdel
        · exact hno k₁ v rfl hk'.symm
      | del s t k => trivial
      | delAll s t => trivial
      | clear => trivial
      | updateTip t tip => trivial
      | updateCuPrice t cuPrice => trivial
    refine ⟨hready, ?_⟩
    rcases hawaits with hdel | ⟨-, hrest⟩
    · -- The entry is gone, and the tables agree from here on.
      refine Fewer.safe ?_ hsafe.2
      intro s₁ t₁ k₁ hnone
      by_cases heq : s₁ = s ∧ t₁ = t ∧ k₁ = k
      · obtain ⟨rfl, rfl, rfl⟩ := heq
        exact apply_of_deletes hdel
      · exact apply_eq_none_of (h s₁ t₁ k₁ heq) hnone
    · exact ih (fun s₁ t₁ k₁ heq => apply_eq_none_of (h s₁ t₁ k₁ heq)) hrest hsafe.2

/-- Another writer's edit, if it does not come between a removal and an insertion. -/
theorem safe_apply {e : Edit} {es : List Edit} (hsafe : Safe g es)
    (h : ∀ s t k v, e = .insert s t k v → Awaits s t k es) : Safe (e.apply g) es := by
  by_cases hinsert : ∃ s t k v, e = .insert s t k v
  · obtain ⟨s, t, k, v, rfl⟩ := hinsert
    refine FewerBut.safe (s := s) (t := t) (k := k) ?_ (h s t k v rfl) hsafe
    intro s' t' k' hne hnone
    simp [Edit.apply, GasFeeStrategy.insert, hne, hnone]
  · refine Fewer.safe ?_ hsafe
    intro s t k hnone
    exact apply_eq_none (fun v hv => hinsert ⟨s, t, k, v, hv⟩) hnone

end Others

namespace FeeState

/-- When a writer inserts an entry, no other writer is between removing that entry and inserting one it excludes. -/
def Ordered (s : FeeState) (a : FeeAction) : Prop :=
  ∀ w e es, a = .edit w → s.writers w = e :: es → ∀ c t k v, e = .insert c t k v →
    ∀ w', w' ≠ w → Awaits c t k (s.writers w')

/-- The table has no excluded entries, and every writer's call would keep it so alone. -/
def Inv (s : FeeState) : Prop := Exclusive s.table ∧ ∀ w, Safe s.table (s.writers w)

theorem inv_step {s s' : FeeState} {a : FeeAction} (h : s.Inv) (hordered : s.Ordered a) (hstep : s.step a = some s') :
    s'.Inv := by
  obtain ⟨hexclusive, hsafe⟩ := h
  cases a with
  | call w c =>
    rw [step_call hstep]
    refine ⟨hexclusive, fun w' => ?_⟩
    by_cases hw : w' = w
    · subst hw
      simpa using safe_edits s.table c
    · simpa [hw] using hsafe w'
  | edit w =>
    obtain ⟨e, es, hw, rfl⟩ := step_edit hstep
    have hhead := hsafe w
    rw [hw] at hhead
    refine ⟨exclusive_apply hexclusive hhead.1, fun w' => ?_⟩
    by_cases hw' : w' = w
    · subst hw'
      simpa using hhead.2
    · simpa [hw'] using safe_apply (hsafe w') fun c t k v he => hordered w e es rfl hw c t k v he w' hw'

/-- **Writers that do not get between each other's removals and insertions keep the table exclusive**, in every state of
every interleaving of their calls. -/
theorem exclusive_of_ordered {s : FeeState} {as : List FeeAction} (hordered : Machine.Along step Ordered init as)
    (hrun : Machine.run step init as = some s) : Exclusive s.table := by
  have hinit : init.Inv := ⟨fun s t k k' _ h => absurd rfl h, fun _ => trivial⟩
  exact (Machine.invariant_along (fun s a s' h => inv_step h) hinit hordered hrun).1

theorem run_edits {s : FeeState} {w : ℕ} {pre post : List Edit} (hw : s.writers w = pre ++ post) :
    Machine.run step s (List.replicate pre.length (.edit w)) =
      some ⟨runEdits s.table pre, Function.update s.writers w post⟩ := by
  induction pre generalizing s with
  | nil =>
    rw [List.nil_append] at hw
    simp [runEdits, ← hw]
  | cons e es ih =>
    rw [List.length_cons, List.replicate_succ]
    refine Machine.run_cons.mpr ⟨⟨e.apply s.table, Function.update s.writers w (es ++ post)⟩, ?_, ?_⟩
    · simp [step, hw]
    · rw [ih (by simp)]
      simp [runEdits]

theorem exists_of_not_awaits {c : SwqosType} {t : TradeType} {k : GasFeeStrategyType} {es : List Edit}
    (h : ¬ Awaits c t k es) :
    ∃ pre k' v post, es = pre ++ .insert c t k' v :: post ∧ Opposed k k' ∧ ∀ e ∈ pre, ¬ e.Deletes c t k := by
  induction es with
  | nil => exact absurd trivial h
  | cons e es ih =>
    obtain ⟨hdel, hrest⟩ := not_or.mp h
    by_cases hinsert : ∃ k' v, e = .insert c t k' v ∧ Opposed k k'
    · obtain ⟨k', v, rfl, hk⟩ := hinsert
      exact ⟨[], k', v, es, rfl, hk, by simp⟩
    · have hno : ∀ k' v, e = .insert c t k' v → ¬ Opposed k k' := fun k' v he hk => hinsert ⟨k', v, he, hk⟩
      obtain ⟨pre, k', v, post, rfl, hk, hpre⟩ := ih fun hawaits => hrest ⟨hno, hawaits⟩
      refine ⟨e :: pre, k', v, post, rfl, hk, ?_⟩
      intro e' he'
      rcases List.mem_cons.mp he' with rfl | hmem
      · exact hdel
      · exact hpre e' hmem

theorem runEdits_ne_none {g : GasFeeStrategy} {c : SwqosType} {t : TradeType} {k : GasFeeStrategyType} {es : List Edit}
    (hes : ∀ e ∈ es, ¬ e.Deletes c t k) (h : g c t k ≠ none) : runEdits g es c t k ≠ none := by
  induction es generalizing g with
  | nil => exact h
  | cons e es ih =>
    exact ih (fun e' he' => hes e' (List.mem_cons_of_mem _ he')) (apply_ne_none (hes e List.mem_cons_self) h)

/-- **The condition is needed:** wherever a writer's insertion comes between another's removal of that entry and the
insertion of one it excludes, the other writer can go on to a table with both entries. -/
theorem exclusive_lost {s : FeeState} {w w' : ℕ} {c : SwqosType} {t : TradeType} {k : GasFeeStrategyType}
    {v : GasFeeStrategyValue} {es : List Edit} (hw : s.writers w = .insert c t k v :: es) (hne : w' ≠ w)
    (hbetween : ¬ Awaits c t k (s.writers w')) :
    ∃ n s' k', Machine.run step s (.edit w :: List.replicate n (.edit w')) = some s' ∧ Opposed k k' ∧
      s'.table c t k ≠ none ∧ s'.table c t k' ≠ none ∧ ¬ Exclusive s'.table := by
  obtain ⟨pre, k', v', post, hpre, hk, hnodel⟩ := exists_of_not_awaits hbetween
  set s₁ : FeeState := ⟨(Edit.insert c t k v).apply s.table, Function.update s.writers w es⟩ with hs₁
  have hwriter : s₁.writers w' = (pre ++ [.insert c t k' v']) ++ post := by
    rw [hs₁]
    simp [hne, hpre]
  have hneq : k ≠ k' := by
    rintro rfl
    rcases hk with ⟨h₁, h₂⟩ | ⟨h₁, h₂⟩
    · exact h₂ h₁
    · exact h₁ h₂
  have hkept : runEdits s₁.table pre c t k ≠ none :=
    runEdits_ne_none hnodel (by simp [hs₁, Edit.apply, GasFeeStrategy.insert])
  have hfirst : runEdits s₁.table (pre ++ [.insert c t k' v']) c t k ≠ none := by
    rw [runEdits_append]
    simpa [runEdits, Edit.apply, GasFeeStrategy.insert, hneq] using hkept
  have hsecond : runEdits s₁.table (pre ++ [.insert c t k' v']) c t k' ≠ none := by
    rw [runEdits_append]
    simp [runEdits, Edit.apply, GasFeeStrategy.insert]
  exact ⟨(pre ++ [Edit.insert c t k' v']).length, _, k',
    Machine.run_cons.mpr ⟨s₁, by simp [step, hw, hs₁], run_edits hwriter⟩, hk, hfirst, hsecond,
    fun hexclusive => hsecond (hexclusive c t k k' hk hfirst)⟩

/-- One writer sets a normal entry and is about to insert it, another has begun to set one that excludes it. -/
def crossingRun : List FeeAction :=
  [.call 0 (.set .jito .buy .normal 150000 500000 0), .edit 0, .edit 0,
   .call 1 (.set .jito .buy .highTipLowCuPrice 150000 100 1), .edit 1]

theorem exclusive_lost_crossingRun : ∃ s n s' k', Machine.run step init crossingRun = some s ∧
    Machine.run step s (.edit 0 :: List.replicate n (.edit 1)) = some s' ∧ Opposed .normal k' ∧
      s'.table .jito .buy .normal ≠ none ∧ s'.table .jito .buy k' ≠ none ∧ ¬ Exclusive s'.table := by
  have hwriter : ((Machine.run step init crossingRun).get rfl).writers 0 =
      [.insert .jito .buy .normal ⟨150000, 500000, 0⟩] := rfl
  have hbetween : ¬ Awaits .jito .buy .normal (((Machine.run step init crossingRun).get rfl).writers 1) := by
    rintro (hdel | ⟨hno, -⟩)
    · exact hdel
    · exact hno .highTipLowCuPrice ⟨150000, 100, 1⟩ rfl (.inl ⟨rfl, by decide⟩)
  obtain ⟨n, s', k', hrun, hlost⟩ := exclusive_lost hwriter (by decide) hbetween
  exact ⟨_, n, s', k', rfl, hrun, hlost⟩

theorem exclusive_of_ordered_alone : ∃ s, Machine.run step init (crossingRun.take 3 ++ [.edit 0]) = some s ∧
    s.table .jito .buy .normal = some ⟨150000, 500000, 0⟩ ∧ Exclusive s.table := by
  refine ⟨_, rfl, rfl, exclusive_of_ordered ?_
    (show Machine.run step init (crossingRun.take 3 ++ [.edit 0]) = some _ from rfl)⟩
  have hcall : ∀ s w c, Ordered s (.call w c) := fun s w c w' e es ha => by cases ha
  have hdel : ∀ (s : FeeState) c t k es, s.writers 0 = .del c t k :: es → s.Ordered (.edit 0) := by
    rintro s c t k es hs w e es' ha hw c' t' k' v rfl
    cases ha
    rw [hs] at hw
    cases hw
  refine ⟨hcall _ _ _, fun s₁ h₁ => ?_⟩
  cases h₁
  refine ⟨hdel _ _ _ _ _ rfl, fun s₂ h₂ => ?_⟩
  cases h₂
  refine ⟨hdel _ _ _ _ _ rfl, fun s₃ h₃ => ?_⟩
  cases h₃
  refine ⟨?_, fun _ _ => trivial⟩
  rintro w e es ha - c t k v - w' hw'
  cases ha
  simp [init, hw', Awaits]

end FeeState

/-! ### The tasks of a trade -/

theorem exclusive_runEdits {g : GasFeeStrategy} {es : List Edit} (h : Exclusive g) (hsafe : Safe g es) :
    Exclusive (runEdits g es) := by
  induction es generalizing g with
  | nil => exact h
  | cons e es ih => exact ih (exclusive_apply h hsafe.1) hsafe.2

/-- The table after some calls, one after the other. -/
theorem exclusive_calls (calls : List FeeCall) : Exclusive (calls.foldl FeeCall.run .new) := by
  induction calls using List.reverseRecOn with
  | nil => exact fun s t k k' _ h => absurd rfl h
  | append_singleton calls c ih =>
    rw [List.foldl_append]
    exact exclusive_runEdits ih (safe_edits _ c)

theorem entries_length_le {g : GasFeeStrategy} (h : Exclusive g) (s : SwqosType) (t : TradeType) : (g.entries s t).length ≤ 2 := by
  have hlow := h s t .normal .lowTipHighCuPrice (.inl ⟨rfl, by decide⟩)
  have hhigh := h s t .normal .highTipLowCuPrice (.inl ⟨rfl, by decide⟩)
  simp only [GasFeeStrategy.entries, GasFeeStrategyType.values]
  rcases hn : g s t .normal with _ | v
  · rcases hl : g s t .lowTipHighCuPrice with _ | l <;> rcases hh : g s t .highTipLowCuPrice with _ | u <;> simp [hn, hl, hh]
  · simp [hn, hlow (by simp [hn]), hhigh (by simp [hn])]

/-- The tasks of a channel are of its entries in the table, each once. -/
theorem clientTasks_sublist (g : GasFeeStrategy) (t : TradeType) (withTip checkMinTip : Bool) (i : ℕ) (client : SwqosClient) :
    (clientTasks (g.getStrategies t) withTip checkMinTip i client).Sublist
      ((g.entries client.swqosType t).map fun c => { index := i, client, config := c }) := by
  unfold clientTasks
  split_ifs
  · exact List.nil_sublist _
  · rw [g.filter_getStrategies]
    exact List.Sublist.map _ List.filter_sublist

theorem mem_clientTasks {g : GasFeeStrategy} {t : TradeType} {withTip checkMinTip : Bool} {i : ℕ} {client : SwqosClient}
    {task : Task} (h : task ∈ clientTasks (g.getStrategies t) withTip checkMinTip i client) :
    task.index = i ∧ task.config ∈ g.entries client.swqosType t := by
  obtain ⟨c, hc, rfl⟩ := List.mem_map.mp ((clientTasks_sublist g t withTip checkMinTip i client).subset h)
  exact ⟨rfl, hc⟩

theorem nodup_entries_kinds (g : GasFeeStrategy) (s : SwqosType) (t : TradeType) :
    ((g.entries s t).map fun c => c.2.1).Nodup := by
  simp only [GasFeeStrategy.entries, GasFeeStrategyType.values]
  rcases hn : g s t .normal with _ | v <;> rcases hl : g s t .lowTipHighCuPrice with _ | l <;>
    rcases hh : g s t .highTipLowCuPrice with _ | u <;> simp [hn, hl, hh]

/-- Among tasks no two of which are for the same channel and kind of entry, those of one channel are at most as many as the
kinds there are for it. -/
theorem countP_index_le {tasks : List Task} (hnodup : (tasks.map fun t => (t.index, t.config.2.1)).Nodup) {i : ℕ}
    (kinds : List GasFeeStrategyType) (h : ∀ t ∈ tasks, t.index = i → t.config.2.1 ∈ kinds) :
    tasks.countP (fun t => t.index = i) ≤ kinds.length := by
  set chosen := tasks.filter fun t => t.index = i with hchosen
  have hindex : ∀ t ∈ chosen, t ∈ tasks ∧ t.index = i := by
    intro t ht
    obtain ⟨htask, hi⟩ := List.mem_filter.mp ht
    exact ⟨htask, of_decide_eq_true hi⟩
  have hpairs : ((chosen.map fun t => t.config.2.1).map fun k => (i, k)).Nodup := by
    have hsub : (chosen.map fun t => (t.index, t.config.2.1)).Nodup := hnodup.sublist (List.filter_sublist.map _)
    rw [List.map_map]
    rwa [List.map_congr_left fun t ht => by rw [(hindex t ht).2]] at hsub
  have hkinds : (chosen.map fun t => t.config.2.1) ⊆ kinds := by
    intro k hk
    obtain ⟨t, ht, rfl⟩ := List.mem_map.mp hk
    exact h t (hindex t ht).1 (hindex t ht).2
  rw [List.countP_eq_length_filter]
  simpa using ((List.Nodup.of_map _ hpairs).subperm hkinds).length_le

/-- **The tasks of a trade whose fees were set by any calls, one after the other.** There are at most two for each channel, none
for the same channel and kind of entry as another, and for a buy without a durable nonce there is exactly one. -/
theorem submitTasks_channels {calls : List FeeCall} {params : SwapParams} {isBuy withTip : Bool} {tasks : List Task}
    (hfees : params.gasFeeStrategy = calls.foldl FeeCall.run .new) (h : submitTasks params isBuy withTip = .ok tasks) :
    (∀ i, tasks.countP (fun t => t.index = i) ≤ 2) ∧ tasks.length ≤ 2 * params.swqosClients.length ∧
      (tasks.map fun t => (t.index, t.config.2.1)).Nodup ∧
      (isBuy = true → params.durableNonce = none → tasks.length = 1) := by
  obtain ⟨_, -, h⟩ := bind_eq_ok.mp h
  obtain ⟨_, -, h⟩ := bind_eq_ok.mp h
  obtain ⟨_, hne, h⟩ := bind_eq_ok.mp h
  obtain ⟨_, hnonce, h⟩ := bind_eq_ok.mp h
  have htasks := Except.ok.inj h
  rw [bailIf_eq_ok] at hne hnonce
  rw [htasks] at hne hnonce
  have hexclusive : Exclusive params.gasFeeStrategy := hfees ▸ exclusive_calls calls
  set g := params.gasFeeStrategy
  set t : TradeType := if isBuy then .buy else .sell
  set f : ℕ → SwqosClient → List Task := fun i c => clientTasks (g.getStrategies t) withTip params.checkMinTip i c with hf
  have hkeys : ∀ i c, ((f i c).map fun t => (t.index, t.config.2.1)).Sublist
      ((g.entries c.swqosType t).map fun x => (i, x.2.1)) := by
    intro i c
    have hsub := (clientTasks_sublist g t withTip params.checkMinTip i c).map fun t => (t.index, t.config.2.1)
    rwa [List.map_map] at hsub
  have hnodup : (tasks.map fun t => (t.index, t.config.2.1)).Nodup := by
    rw [← htasks, List.map_flatten, List.nodup_flatten]
    refine ⟨?_, ?_⟩
    · intro l hl
      obtain ⟨l', hl', rfl⟩ := List.mem_map.mp hl
      obtain ⟨i, hi, rfl⟩ := List.mem_mapIdx.mp hl'
      refine (hkeys i _).nodup ?_
      have hnodup := (nodup_entries_kinds g (params.swqosClients[i]).swqosType t).map (Prod.mk_right_injective i)
      rwa [List.map_map] at hnodup
    · -- The keys of one channel have its position.
      rw [List.pairwise_iff_getElem]
      intro i j hi hj hij key hkey hkey'
      simp only [List.getElem_map, List.getElem_mapIdx] at hkey hkey'
      obtain ⟨x, -, rfl⟩ := List.mem_map.mp ((hkeys i _).subset hkey)
      obtain ⟨x', -, heq⟩ := List.mem_map.mp ((hkeys j _).subset hkey')
      have := congrArg Prod.fst heq
      simp only at this
      omega
  refine ⟨fun i => ?_, ?_, hnodup, ?_⟩
  · -- A task of this position comes from the entries of the channel there.
    by_cases hi : i < params.swqosClients.length
    · refine (countP_index_le hnodup ((g.entries params.swqosClients[i].swqosType t).map fun c => c.2.1)
        fun task htask hindex => ?_).trans ((List.length_map _).trans_le (entries_length_le hexclusive _ _))
      rw [← htasks] at htask
      obtain ⟨l, hl, hmem⟩ := List.mem_flatten.mp htask
      obtain ⟨j, hj, rfl⟩ := List.mem_mapIdx.mp hl
      obtain ⟨hj', hconfig⟩ := mem_clientTasks hmem
      obtain rfl : j = i := hj'.symm.trans hindex
      exact List.mem_map_of_mem hconfig
    · rw [List.countP_eq_zero.mpr fun task htask hindex => ?_]
      · exact Nat.zero_le 2
      rw [← htasks] at htask
      obtain ⟨l, hl, hmem⟩ := List.mem_flatten.mp htask
      obtain ⟨j, hj, rfl⟩ := List.mem_mapIdx.mp hl
      obtain rfl : j = i := (mem_clientTasks hmem).1.symm.trans (of_decide_eq_true hindex)
      exact hi hj
  · rw [← htasks, List.length_flatten]
    refine (List.sum_le_card_nsmul _ 2 ?_).trans (by simp [Nat.mul_comm])
    intro m hm
    obtain ⟨l, hl, rfl⟩ := List.mem_map.mp hm
    obtain ⟨i, hi, rfl⟩ := List.mem_mapIdx.mp hl
    have hsub := (clientTasks_sublist g t withTip params.checkMinTip i params.swqosClients[i]).length_le
    rw [List.length_map] at hsub
    exact hsub.trans (entries_length_le hexclusive _ _)
  · intro hbuy hnone
    have hlen : ¬ tasks.length > 1 := fun hmany => hnonce ⟨hbuy, hmany, hnone⟩
    have hpos : tasks ≠ [] := by
      rintro rfl
      exact hne rfl
    have := List.length_pos_of_ne_nil hpos
    omega

theorem submitTasks_channels_rpcParams :
    ∃ tasks, submitTasks PoolState.rpcParams true true = .ok tasks ∧ tasks.length = 1 := by
  have htasks : submitTasks PoolState.rpcParams true true = .ok [PoolState.rpcTask] :=
    submitTasks_of_single rfl rfl rfl (.inl rfl)
  have hfees : PoolState.rpcParams.gasFeeStrategy =
      [FeeCall.setGlobalFeeStrategy 200000 200000 0 0 0 0].foldl FeeCall.run .new := setGlobalFeeStrategy_eq_run _ _ _ _ _ _ _
  exact ⟨_, htasks, (submitTasks_channels hfees htasks).2.2.2 rfl rfl⟩

end PumpSwapBot.Sdk
