import PumpSwapBot.Node.Records
import Mathlib.Algebra.BigOperators.Group.List.Basic
import Mathlib.Tactic.Linarith

/-!
# The statistics of the trade recorder

`getStatistics` of `tradeRecorder.ts`, over the closed trades of any run.

## The model

The amounts and the sums are exact. The loop over the trades is a fold of the four totals it keeps.

## What is proved

* `totals_total`, `totals_winning`, `totals_losing` — what the fold comes to: only the trades with a profit count.
* `run_accounted` — in every run of paid trades, the closed ones have the profit that `recordSell` sets.
* `statistics_iff` — the totals are those of all closed trades exactly if none was sold for nothing.
-/

namespace PumpSwapBot.Node

open PumpSwapBot.Library

/-- What `getStatistics` returns. -/
structure TradeStatistics where
  totalTrades : ℕ
  winningTrades : ℕ
  losingTrades : ℕ
  totalProfitLossSol : ℚ
  averageHoldTimeSeconds : ℚ
  winRate : ℚ

/-- The totals over the trades. -/
structure Totals where
  winningTrades : ℕ
  losingTrades : ℕ
  totalProfitLossSol : ℚ
  totalHoldTime : ℤ

/-- The totals with another trade. -/
def Totals.count (t : Totals) (trade : CompleteTradeRecord) : Totals :=
  let t :=
    match trade.profitLossSol with
    | some profit =>
      { t with
        totalProfitLossSol := t.totalProfitLossSol + profit
        winningTrades := if profit > 0 then t.winningTrades + 1 else t.winningTrades
        losingTrades := if profit > 0 then t.losingTrades else if profit < 0 then t.losingTrades + 1 else t.losingTrades }
    | none => t
  match trade.holdTimeSeconds with
  | some holdTime => { t with totalHoldTime := t.totalHoldTime + holdTime }
  | none => t

/-- The totals of some trades. -/
def totals (trades : List CompleteTradeRecord) : Totals := trades.foldl Totals.count ⟨0, 0, 0, 0⟩

/-- The statistics of the closed trades. -/
def TradeRecorder.getStatistics (s : TradeRecorder) : TradeStatistics :=
  let trades := s.getClosedTrades
  let t := totals trades
  { totalTrades := trades.length
    winningTrades := t.winningTrades
    losingTrades := t.losingTrades
    totalProfitLossSol := t.totalProfitLossSol
    averageHoldTimeSeconds := if trades.length > 0 then t.totalHoldTime / trades.length else 0
    winRate := if trades.length > 0 then (t.winningTrades : ℚ) / trades.length * 100 else 0 }

/-! ### What the totals come to -/

/-- The profits that are known. -/
def profits (trades : List CompleteTradeRecord) : List ℚ := trades.filterMap CompleteTradeRecord.profitLossSol

section Totals

variable (trades : List CompleteTradeRecord) (t : Totals)

theorem foldl_total :
    (trades.foldl Totals.count t).totalProfitLossSol = t.totalProfitLossSol + (profits trades).sum := by
  induction trades generalizing t with
  | nil => simp [profits]
  | cons c trades ih =>
    rw [List.foldl_cons, ih]
    rcases hp : c.profitLossSol with _ | profit <;> rcases hh : c.holdTimeSeconds with _ | hold <;>
      simp [Totals.count, profits, hp, hh, add_assoc]

theorem foldl_winning :
    (trades.foldl Totals.count t).winningTrades = t.winningTrades + (profits trades).countP (0 < ·) := by
  induction trades generalizing t with
  | nil => simp [profits]
  | cons c trades ih =>
    rw [List.foldl_cons, ih]
    rcases hp : c.profitLossSol with _ | profit
    · rcases hh : c.holdTimeSeconds with _ | hold <;> simp [Totals.count, profits, hp, hh]
    · by_cases hwin : 0 < profit <;> rcases hh : c.holdTimeSeconds with _ | hold <;>
        simp [Totals.count, profits, hp, hh, hwin] <;> omega

theorem foldl_losing :
    (trades.foldl Totals.count t).losingTrades = t.losingTrades + (profits trades).countP (· < 0) := by
  induction trades generalizing t with
  | nil => simp [profits]
  | cons c trades ih =>
    rw [List.foldl_cons, ih]
    rcases hp : c.profitLossSol with _ | profit
    · rcases hh : c.holdTimeSeconds with _ | hold <;> simp [Totals.count, profits, hp, hh]
    · by_cases hlose : profit < 0
      · have hwin : ¬ 0 < profit := not_lt.mpr hlose.le
        rcases hh : c.holdTimeSeconds with _ | hold <;> simp [Totals.count, profits, hp, hh, hlose, hwin] <;> omega
      · rcases hh : c.holdTimeSeconds with _ | hold <;> simp [Totals.count, profits, hp, hh, hlose]

theorem totals_total : (totals trades).totalProfitLossSol = (profits trades).sum := by
  rw [totals, foldl_total, zero_add]

theorem totals_winning : (totals trades).winningTrades = (profits trades).countP (0 < ·) := by
  rw [totals, foldl_winning, zero_add]

theorem totals_losing : (totals trades).losingTrades = (profits trades).countP (· < 0) := by
  rw [totals, foldl_losing, zero_add]

end Totals

/-! ### The trades of a run -/

/-- A buy is paid for, and a sell does not cost. -/
def Event.Paid : Event → Prop
  | .call _ (.recordBuy _ _ buySolAmount _) => 0 < buySolAmount
  | .call _ (.recordSell _ _ sellSolAmount _) => 0 ≤ sellSolAmount
  | _ => True

/-- A closed trade has the profit that was set when it was sold. -/
def Settled (c : CompleteTradeRecord) : Prop :=
  0 < c.buySolAmount ∧ ∃ q, 0 ≤ q ∧ c.sellSolAmount = some q ∧
    c.profitLossSol = if 0 < q then some (q - c.buySolAmount) else none

/-- The positions were paid for. -/
def AllPaid (ps : List ActivePosition) : Prop := ∀ p ∈ ps, 0 < p.buySolAmount

/-- The positions that are held and those in the file were paid for, and the closed trades are settled. -/
structure Accounted (s : TradeRecorder) : Prop where
  keyed : Keyed s.activePositions
  held : AllPaid s.activePositions.values
  file : AllPaid (s.files.active.readD [])
  closed : ∀ c ∈ s.getClosedTrades, Settled c

section Accounted

open TradeRecorder

variable {s : TradeRecorder} {m : OrderedMap String ActivePosition} {mint : String} {p : ActivePosition} {a : Ambient}

theorem AllPaid.set (h : AllPaid m.values) (hp : 0 < p.buySolAmount) : AllPaid (m.set mint p).values := by
  intro p' hp'
  obtain ⟨e, he, rfl⟩ := List.mem_map.mp hp'
  rw [OrderedMap.entries_set] at he
  rcases OrderedMap.mem_setEntries he with rfl | he
  · exact hp
  · exact h _ (List.mem_map_of_mem he)

theorem AllPaid.delete (h : AllPaid m.values) : AllPaid (m.delete mint).values := by
  intro p' hp'
  obtain ⟨e, he, rfl⟩ := List.mem_map.mp hp'
  exact h _ (List.mem_map_of_mem (List.mem_of_mem_filter he))

theorem AllPaid.get (h : AllPaid m.values) (hp : m.get? mint = some p) : 0 < p.buySolAmount :=
  h p (List.mem_map_of_mem (OrderedMap.mem_of_get? hp))

theorem AllPaid.load {file : File (List ActivePosition)} (h : AllPaid (file.readD [])) :
    AllPaid (loadActivePositions file).values := by
  intro p hp
  obtain ⟨e, he, rfl⟩ := List.mem_map.mp hp
  exact h _ (OrderedMap.mem_of_mem_ofValues he)

/-- What is read after a write was written or was there. -/
theorem mem_readD_write {α : Type} {f : File (List α)} {w : WriteOutcome} {xs : List α} {x : α}
    (h : x ∈ (f.write w xs).2.readD []) : x ∈ xs ∨ x ∈ f.readD [] := by
  cases w with
  | done | stopAfter => exact Or.inl h
  | refused _ | stopBefore => exact Or.inr h
  | torn _ | stopTorn => cases h

theorem accounted_new {files : RecordFiles} (hfile : AllPaid (files.active.readD []))
    (hclosed : ∀ c ∈ files.closed.readD [], Settled c) : Accounted (new files) :=
  ⟨keyed_loadActivePositions _, hfile.load, hfile, hclosed⟩

theorem Accounted.saved (h : Accounted s) (hkeyed : Keyed m) (hm : AllPaid m.values) (w : WriteOutcome) :
    Accounted (saved s w m) := by
  have hfile : AllPaid ((s.files.active.write w m.values).2.readD []) := by
    intro p hp
    rcases mem_readD_write hp with hp | hp
    · exact hm p hp
    · exact h.file p hp
  cases w with
  | done | refused _ | torn _ => exact ⟨hkeyed, hm, hfile, h.closed⟩
  | stopBefore | stopTorn | stopAfter => exact accounted_new hfile h.closed

theorem settled_closing (hp : 0 < p.buySolAmount) {q : ℚ} (hq : 0 ≤ q) (a : Ambient) (mint : String) (x : ℚ)
    (sig : String) : Settled (closing a mint p x q sig) :=
  ⟨hp, q, hq, rfl, by simp [closing, hp]⟩

theorem Accounted.recordSell (h : Accounted s) (x : ℚ) {q : ℚ} (hq : 0 ≤ q) (sig : String) :
    Accounted (s.step (.call a (.recordSell mint x q sig))) := by
  rcases hp : s.activePositions.get? mint with _ | p
  · rw [step_recordSell_of_none hp]
    exact h
  · by_cases hdone : a.active = .done
    · obtain ⟨daily, hstep⟩ := step_recordSell_of_done x q sig hp hdone h.keyed
      rw [hstep]
      refine ⟨h.keyed.delete, h.held.delete, h.held.delete, fun c hc => ?_⟩
      rcases mem_readD_write hc with hc | hc
      · rcases List.mem_append.mp hc with hc | hc
        · exact h.closed c hc
        · rw [List.mem_singleton.mp hc]
          exact settled_closing (h.held.get hp) hq a mint x sig
      · exact h.closed c hc
    · rw [step_recordSell_of_ne_done x q sig hp hdone]
      exact h.saved h.keyed.delete h.held.delete _

theorem Accounted.step {e : Event} (h : Accounted s) (he : e.Paid) : Accounted (s.step e) := by
  cases e with
  | restart => exact accounted_new h.file h.closed
  | call a c =>
    cases c with
    | recordBuy mint x q sig =>
      rw [step_recordBuy]
      exact h.saved (h.keyed.set rfl) (h.held.set (p := bought a mint x q sig) he) _
    | updatePrice mint x =>
      rcases hp : s.activePositions.get? mint with _ | p
      · rw [step_updatePrice_of_none hp]
        exact h
      · rw [step_updatePrice hp]
        have hpaid : 0 < p.buySolAmount := h.held.get hp
        refine h.saved (h.keyed.set (by rw [seen_mint, h.keyed.mint_eq hp])) (h.held.set ?_) _
        rw [seen_eq]
        exact hpaid
    | recordSell mint x q sig => exact h.recordSell x he sig

theorem run_accounted {events : List Event} (h : ∀ e ∈ events, e.Paid) : Accounted (run events) := by
  induction events using List.reverseRecOn with
  | nil => exact accounted_new (by intro p hp; cases hp) (by intro c hc; cases hc)
  | append_singleton events e ih =>
    rw [run_concat]
    exact (ih fun e he => h e (List.mem_append_left _ he)).step (h e (by simp))

end Accounted

/-! ### All closed trades -/

/-- What was made with a trade, from its own amounts. -/
def CompleteTradeRecord.gain (c : CompleteTradeRecord) : ℚ := c.sellSolAmount.getD 0 - c.buySolAmount

/-- The statistics are those of all the closed trades. -/
structure AddsUp (stats : TradeStatistics) (closed : List CompleteTradeRecord) : Prop where
  total : stats.totalProfitLossSol = (closed.map CompleteTradeRecord.gain).sum
  winning : stats.winningTrades = closed.countP fun c => c.sellSolAmount.getD 0 > c.buySolAmount
  losing : stats.losingTrades = closed.countP fun c => c.sellSolAmount.getD 0 < c.buySolAmount

section AddsUp

variable {trades : List CompleteTradeRecord} {c : CompleteTradeRecord}

theorem Settled.profit (h : Settled c) (hq : c.sellSolAmount ≠ some 0) : c.profitLossSol = some c.gain := by
  obtain ⟨-, q, hnonneg, hsell, hprofit⟩ := h
  have hpos : 0 < q := lt_of_le_of_ne hnonneg fun hzero => hq (hzero ▸ hsell)
  rw [hprofit, if_pos hpos, CompleteTradeRecord.gain, hsell]
  rfl

theorem Settled.profit_none (h : Settled c) (hq : c.sellSolAmount = some 0) : c.profitLossSol = none := by
  obtain ⟨-, q, -, hsell, hprofit⟩ := h
  rw [hsell] at hq
  cases hq
  rw [hprofit, if_neg (lt_irrefl 0)]

theorem profits_cons_some {x : ℚ} (h : c.profitLossSol = some x) : profits (c :: trades) = x :: profits trades :=
  List.filterMap_cons_some h

theorem profits_cons_none (h : c.profitLossSol = none) : profits (c :: trades) = profits trades :=
  List.filterMap_cons_none h

/-- Where no trade was sold for nothing, every gain is known. -/
theorem profits_eq (h : ∀ c ∈ trades, Settled c) (hq : ∀ c ∈ trades, c.sellSolAmount ≠ some 0) :
    profits trades = trades.map CompleteTradeRecord.gain := by
  induction trades with
  | nil => rfl
  | cons c trades ih =>
    have hprofit := (h c List.mem_cons_self).profit (hq c List.mem_cons_self)
    have hrest := ih (fun c hc => h c (List.mem_cons_of_mem _ hc)) fun c hc => hq c (List.mem_cons_of_mem _ hc)
    rw [profits_cons_some hprofit, List.map_cons, hrest]

/-- The trades that lost are those that are counted, and those that were sold for nothing. -/
theorem countP_losing (h : ∀ c ∈ trades, Settled c) :
    trades.countP (fun c => c.sellSolAmount.getD 0 < c.buySolAmount) =
      (profits trades).countP (· < 0) + trades.countP (fun c => c.sellSolAmount = some 0) := by
  induction trades with
  | nil => rfl
  | cons c trades ih =>
    have hc := h c List.mem_cons_self
    have hrest := ih fun c hc => h c (List.mem_cons_of_mem _ hc)
    rw [List.countP_cons, List.countP_cons, hrest]
    by_cases hq : c.sellSolAmount = some 0
    · have hpaid : (0 : ℚ) < c.buySolAmount := hc.1
      rw [profits_cons_none (hc.profit_none hq)]
      simp [hq, hpaid]
      omega
    · have hiff : c.gain < 0 ↔ c.sellSolAmount.getD 0 < c.buySolAmount := sub_neg
      rw [profits_cons_some (hc.profit hq), List.countP_cons]
      simp only [hq, hiff, decide_false, Bool.false_eq_true, if_false]
      omega

/-- **The statistics add up.** In every run, with restarts and whatever becomes of the writes, in which what is
bought is paid for and what is sold does not cost: the statistics are those of all closed trades, their profit and
how many won and lost, if and only if none of them was sold for nothing. -/
theorem statistics_iff (events : List Event) (h : ∀ e ∈ events, e.Paid) :
    AddsUp (TradeRecorder.run events).getStatistics (TradeRecorder.run events).getClosedTrades ↔
      ∀ c ∈ (TradeRecorder.run events).getClosedTrades, c.sellSolAmount ≠ some 0 := by
  have hsettled := (run_accounted h).closed
  have hlosing := countP_losing hsettled
  constructor
  · intro hadds c hc hzero
    have hcount := hadds.losing
    rw [hlosing] at hcount
    change (totals _).losingTrades = _ at hcount
    rw [totals_losing] at hcount
    have hnone := List.countP_eq_zero.mp (Nat.left_eq_add.mp hcount) c hc
    exact hnone (decide_eq_true hzero)
  · intro hsold
    have hprofits := profits_eq hsettled hsold
    refine ⟨?_, ?_, ?_⟩
    · exact (totals_total _).trans (congrArg List.sum hprofits)
    · refine (totals_winning _).trans ?_
      rw [hprofits, List.countP_map]
      refine List.countP_congr fun c _ => ?_
      simp [CompleteTradeRecord.gain]
    · refine (totals_losing _).trans ?_
      rw [hprofits, List.countP_map]
      refine List.countP_congr fun c _ => ?_
      simp [CompleteTradeRecord.gain]

end AddsUp

theorem statistics_iff_sample : (∀ e ∈ sampleTrade, e.Paid) ∧
    AddsUp (TradeRecorder.run sampleTrade).getStatistics (TradeRecorder.run sampleTrade).getClosedTrades := by
  have hpaid : ∀ e ∈ sampleTrade, e.Paid := by simp [sampleTrade, Event.Paid]
  exact ⟨hpaid, (statistics_iff sampleTrade hpaid).mpr (by decide +kernel)⟩

/-- A mint is bought for 1000 lamports and sold for nothing. -/
def sampleLoss : List Event :=
  [.call (quietAt 0) (.recordBuy "m" 2 1000 "b"), .call (quietAt 1000) (.recordSell "m" (1 / 1000) 0 "s")]

/-- The loss is neither in the total nor among the trades that lost. -/
theorem statistics_sampleLoss : (∀ e ∈ sampleLoss, e.Paid) ∧
    (TradeRecorder.run sampleLoss).getClosedTrades.map CompleteTradeRecord.gain = [-1000] ∧
    (TradeRecorder.run sampleLoss).getStatistics.totalProfitLossSol = 0 ∧
    ¬ AddsUp (TradeRecorder.run sampleLoss).getStatistics (TradeRecorder.run sampleLoss).getClosedTrades := by
  refine ⟨by simp [sampleLoss, Event.Paid], by decide +kernel, by decide +kernel, fun h => ?_⟩
  have hlosing := h.losing
  revert hlosing
  decide +kernel

end PumpSwapBot.Node
