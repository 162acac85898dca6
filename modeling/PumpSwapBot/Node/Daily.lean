import PumpSwapBot.Node.Records

/-!
# The files of the days

The closed trades of the recorder by the day they were sold. `recordSell` reads the clock for the record, and
`getDailyTradesPath` reads it again for the name of the file, after the other two files were written.

## The model

* A call has the two readings, and all its writes are done. `updatePrice` reads no clock, and `recordBuy` reads it
  once.
* The day of a time is a text, `toISOString().split('T')[0]`: the date of the proleptic Gregorian calendar in UTC,
  with four digits for the years 0 to 9999 and a sign and six digits for the others.

## What is proved

* `partitioned_step_iff` — what one event keeps.
* `partitioned_iff` — after a run each closed trade is in the file of its day, as often as among the closed ones, and
  in no other, exactly if every sell that closed one read the same day twice.
-/

namespace PumpSwapBot.Node

open PumpSwapBot.Library
open TradeRecorder

/-! ### Days -/

/-- The last digits of a number, as many as asked for. -/
def digits : ℕ → ℕ → List Char
  | 0, _ => []
  | k + 1, n => digits k (n / 10) ++ [Nat.digitChar (n % 10)]

/-- The year, month and day of a number of days since 1970. Years begin in March here, so that a leap day is the
last of its year, and the years come in eras of 400. -/
def civilOfDays (days : ℤ) : ℤ × ℤ × ℤ :=
  let z := days + 719468
  let era := z / 146097
  let doe := z % 146097
  let yoe := (doe - doe / 1460 + doe / 36524 - doe / 146096) / 365
  let doy := doe - (365 * yoe + yoe / 4 - yoe / 100)
  let mp := (5 * doy + 2) / 153
  let day := doy - (153 * mp + 2) / 5 + 1
  let month := if mp < 10 then mp + 3 else mp - 9
  (yoe + era * 400 + (if month ≤ 2 then 1 else 0), month, day)

/-- The text of a year. -/
def yearText (year : ℤ) : List Char :=
  if 0 ≤ year ∧ year ≤ 9999 then digits 4 year.toNat
  else (if year < 0 then '-' else '+') :: digits 6 year.natAbs

/-- The day of a time in milliseconds. -/
def isoDate (ms : ℤ) : String :=
  let (year, month, day) := civilOfDays (ms / 86400000)
  String.ofList (yearText year ++ '-' :: digits 2 month.toNat ++ '-' :: digits 2 day.toNat)

/-! ### Runs with a clock -/

/-- What happens to the recorder: a call, with the reading of the clock for the record and the one for the name of the
file, or a restart. -/
inductive TimedEvent where
  | call (now later : ℤ) (c : Call)
  | restart

/-- The event, all writes done. -/
def TimedEvent.event : TimedEvent → Event
  | .call now later c => .call ⟨now, isoDate later, .done, .done, .done⟩ c
  | .restart => .restart

/-- The readings of the clock. -/
def TimedEvent.readings : TimedEvent → List ℤ
  | .call now _ (.recordBuy _ _ _ _) => [now]
  | .call now later (.recordSell _ _ _ _) => [now, later]
  | _ => []

/-- The recorder after some events, begun on an empty directory. -/
def runTimed (events : List TimedEvent) : TradeRecorder := run (events.map TimedEvent.event)

/-- The day a trade was sold. -/
def CompleteTradeRecord.sellDay (c : CompleteTradeRecord) : Option String := c.sellTimestamp.map isoDate

/-- Each closed trade is in the file of the day it was sold, as often as among the closed trades, and in no other; and
there is nothing else in the files. -/
def Partitioned (files : RecordFiles) : Prop :=
  ∀ day c, ((files.daily day).readD []).count c =
    if c.sellDay = some day then (files.closed.readD []).count c else 0

/-- A sell of a mint that is held reads the same day twice. -/
def TimedEvent.SameDay (s : TradeRecorder) : TimedEvent → Prop
  | .call now later (.recordSell mint _ _ _) => s.isHolding mint → isoDate later = isoDate now
  | _ => True

theorem runTimed_concat (events : List TimedEvent) (e : TimedEvent) :
    runTimed (events ++ [e]) = (runTimed events).step e.event := by
  rw [runTimed, List.map_append]
  exact run_concat _ _

section Step

theorem count_concat (xs : List CompleteTradeRecord) (c c' : CompleteTradeRecord) :
    (xs ++ [c]).count c' = xs.count c' + if c' = c then 1 else 0 := by
  by_cases hc : c' = c
  · subst hc
    simp
  · simp [hc, Ne.symm hc]

/-- How often a trade is in the file of a day to which another is added. -/
theorem count_daily (files : RecordFiles) (day : String) (c : CompleteTradeRecord) (day' : String)
    (c' : CompleteTradeRecord) :
    ((Function.update files.daily day (.content ((files.daily day).readD [] ++ [c])) day').readD []).count c' =
      ((files.daily day').readD []).count c' + if day' = day ∧ c' = c then 1 else 0 := by
  by_cases hday : day' = day
  · subst hday
    rw [Function.update_self, File.readD, count_concat]
    simp
  · rw [Function.update_of_ne hday]
    simp [hday]

/-- A trade is added to the closed ones and to the file of a day. -/
theorem partitioned_append_iff (files : RecordFiles) (active : File (List ActivePosition)) (day : String)
    (c : CompleteTradeRecord) :
    Partitioned ⟨active, .content (files.closed.readD [] ++ [c]),
        Function.update files.daily day (.content ((files.daily day).readD [] ++ [c]))⟩ ↔
      Partitioned files ∧ c.sellDay = some day := by
  have hcounts : Partitioned ⟨active, .content (files.closed.readD [] ++ [c]),
        Function.update files.daily day (.content ((files.daily day).readD [] ++ [c]))⟩ ↔
      ∀ day' c', ((files.daily day').readD []).count c' + (if day' = day ∧ c' = c then 1 else 0) =
        if c'.sellDay = some day' then (files.closed.readD []).count c' + (if c' = c then 1 else 0) else 0 := by
    refine forall₂_congr fun day' c' => ?_
    rw [count_daily, ← count_concat]
    rfl
  -- In the file of its own day, the trade is one more on both sides.
  have hcancel : c.sellDay = some day → ∀ day' c',
      (((files.daily day').readD []).count c' + (if day' = day ∧ c' = c then 1 else 0) =
          (if c'.sellDay = some day' then (files.closed.readD []).count c' + (if c' = c then 1 else 0) else 0) ↔
        ((files.daily day').readD []).count c' =
          if c'.sellDay = some day' then (files.closed.readD []).count c' else 0) := by
    intro hday day' c'
    by_cases hc : c' = c
    · subst hc
      by_cases heq : day' = day
      · subst heq
        simp [hday]
      · have hne : ¬ c'.sellDay = some day' := by
          rw [hday, Option.some.injEq]
          exact Ne.symm heq
        simp [heq, hne]
    · simp [hc]
  rw [hcounts]
  constructor
  · intro h
    have hday : c.sellDay = some day := by
      by_contra hne
      have hcount := h day c
      simp [hne] at hcount
    exact ⟨fun day' c' => (hcancel hday day' c').mp (h day' c'), hday⟩
  · rintro ⟨h, hday⟩ day' c'
    exact (hcancel hday day' c').mpr (h day' c')

/-- **One event.** -/
theorem partitioned_step_iff (s : TradeRecorder) (e : TimedEvent) :
    Partitioned (s.step e.event).files ↔ Partitioned s.files ∧ e.SameDay s := by
  cases e with
  | restart => exact (and_iff_left trivial).symm
  | call now later c =>
    cases c with
    | recordBuy mint x q sig =>
      rw [TimedEvent.event, step_recordBuy]
      exact (and_iff_left trivial).symm
    | updatePrice mint x =>
      rw [TimedEvent.event]
      rcases hp : s.activePositions.get? mint with _ | p
      · rw [step_updatePrice_of_none hp]
        exact (and_iff_left trivial).symm
      · rw [step_updatePrice hp]
        exact (and_iff_left trivial).symm
    | recordSell mint x q sig =>
      rw [TimedEvent.event]
      rcases hp : s.activePositions.get? mint with _ | p
      · rw [step_recordSell_of_none hp]
        exact (and_iff_left fun hheld => absurd hheld (not_isHolding_of_get? hp)).symm
      · rw [step_recordSell x q sig hp rfl rfl rfl, partitioned_append_iff]
        refine and_congr_right fun _ => ?_
        show some (isoDate now) = some (isoDate later) ↔ (s.isHolding mint = true → isoDate later = isoDate now)
        rw [Option.some.injEq, eq_comm]
        exact ⟨fun heq _ => heq, fun heq => heq (isHolding_of_get? hp)⟩

end Step

/-- **The files of the days.** For every sequence of calls and restarts without errors of the files, and all readings
of the clock: each closed trade is in the file of the day it was sold, as often as among the closed trades, in no
other file, and nothing else is in one, if and only if in every sell that closes a trade the reading for the name of
the file is on the day of the one for the record. -/
theorem partitioned_iff (events : List TimedEvent) :
    Partitioned (runTimed events).files ↔
      ∀ before e, before ++ [e] <+: events → e.SameDay (runTimed before) := by
  induction events using List.reverseRecOn with
  | nil =>
    refine iff_of_true (fun day c => ?_) fun before e hpre => ?_
    · simp [runTimed, run, TradeRecorder.new, RecordFiles.empty, File.readD]
    · simp at hpre
  | append_singleton events e ih =>
    rw [runTimed_concat, partitioned_step_iff, ih]
    constructor
    · rintro ⟨hbefore, hlast⟩ before e' hpre
      rcases List.prefix_concat_iff.mp hpre with heq | hpre
      · obtain ⟨rfl, hsingle⟩ := List.append_inj' heq rfl
        cases hsingle
        exact hlast
      · exact hbefore before e' hpre
    · intro h
      exact ⟨fun before e' hpre => h before e' (hpre.trans (List.prefix_append _ _)), h events e List.prefix_rfl⟩

/-- A mint is bought, and sold when a year ends: the year is over when the file is written. -/
def sampleMidnight : List TimedEvent :=
  [.call 1704067190000 1704067190000 (.recordBuy "m" 2 1000 "b"),
    .call 1704067199999 1704067200000 (.recordSell "m" 2 1000 "s")]

/-- The clock goes on, and the trade that was sold on the last day of one year is in the file of the first of the
next. -/
theorem partitioned_sampleMidnight :
    (sampleMidnight.flatMap TimedEvent.readings).Pairwise (· ≤ ·) ∧
      (runTimed sampleMidnight).getClosedTrades.map CompleteTradeRecord.sellDay = [some "2023-12-31"] ∧
      ((runTimed sampleMidnight).files.daily "2024-01-01").readD [] = (runTimed sampleMidnight).getClosedTrades ∧
      ¬ Partitioned (runTimed sampleMidnight).files := by
  have hday : (runTimed sampleMidnight).getClosedTrades.map CompleteTradeRecord.sellDay = [some "2023-12-31"] := by
    decide +kernel
  have hfile : ((runTimed sampleMidnight).files.daily "2024-01-01").readD [] =
      (runTimed sampleMidnight).getClosedTrades := by decide +kernel
  refine ⟨by decide, hday, hfile, fun h => ?_⟩
  obtain ⟨c, hc⟩ := List.map_eq_singleton_iff.mp hday
  have hcount := h "2024-01-01" c
  rw [hfile, hc.1, hc.2] at hcount
  revert hcount
  simp

end PumpSwapBot.Node
