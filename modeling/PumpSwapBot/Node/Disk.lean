import PumpSwapBot.Node.Records
import PumpSwapBot.Library.Prefixes

/-!
# Files that the recorder cannot read

The recorder on a directory with any contents. `Recorder.lean` knows a file that is absent, one with the records,
and one that does not parse; here a file can also hold a JSON value that is not an array, and an array can hold
items that are no records.

## The model

* Every text is kept, so that a file which is overwritten can be told from one which is not.
* An item of `active_positions.json` that is `null` ends the reading of it, with the positions before it set.
  The other items are positions.
* `push` is called outside of the `try`: on a value that is not an array it throws, and the call ends there.
* The writes are done. What happens when they are not is in `Records.lean`.

## What is proved

* `step_embed` — on the files of `Recorder.lean` the two models do the same.
* `kept_iff` — along a run no record is lost and nothing that was not read is overwritten exactly if every call
  finds the files it writes readable.
-/

namespace PumpSwapBot.Node

open PumpSwapBot.Library

/-! ### Contents -/

/-- What is at a path. -/
inductive Content (α : Type) where
  | absent
  | array (items : List α)
  /-- The text of a JSON value that is not an array. -/
  | other (text : String)
  /-- A text that does not parse. -/
  | broken (text : String)
  deriving DecidableEq

/-- An item of a list of closed trades. -/
inductive Entry where
  | record (record : CompleteTradeRecord)
  /-- The text of another value. -/
  | foreign (text : String)
  deriving DecidableEq

namespace Content

variable {α : Type}

/-- The items of an array. -/
def items : Content α → List α
  | .array items => items
  | _ => []

/-- It reads as an array; a file that is absent reads as an empty one. -/
def Reads : Content α → Prop
  | .absent | .array _ => True
  | .other _ | .broken _ => False

theorem Reads.ne_other {f : Content α} (h : f.Reads) (text : String) : f ≠ .other text := by
  rintro rfl
  exact h

/-- It does not parse. -/
def Breaks : Content α → Prop
  | .broken _ => True
  | _ => False

end Content

/-- The text of `null`. -/
def isNullText (text : String) : Bool := text.toList.filter (fun c => !c.isWhitespace) = "null".toList

/-- Read a file into the variable of a name, and push an item. The text that does not parse is logged. -/
def pushTo {α : Type} (name : String) (item : α) : Content α → Except Halt (List α)
  | .absent | .broken _ => .ok [item]
  | .array items => .ok (items ++ [item])
  | .other text =>
    if isNullText text then .error (.thrown "Cannot read properties of null (reading 'push')")
    else .error (.thrown (name ++ ".push is not a function"))

/-- The contents of the directory. An item of the positions that is `none` is `null`. -/
structure RawFiles where
  active : Content (Option ActivePosition)
  closed : Content Entry
  /-- The file of each day. -/
  daily : String → Content Entry

/-- The recorder on any contents. -/
structure RawRecorder where
  activePositions : OrderedMap String ActivePosition
  files : RawFiles

/-- When a call is made: the time, and the day as a text. -/
structure Moment where
  now : ℤ
  today : String

/-- The writes of a call at a moment are done. -/
def Moment.ambient (t : Moment) : Ambient := ⟨t.now, t.today, .done, .done, .done⟩

namespace RawRecorder

open TradeRecorder (bought seen closing)

/-- Set the positions of an array, up to the first item that is `null`. -/
def setItems : List (Option ActivePosition) → OrderedMap String ActivePosition → OrderedMap String ActivePosition
  | [], m => m
  | none :: _, m => m
  | some position :: items, m => setItems items (m.set position.mint position)

/-- The positions that are read from a file. What goes wrong is logged. -/
def loadActivePositions (file : Content (Option ActivePosition)) : OrderedMap String ActivePosition :=
  setItems file.items .empty

/-- A new recorder on a directory. -/
def new (files : RawFiles) : RawRecorder := ⟨loadActivePositions files.active, files⟩

/-- Write the open positions. -/
def saveActivePositions : Proc RawRecorder Halt Unit :=
  Proc.modify fun s => { s with files := { s.files with active := .array (s.activePositions.values.map some) } }

/-- Add a trade to the closed ones, and then to those of the day. -/
def appendClosedTrade (today : String) (record : CompleteTradeRecord) : Proc RawRecorder Halt Unit := do
  let s ← Proc.get
  let trades ← Proc.ofExcept (pushTo "trades" (Entry.record record) s.files.closed)
  Proc.modify fun s => { s with files := { s.files with closed := .array trades } }
  let s ← Proc.get
  let dailyTrades ← Proc.ofExcept (pushTo "dailyTrades" (Entry.record record) (s.files.daily today))
  Proc.modify fun s =>
    { s with files := { s.files with daily := Function.update s.files.daily today (.array dailyTrades) } }

/-- Record a buy. -/
def recordBuy (t : Moment) (mint : String) (buyPrice buySolAmount : ℚ) (signature : String) :
    Proc RawRecorder Halt Unit := do
  Proc.modify fun s =>
    { s with activePositions := s.activePositions.set mint (bought t.ambient mint buyPrice buySolAmount signature) }
  saveActivePositions

/-- Take note of a price of a mint that is held. -/
def updatePrice (mint : String) (currentPrice : ℚ) : Proc RawRecorder Halt Unit := do
  let s ← Proc.get
  match s.activePositions.get? mint with
  | none => return ()
  | some position => do
    Proc.modify fun s => { s with activePositions := s.activePositions.set mint (seen position currentPrice) }
    saveActivePositions

/-- Record a sell: the position is removed, and the trade added to the closed ones. -/
def recordSell (t : Moment) (mint : String) (sellPrice sellSolAmount : ℚ) (signature : String) :
    Proc RawRecorder Halt (Option CompleteTradeRecord) := do
  let s ← Proc.get
  match s.activePositions.get? mint with
  | none => return none
  | some position => do
    let record := closing t.ambient mint position sellPrice sellSolAmount signature
    Proc.modify fun s => { s with activePositions := s.activePositions.delete mint }
    saveActivePositions
    appendClosedTrade t.today record
    return some record

/-- Perform a call. -/
def perform (t : Moment) : Call → Proc RawRecorder Halt Unit
  | .recordBuy mint buyPrice buySolAmount signature => recordBuy t mint buyPrice buySolAmount signature
  | .updatePrice mint currentPrice => updatePrice mint currentPrice
  | .recordSell mint sellPrice sellSolAmount signature => do
    let _ ← recordSell t mint sellPrice sellSolAmount signature
    return ()

end RawRecorder

/-! ### Runs -/

/-- What happens to the recorder: a call, or a restart between two calls. -/
inductive RawEvent where
  | call (t : Moment) (c : Call)
  | restart

/-- The event in the model of `Records.lean`, all writes done. -/
def RawEvent.event : RawEvent → Event
  | .call t c => .call t.ambient c
  | .restart => .restart

namespace RawRecorder

open TradeRecorder (bought seen closing)

/-- The recorder after an event. A call that throws leaves what it did. -/
def step (s : RawRecorder) : RawEvent → RawRecorder
  | .restart => new s.files
  | .call t c => ((perform t c).run s).2

/-- The recorder after some events. -/
def run (s : RawRecorder) (events : List RawEvent) : RawRecorder := events.foldl step s

/-- The trades that an event closes: that of a sell of a mint that is held. -/
def closes (s : RawRecorder) : RawEvent → List CompleteTradeRecord
  | .call t (.recordSell mint sellPrice sellSolAmount signature) =>
    match s.activePositions.get? mint with
    | none => []
    | some position => [closing t.ambient mint position sellPrice sellSolAmount signature]
  | _ => []

/-- The trades that were closed by some events. -/
def newlyClosed (s : RawRecorder) : List RawEvent → List CompleteTradeRecord
  | [] => []
  | e :: events => s.closes e ++ newlyClosed (s.step e) events

theorem run_concat (s : RawRecorder) (events : List RawEvent) (e : RawEvent) :
    s.run (events ++ [e]) = (s.run events).step e := by
  simp [run]

theorem newlyClosed_concat (s : RawRecorder) (events : List RawEvent) (e : RawEvent) :
    s.newlyClosed (events ++ [e]) = s.newlyClosed events ++ (s.run events).closes e := by
  induction events generalizing s with
  | nil => simp [newlyClosed, run]
  | cons e' events ih =>
    rw [List.cons_append, newlyClosed, newlyClosed, ih, List.append_assoc]
    rfl

/-! What each call leaves. -/

section Effects

variable {s : RawRecorder} {t : Moment} {mint : String} {p : ActivePosition}

/-- The recorder after it wrote the positions it holds. -/
def stored (s : RawRecorder) (m : OrderedMap String ActivePosition) : RawRecorder :=
  ⟨m, { s.files with active := .array (m.values.map some) }⟩

theorem step_recordBuy (s : RawRecorder) (t : Moment) (mint : String) (x q : ℚ) (sig : String) :
    s.step (.call t (.recordBuy mint x q sig)) =
      s.stored (s.activePositions.set mint (bought t.ambient mint x q sig)) := rfl

theorem step_updatePrice (h : s.activePositions.get? mint = some p) (t : Moment) (x : ℚ) :
    s.step (.call t (.updatePrice mint x)) = s.stored (s.activePositions.set mint (seen p x)) := by
  rw [step, perform, updatePrice, Proc.bind_run_ok (Proc.get_run s)]
  simp only [h]
  rfl

theorem step_updatePrice_of_none (h : s.activePositions.get? mint = none) (t : Moment) (x : ℚ) :
    s.step (.call t (.updatePrice mint x)) = s := by
  rw [step, perform, updatePrice, Proc.bind_run_ok (Proc.get_run s)]
  simp only [h]
  rfl

theorem step_recordSell_of_none (h : s.activePositions.get? mint = none) (t : Moment) (x q : ℚ) (sig : String) :
    s.step (.call t (.recordSell mint x q sig)) = s := by
  rw [step, perform, recordSell, Proc.bind_run, Proc.bind_run_ok (Proc.get_run s)]
  simp only [h]
  rfl

theorem step_recordSell (h : s.activePositions.get? mint = some p) (t : Moment) (x q : ℚ) (sig : String) :
    s.step (.call t (.recordSell mint x q sig)) =
      ((appendClosedTrade t.today (closing t.ambient mint p x q sig)).run
        (s.stored (s.activePositions.delete mint))).2 := by
  rw [step, perform, Proc.bind_pure_state, recordSell, Proc.bind_run_ok (Proc.get_run s)]
  simp only [h]
  rw [Proc.bind_run_ok (Proc.modify_run _ s), Proc.bind_run_ok (by rfl), Proc.bind_pure_state]
  rfl

/-! What is left where a trade is added to the closed ones. -/

theorem pushTo_of_ne {α : Type} {f : Content α} (h : ∀ text, f ≠ .other text) (name : String) (item : α) :
    pushTo name item f = .ok (f.items ++ [item]) := by
  cases f with
  | absent | broken _ | array _ => rfl
  | other text => exact absurd rfl (h text)

theorem pushTo_other {α : Type} (name : String) (item : α) (text : String) :
    ∃ msg, pushTo name item (.other text) = .error (.thrown msg) := by
  rw [pushTo]
  split
  · exact ⟨_, rfl⟩
  · exact ⟨_, rfl⟩

/-- Nothing is written where the closed trades are another value. -/
theorem appendClosedTrade_of_other {text : String} (h : s.files.closed = .other text) (today : String)
    (r : CompleteTradeRecord) :
    ((appendClosedTrade today r).run s).2 = s := by
  obtain ⟨msg, hpush⟩ := pushTo_other "trades" (Entry.record r) text
  rw [appendClosedTrade, Proc.bind_run_ok (Proc.get_run s), h, hpush]
  rfl

/-- Otherwise the trade is added to them, and the files other than that of the day are left. -/
theorem appendClosedTrade_of_ne (h : ∀ text, s.files.closed ≠ .other text) (today : String)
    (r : CompleteTradeRecord) :
    ∃ file, ((appendClosedTrade today r).run s).2 = { s with files :=
        ⟨s.files.active, .array (s.files.closed.items ++ [.record r]), Function.update s.files.daily today file⟩ } ∧
      ((∃ text, s.files.daily today = .other text ∧ file = .other text) ∨
        (∀ text, s.files.daily today ≠ .other text) ∧
          file = .array ((s.files.daily today).items ++ [.record r])) := by
  rw [appendClosedTrade, Proc.bind_run_ok (Proc.get_run s), pushTo_of_ne h,
    Proc.bind_run_ok (Proc.ofExcept_run _ s), Proc.bind_run_ok (Proc.modify_run _ s), Proc.bind_run_ok (Proc.get_run _)]
  dsimp only
  by_cases hother : ∃ text, s.files.daily today = .other text
  · obtain ⟨text, hdaily⟩ := hother
    obtain ⟨msg, hpush⟩ := pushTo_other "dailyTrades" (Entry.record r) text
    refine ⟨.other text, ?_, Or.inl ⟨text, hdaily, rfl⟩⟩
    rw [hdaily, hpush, ← hdaily, Function.update_eq_self]
    rfl
  · have hne : ∀ text, s.files.daily today ≠ .other text := fun text htext => hother ⟨text, htext⟩
    refine ⟨_, ?_, Or.inr ⟨hne, rfl⟩⟩
    rw [pushTo_of_ne hne]
    rfl

end Effects

/-! ### The files of `Recorder.lean` -/

/-- A file of records. A text that does not parse is not known there. -/
def ofFile {α β : Type} (f : α → β) : File (List α) → Content β
  | .absent => .absent
  | .content items => .array (items.map f)
  | .unreadable => .broken ""

/-- The recorder on the files of `Recorder.lean`. -/
def embed (s : TradeRecorder) : RawRecorder where
  activePositions := s.activePositions
  files :=
    { active := ofFile some s.files.active
      closed := ofFile .record s.files.closed
      daily := fun day => ofFile .record (s.files.daily day) }

section Embed

variable {α β : Type}

theorem ofFile_ne_other (f : α → β) (file : File (List α)) (text : String) : ofFile f file ≠ .other text := by
  cases file <;> simp [ofFile]

theorem items_ofFile (f : α → β) (file : File (List α)) : (ofFile f file).items = (file.readD []).map f := by
  cases file <;> rfl

theorem ofFile_append (f : α → β) (file : File (List α)) (a : α) :
    .array ((ofFile f file).items ++ [f a]) = ofFile f (.content (file.readD [] ++ [a])) := by
  rw [items_ofFile, ofFile, List.map_append]
  rfl

theorem setItems_some (ps : List ActivePosition) (m : OrderedMap String ActivePosition) :
    setItems (ps.map some) m = ps.foldl (fun m p => m.set p.mint p) m := by
  induction ps generalizing m with
  | nil => rfl
  | cons p ps ih => exact ih _

theorem new_embed (s : TradeRecorder) : new (embed s).files = embed (TradeRecorder.new s.files) := by
  have hload : loadActivePositions (ofFile some s.files.active) = TradeRecorder.loadActivePositions s.files.active := by
    rw [loadActivePositions, items_ofFile, setItems_some]
    rfl
  exact congrArg (RawRecorder.mk · (embed s).files) hload

theorem stored_embed (s : TradeRecorder) (m : OrderedMap String ActivePosition) :
    (embed s).stored m = embed (saved s .done m) := rfl

/-- **On the files of `Recorder.lean` the two models do the same.** -/
theorem step_embed (s : TradeRecorder) (e : RawEvent) : (embed s).step e = embed (s.step e.event) := by
  cases e with
  | restart => exact new_embed s
  | call t c =>
    cases c with
    | recordBuy mint x q sig =>
      rw [step_recordBuy, RawEvent.event, Node.step_recordBuy]
      exact stored_embed s _
    | updatePrice mint x =>
      rcases hp : s.activePositions.get? mint with _ | p
      · rw [step_updatePrice_of_none hp, RawEvent.event, Node.step_updatePrice_of_none hp]
      · rw [step_updatePrice hp, RawEvent.event, Node.step_updatePrice hp]
        exact stored_embed s _
    | recordSell mint x q sig =>
      rcases hp : s.activePositions.get? mint with _ | p
      · rw [step_recordSell_of_none hp, RawEvent.event, Node.step_recordSell_of_none hp]
      · obtain ⟨file, hrun, hfile⟩ := appendClosedTrade_of_ne (s := (embed s).stored (s.activePositions.delete mint))
          (ofFile_ne_other _ _) t.today (closing t.ambient mint p x q sig)
        rcases hfile with ⟨text, hother, -⟩ | ⟨-, rfl⟩
        · exact absurd hother (ofFile_ne_other _ _ text)
        rw [step_recordSell hp, RawEvent.event, Node.step_recordSell x q sig hp rfl rfl rfl]
        refine hrun.trans (congrArg (fun files => RawRecorder.mk _ files) (congrArg₂ (RawFiles.mk _) ?_ ?_))
        · exact ofFile_append _ _ _
        · dsimp only [stored, embed]
          rw [ofFile_append]
          exact (Function.comp_update (ofFile Entry.record) s.files.daily t.today _).symm

end Embed

end RawRecorder

/-! ### What is kept -/

/-- The positions are read to the end. -/
def Loads (file : Content (Option ActivePosition)) : Prop := file.Reads ∧ none ∉ file.items

/-- Every call finds the files it writes readable. The file of the day may hold another value, since it is then
not written. -/
def RawEvent.Safe (s : RawRecorder) : RawEvent → Prop
  | .call _ (.recordBuy _ _ _ _) => Loads s.files.active
  | .call _ (.updatePrice mint _) => s.activePositions.has mint → Loads s.files.active
  | .call t (.recordSell mint _ _ _) => s.activePositions.has mint →
    Loads s.files.active ∧ s.files.closed.Reads ∧ ¬ (s.files.daily t.today).Breaks
  | .restart => True

namespace RawRecorder

/-- What the recorder has made of the files it began with, if it has closed some trades since: the closed trades
are there, old and new, and what was not read is as it was. -/
structure Kept (files : RawFiles) (since : List CompleteTradeRecord) (now : RawFiles) : Prop where
  trades : (↑(files.closed.items ++ since.map Entry.record) : Multiset Entry) ≤ ↑now.closed.items
  active : ¬ Loads files.active → now.active = files.active
  closed : ¬ files.closed.Reads → now.closed = files.closed
  daily : ∀ day, ¬ (files.daily day).Reads → now.daily day = files.daily day

/-- Each file is as in the beginning, or was written. -/
structure Origin (files now : RawFiles) : Prop where
  active : now.active = files.active ∨ Loads now.active
  closed : now.closed = files.closed ∨ now.closed.Reads
  daily : ∀ day, now.daily day = files.daily day ∨ (now.daily day).Reads

section Kept

variable {files : RawFiles} {s : RawRecorder} {e : RawEvent} {t : Moment} {mint : String} {p : ActivePosition}
  {since : List CompleteTradeRecord}

theorem loads_stored (s : RawRecorder) (m : OrderedMap String ActivePosition) : Loads (s.stored m).files.active :=
  ⟨trivial, by simp [stored, Content.items]⟩

theorem Origin.stored (h : Origin files s.files) (m : OrderedMap String ActivePosition) :
    Origin files (s.stored m).files :=
  ⟨Or.inr (loads_stored s m), h.closed, h.daily⟩

theorem Origin.appendClosedTrade (h : Origin files s.files) (today : String) (r : CompleteTradeRecord) :
    Origin files ((appendClosedTrade today r).run s).2.files := by
  by_cases hother : ∃ text, s.files.closed = .other text
  · obtain ⟨text, htext⟩ := hother
    rw [appendClosedTrade_of_other htext]
    exact h
  · obtain ⟨file, hrun, hfile⟩ := appendClosedTrade_of_ne (fun text htext => hother ⟨text, htext⟩) today r
    rw [hrun]
    refine ⟨h.active, Or.inr trivial, fun day => ?_⟩
    by_cases hday : day = today
    · subst hday
      dsimp only
      rw [Function.update_self]
      rcases hfile with ⟨text, htext, rfl⟩ | ⟨-, rfl⟩
      · exact htext ▸ h.daily day
      · exact Or.inr trivial
    · dsimp only
      rw [Function.update_of_ne hday]
      exact h.daily day

theorem Origin.step (h : Origin files s.files) (e : RawEvent) : Origin files (s.step e).files := by
  cases e with
  | restart => exact h
  | call t c =>
    cases c with
    | recordBuy mint x q sig => exact h.stored _
    | updatePrice mint x =>
      rcases hp : s.activePositions.get? mint with _ | p
      · rw [step_updatePrice_of_none hp]
        exact h
      · rw [step_updatePrice hp]
        exact h.stored _
    | recordSell mint x q sig =>
      rcases hp : s.activePositions.get? mint with _ | p
      · rw [step_recordSell_of_none hp]
        exact h
      · rw [step_recordSell hp]
        exact (h.stored _).appendClosedTrade _ _

theorem run_origin (files : RawFiles) (events : List RawEvent) : Origin files ((new files).run events).files := by
  induction events using List.reverseRecOn with
  | nil => exact ⟨Or.inl rfl, Or.inl rfl, fun _ => Or.inl rfl⟩
  | append_singleton events e ih =>
    rw [run_concat]
    exact ih.step e

/-! The calls that find the files readable. -/

/-- The closed trades are exactly the old and the new ones, in order, and what was not read is as it was. -/
structure Exact (files : RawFiles) (since : List CompleteTradeRecord) (now : RawFiles) : Prop where
  trades : now.closed.items = files.closed.items ++ since.map Entry.record
  active : ¬ Loads files.active → now.active = files.active
  closed : ¬ files.closed.Reads → now.closed = files.closed
  daily : ∀ day, ¬ (files.daily day).Reads → now.daily day = files.daily day

theorem Exact.kept (h : Exact files since s.files) : Kept files since s.files :=
  ⟨by rw [h.trades], h.active, h.closed, h.daily⟩

theorem Exact.stored (h : Exact files since s.files) (hloads : Loads s.files.active)
    (m : OrderedMap String ActivePosition) : Exact files since (s.stored m).files :=
  ⟨h.trades, fun hnot => absurd (h.active hnot ▸ hloads) hnot, h.closed, h.daily⟩

theorem Exact.appendClosedTrade (h : Exact files since s.files) (hreads : s.files.closed.Reads) {today : String}
    (hdaily : ¬ (s.files.daily today).Breaks) (r : CompleteTradeRecord) :
    Exact files (since ++ [r]) ((appendClosedTrade today r).run s).2.files := by
  obtain ⟨file, hrun, hfile⟩ := appendClosedTrade_of_ne hreads.ne_other today r
  rw [hrun]
  refine ⟨?_, h.active, fun hnot => absurd (h.closed hnot ▸ hreads) hnot, fun day hnot => ?_⟩
  · show s.files.closed.items ++ [.record r] = _
    rw [h.trades, List.map_append, List.append_assoc]
    rfl
  · have hday := h.daily day hnot
    dsimp only
    by_cases heq : day = today
    · subst heq
      rw [Function.update_self]
      rcases hfile with ⟨text, htext, rfl⟩ | ⟨hne, -⟩
      · exact htext ▸ hday
      · -- A file that does not read, is no other value and parses: there is none.
        rw [hday] at hne hdaily
        cases hd : files.daily day with
        | absent | array _ => exact absurd (hd ▸ trivial) hnot
        | other text => exact absurd hd (hne text)
        | broken text => exact absurd (hd ▸ trivial) hdaily
    · rw [Function.update_of_ne heq]
      exact hday

theorem has_of_get? (h : s.activePositions.get? mint = some p) : s.activePositions.has mint = true := by
  rw [OrderedMap.has, h]
  rfl

theorem Exact.step (h : Exact files since s.files) (hsafe : e.Safe s) :
    Exact files (since ++ s.closes e) (s.step e).files := by
  cases e with
  | restart =>
    rw [show s.closes .restart = [] from rfl, List.append_nil]
    exact h
  | call t c =>
    cases c with
    | recordBuy mint x q sig =>
      rw [step_recordBuy]
      simpa [closes] using h.stored hsafe _
    | updatePrice mint x =>
      rcases hp : s.activePositions.get? mint with _ | p
      · rw [step_updatePrice_of_none hp]
        simpa [closes] using h
      · rw [step_updatePrice hp]
        simpa [closes] using h.stored (hsafe (has_of_get? hp)) _
    | recordSell mint x q sig =>
      rcases hp : s.activePositions.get? mint with _ | p
      · rw [step_recordSell_of_none hp]
        simpa [closes, hp] using h
      · obtain ⟨hactive, hclosed, hdaily⟩ := hsafe (has_of_get? hp)
        rw [step_recordSell hp]
        simp only [closes, hp]
        exact (h.stored hactive _).appendClosedTrade hclosed hdaily _

theorem exact_new (files : RawFiles) : Exact files [] (new files).files :=
  ⟨by simp [new], fun _ => rfl, fun _ => rfl, fun _ _ => rfl⟩

/-! A call that does not find them so. -/

/-- Positions that were not read are overwritten. -/
theorem Kept.loads {m : OrderedMap String ActivePosition} {now : RawFiles} (h : Kept files since now)
    (horigin : Origin files s.files) (hnow : now.active = (s.stored m).files.active) : Loads s.files.active := by
  by_contra hnot
  rcases horigin.active with hsame | hloads
  · rw [hsame] at hnot
    have hkept := h.active hnot
    rw [hnow] at hkept
    exact hnot (hkept ▸ loads_stored s m)
  · exact hnot hloads

/-- A trade that is closed is missing where the closed trades are another value, and is all there is where they
do not parse. -/
theorem Kept.closed_reads {today : String} {r : CompleteTradeRecord} (horigin : Origin files s.files)
    (h : Kept files (since ++ [r]) ((RawRecorder.appendClosedTrade today r).run s).2.files) : s.files.closed.Reads := by
  by_contra hnot
  have hsame : s.files.closed = files.closed := horigin.closed.resolve_right hnot
  by_cases hother : ∃ text, s.files.closed = .other text
  · obtain ⟨text, htext⟩ := hother
    have hle := Multiset.card_le_card h.trades
    rw [appendClosedTrade_of_other htext, htext] at hle
    simp [Content.items] at hle
  · obtain ⟨file, hrun, -⟩ := appendClosedTrade_of_ne (fun text htext => hother ⟨text, htext⟩) today r
    rw [hrun] at h
    rw [hsame] at hnot
    exact hnot (h.closed hnot ▸ trivial)

/-- So is a trade where those of the day do not parse. -/
theorem Kept.daily_parses {today : String} {r : CompleteTradeRecord} (horigin : Origin files s.files)
    (hreads : s.files.closed.Reads)
    (h : Kept files (since ++ [r]) ((RawRecorder.appendClosedTrade today r).run s).2.files) :
    ¬ (s.files.daily today).Breaks := by
  intro hbreaks
  have hnot : ¬ (s.files.daily today).Reads := by
    cases hd : s.files.daily today with
    | broken text => exact id
    | absent | array _ | other _ => exact absurd hbreaks (by simp [hd, Content.Breaks])
  have hsame : s.files.daily today = files.daily today := (horigin.daily today).resolve_right hnot
  obtain ⟨file, hrun, hfile⟩ := appendClosedTrade_of_ne hreads.ne_other today r
  rw [hsame] at hnot
  have hkept := h.daily today hnot
  rw [hrun] at hkept
  dsimp only at hkept
  rw [Function.update_self] at hkept
  rcases hfile with ⟨text, htext, -⟩ | ⟨-, rfl⟩
  · rw [htext] at hbreaks
    exact hbreaks
  · exact hnot (hkept ▸ trivial)

theorem safe_of_kept (horigin : Origin files s.files) (h : Kept files (since ++ s.closes e) (s.step e).files) :
    e.Safe s := by
  cases e with
  | restart => trivial
  | call t c =>
    cases c with
    | recordBuy mint x q sig => exact h.loads horigin rfl
    | updatePrice mint x =>
      intro hheld
      obtain ⟨p, hp⟩ := Option.isSome_iff_exists.mp hheld
      rw [step_updatePrice hp] at h
      exact h.loads horigin rfl
    | recordSell mint x q sig =>
      intro hheld
      obtain ⟨p, hp⟩ := Option.isSome_iff_exists.mp hheld
      have horigin' := horigin.stored (s.activePositions.delete mint)
      rw [step_recordSell hp] at h
      simp only [closes, hp] at h
      have hreads : s.files.closed.Reads := Kept.closed_reads (s := s.stored (s.activePositions.delete mint)) horigin' h
      refine ⟨?_, hreads, Kept.daily_parses (s := s.stored (s.activePositions.delete mint)) horigin' hreads h⟩
      obtain ⟨file, hrun, -⟩ := appendClosedTrade_of_ne (s := s.stored (s.activePositions.delete mint))
        hreads.ne_other t.today (TradeRecorder.closing t.ambient mint p x q sig)
      rw [hrun] at h
      exact h.loads horigin (m := s.activePositions.delete mint) rfl

end Kept

/-- **What is kept.** On any contents of the files and for every sequence of calls and restarts: after each of
them the closed trades hold those that were there and those that were closed since, and what was not read is not
overwritten, if and only if each call finds the files that it writes readable. -/
theorem kept_iff (files : RawFiles) (events : List RawEvent) :
    (∀ before, before <+: events → Kept files ((new files).newlyClosed before) ((new files).run before).files) ↔
      ∀ before e, before ++ [e] <+: events → e.Safe ((new files).run before) := by
  refine Prefixes.property_iff_steps
    (I := fun before => Exact files ((new files).newlyClosed before) ((new files).run before).files)
    (exact_new files) (fun before e _ hexact hsafe => ?_) (fun before _ hexact => hexact.kept)
    fun before e _ _ hkept => ?_
  · rw [run_concat, newlyClosed_concat]
    exact hexact.step hsafe
  · rw [run_concat, newlyClosed_concat] at hkept
    exact safe_of_kept (run_origin files before) hkept

end RawRecorder

/-- A directory whose closed trades were cut short. -/
def sampleBroken : RawFiles := ⟨.absent, .broken "[\n  \x7b", fun _ => .absent⟩

/-- A mint is bought and sold. -/
def sampleRound : List RawEvent :=
  [.call ⟨0, "2024-01-01"⟩ (.recordBuy "m" 2 1000 "b"), .call ⟨1000, "2024-01-01"⟩ (.recordSell "m" 2 1000 "s")]

/-- What was left of the closed trades is overwritten with the new one. -/
theorem broken_overwritten : ¬ RawRecorder.Kept sampleBroken ((RawRecorder.new sampleBroken).newlyClosed sampleRound)
    ((RawRecorder.new sampleBroken).run sampleRound).files := by
  intro h
  have hclosed := h.closed id
  revert hclosed
  decide +kernel

end PumpSwapBot.Node
