import PumpSwapBot.Library.OrderedMap
import PumpSwapBot.Library.Proc
import Mathlib.Data.Rat.Defs
import Mathlib.Algebra.Order.Field.Rat

/-!
# The trade recorder of the Node bot

`TradeRecorder` of `tradeRecorder.ts`: the positions that are open, in memory and in
`active_positions.json`, and the trades that are closed, in `closed_trades.json` and in a file for each day.

## The model

* A file is absent, holds a value, or holds a text that does not parse. `JSON.stringify` and `JSON.parse` are
  taken to lead from a value to itself, so that a file holds the value.
* `fs.writeFileSync` writes a whole file. What becomes of each write is a parameter (`WriteOutcome`): it can
  fail before or after the file is cut, and the process can end before, during and after it. A file that is
  cut short does not parse, since the text of an array ends with its bracket.
* A call ends with a value, with an exception, or with the process (`Halt`). What it did before stays done.
* The directory of the records is there: where it cannot be made, the bot does not start.

## What is proved

What each call leaves, whatever becomes of its writes (`SavedAs`): the positions in memory are those it means to save,
and the file has those, or what it had, or does not parse.
-/

namespace PumpSwapBot.Node

open PumpSwapBot.Library

/-! ### Files -/

/-- How a call ends early. -/
inductive Halt where
  /-- An exception, with its message. -/
  | thrown (msg : String)
  /-- The process ends. -/
  | stopped
  deriving DecidableEq

/-- What is on the disk at a path. -/
inductive File (α : Type) where
  | absent
  | content (a : α)
  /-- A text that does not parse. -/
  | unreadable
  deriving DecidableEq

/-- What becomes of a write. -/
inductive WriteOutcome where
  | done
  /-- It throws, and the file is as before. -/
  | refused (msg : String)
  /-- It throws, and the file is cut short. -/
  | torn (msg : String)
  /-- The process ends before it. -/
  | stopBefore
  /-- The process ends during it. -/
  | stopTorn
  /-- The process ends right after it. -/
  | stopAfter
  deriving DecidableEq

/-- The value of a file; another one if it is absent or does not parse, which is logged. -/
def File.readD {α : Type} (fallback : α) : File α → α
  | .content a => a
  | _ => fallback

/-- Write a value, `fs.writeFileSync`. -/
def File.write {α : Type} (outcome : WriteOutcome) (a : α) (f : File α) : Except Halt Unit × File α :=
  match outcome with
  | .done => (.ok (), .content a)
  | .refused msg => (.error (.thrown msg), f)
  | .torn msg => (.error (.thrown msg), .unreadable)
  | .stopBefore => (.error .stopped, f)
  | .stopTorn => (.error .stopped, .unreadable)
  | .stopAfter => (.error .stopped, .content a)

/-! ### Records -/

/-- A position that is open. -/
structure ActivePosition where
  mint : String
  buyPrice : ℚ
  buySolAmount : ℚ
  buyTimestamp : ℤ
  buySignature : String
  highestPrice : ℚ
  lowestPrice : ℚ
  deriving DecidableEq

/-- Whether a trade is over. -/
inductive TradeStatus where
  | open
  | closed
  deriving DecidableEq

/-- A trade with all that is known of it. -/
structure CompleteTradeRecord where
  id : String
  mint : String
  buyPrice : ℚ
  buySolAmount : ℚ
  buyTimestamp : ℤ
  buySignature : String
  sellPrice : Option ℚ
  sellSolAmount : Option ℚ
  sellTimestamp : Option ℤ
  sellSignature : Option String
  highestPrice : ℚ
  lowestPrice : ℚ
  holdTimeSeconds : Option ℤ
  profitLossPercent : Option ℚ
  profitLossSol : Option ℚ
  status : TradeStatus
  deriving DecidableEq

/-- The files of the recorder. -/
structure RecordFiles where
  active : File (List ActivePosition)
  closed : File (List CompleteTradeRecord)
  /-- The file of each day. -/
  daily : String → File (List CompleteTradeRecord)

/-- The recorder. -/
structure TradeRecorder where
  activePositions : OrderedMap String ActivePosition
  files : RecordFiles

/-- What surrounds a call: the time, the day, and what becomes of the writes. -/
structure Ambient where
  /-- `Date.now()`. -/
  now : ℤ
  /-- The day as a text. -/
  today : String
  active : WriteOutcome
  closed : WriteOutcome
  daily : WriteOutcome

/-- The files of an empty directory. -/
def RecordFiles.empty : RecordFiles := ⟨.absent, .absent, fun _ => .absent⟩

namespace TradeRecorder

/-- The positions that are read from a file. -/
def loadActivePositions (file : File (List ActivePosition)) : OrderedMap String ActivePosition :=
  .ofValues ActivePosition.mint (file.readD [])

/-- A new recorder on a directory. -/
def new (files : RecordFiles) : TradeRecorder := ⟨loadActivePositions files.active, files⟩

/-- Write the open positions. -/
def saveActivePositions (a : Ambient) : Proc TradeRecorder Halt Unit := do
  let s ← Proc.get
  let (result, file) := s.files.active.write a.active s.activePositions.values
  Proc.modify fun s => { s with files := { s.files with active := file } }
  Proc.ofExcept result

/-- Add a trade to the closed ones, and then to those of the day. -/
def appendClosedTrade (a : Ambient) (record : CompleteTradeRecord) : Proc TradeRecorder Halt Unit := do
  let s ← Proc.get
  let (result, file) := s.files.closed.write a.closed (s.files.closed.readD [] ++ [record])
  Proc.modify fun s => { s with files := { s.files with closed := file } }
  Proc.ofExcept result
  let s ← Proc.get
  let (result, file) := (s.files.daily a.today).write a.daily ((s.files.daily a.today).readD [] ++ [record])
  Proc.modify fun s => { s with files := { s.files with daily := Function.update s.files.daily a.today file } }
  Proc.ofExcept result

/-- The position of a buy. -/
def bought (a : Ambient) (mint : String) (buyPrice buySolAmount : ℚ) (signature : String) : ActivePosition where
  mint := mint
  buyPrice := buyPrice
  buySolAmount := buySolAmount
  buyTimestamp := a.now
  buySignature := signature
  highestPrice := buyPrice
  lowestPrice := buyPrice

/-- Record a buy. -/
def recordBuy (a : Ambient) (mint : String) (buyPrice buySolAmount : ℚ) (signature : String) :
    Proc TradeRecorder Halt Unit := do
  Proc.modify fun s =>
    { s with activePositions := s.activePositions.set mint (bought a mint buyPrice buySolAmount signature) }
  saveActivePositions a

/-- A position after another price was seen. -/
def seen (position : ActivePosition) (currentPrice : ℚ) : ActivePosition :=
  let position := if currentPrice > position.highestPrice then { position with highestPrice := currentPrice } else position
  if currentPrice < position.lowestPrice then { position with lowestPrice := currentPrice } else position

/-- Take note of a price of a mint that is held. -/
def updatePrice (a : Ambient) (mint : String) (currentPrice : ℚ) : Proc TradeRecorder Halt Unit := do
  let s ← Proc.get
  match s.activePositions.get? mint with
  | none => return ()
  | some position => do
    Proc.modify fun s => { s with activePositions := s.activePositions.set mint (seen position currentPrice) }
    saveActivePositions a

/-- The record of a trade that is closed. -/
def closing (a : Ambient) (mint : String) (position : ActivePosition) (sellPrice sellSolAmount : ℚ) (signature : String) :
    CompleteTradeRecord where
  id := mint ++ "_" ++ toString position.buyTimestamp
  mint := mint
  buyPrice := position.buyPrice
  buySolAmount := position.buySolAmount
  buyTimestamp := position.buyTimestamp
  buySignature := position.buySignature
  sellPrice := some sellPrice
  sellSolAmount := some sellSolAmount
  sellTimestamp := some a.now
  sellSignature := some signature
  highestPrice := position.highestPrice
  lowestPrice := position.lowestPrice
  holdTimeSeconds := some ((a.now - position.buyTimestamp) / 1000)
  profitLossPercent :=
    if position.buyPrice > 0 then some ((sellPrice - position.buyPrice) / position.buyPrice * 100) else none
  profitLossSol :=
    if position.buySolAmount > 0 ∧ sellSolAmount > 0 then some (sellSolAmount - position.buySolAmount) else none
  status := .closed

/-- Record a sell: the position is removed, and the trade added to the closed ones. -/
def recordSell (a : Ambient) (mint : String) (sellPrice sellSolAmount : ℚ) (signature : String) :
    Proc TradeRecorder Halt (Option CompleteTradeRecord) := do
  let s ← Proc.get
  match s.activePositions.get? mint with
  | none => return none
  | some position => do
    let record := closing a mint position sellPrice sellSolAmount signature
    Proc.modify fun s => { s with activePositions := s.activePositions.delete mint }
    saveActivePositions a
    appendClosedTrade a record
    return some record

/-- The open position of a mint. -/
def getActivePosition (s : TradeRecorder) (mint : String) : Option ActivePosition := s.activePositions.get? mint

/-- Whether a mint is held. -/
def isHolding (s : TradeRecorder) (mint : String) : Bool := s.activePositions.has mint

/-- The closed trades, as they are on the disk. -/
def getClosedTrades (s : TradeRecorder) : List CompleteTradeRecord := s.files.closed.readD []

/-! ### What a call leaves -/

theorem seen_eq (p : ActivePosition) (x : ℚ) :
    seen p x = { p with highestPrice := max p.highestPrice x, lowestPrice := min p.lowestPrice x } := by
  by_cases hhigh : p.highestPrice < x <;> by_cases hlow : x < p.lowestPrice <;>
    simp [seen, hhigh, hlow, max_eq_right_of_lt, min_eq_right_of_lt, not_lt.mp]

theorem seen_mint (p : ActivePosition) (x : ℚ) : (seen p x).mint = p.mint := by
  rw [seen_eq]

/-- The recorder after it saved some positions, well or not. -/
structure SavedAs (s : TradeRecorder) (m : OrderedMap String ActivePosition) (s' : TradeRecorder) : Prop where
  positions : s'.activePositions = m
  file : s'.files.active = s.files.active ∨ s'.files.active = .content m.values ∨ s'.files.active = .unreadable

section Effects

variable {a : Ambient} {mint : String} {s : TradeRecorder} {position : ActivePosition}

theorem savedAs_write (s : TradeRecorder) (m : OrderedMap String ActivePosition) (w : WriteOutcome) :
    SavedAs s m ⟨m, { s.files with active := (s.files.active.write w m.values).2 }⟩ := by
  cases w with
  | done | stopAfter => exact ⟨rfl, Or.inr (Or.inl rfl)⟩
  | refused _ | stopBefore => exact ⟨rfl, Or.inl rfl⟩
  | torn _ | stopTorn => exact ⟨rfl, Or.inr (Or.inr rfl)⟩

theorem recordBuy_savedAs (s : TradeRecorder) (a : Ambient) (mint : String) (p q : ℚ) (sig : String) :
    SavedAs s (s.activePositions.set mint (bought a mint p q sig)) ((recordBuy a mint p q sig).run s).2 :=
  savedAs_write s _ a.active

theorem updatePrice_run_of_none (h : s.activePositions.get? mint = none) (a : Ambient) (x : ℚ) :
    (updatePrice a mint x).run s = (.ok (), s) := by
  rw [updatePrice, Proc.bind_run_ok (Proc.get_run s), h]
  rfl

theorem updatePrice_run (h : s.activePositions.get? mint = some position) (a : Ambient) (x : ℚ) :
    (updatePrice a mint x).run s =
      (saveActivePositions a).run { s with activePositions := s.activePositions.set mint (seen position x) } := by
  rw [updatePrice, Proc.bind_run_ok (Proc.get_run s)]
  simp only [h]
  rw [Proc.bind_run_ok (Proc.modify_run _ s)]

theorem updatePrice_ok (ha : a.active = .done) (x : ℚ) (s : TradeRecorder) :
    ((updatePrice a mint x).run s).1 = .ok () := by
  rcases hactive : s.activePositions.get? mint with _ | position
  · rw [updatePrice_run_of_none hactive]
  · rw [updatePrice_run hactive, saveActivePositions, Proc.bind_run_ok (Proc.get_run _), ha]
    rfl

theorem updatePrice_savedAs (h : s.activePositions.get? mint = some position) (a : Ambient) (x : ℚ) :
    SavedAs s (s.activePositions.set mint (seen position x)) ((updatePrice a mint x).run s).2 := by
  rw [updatePrice_run h]
  exact savedAs_write s _ a.active

theorem recordSell_run_of_none (h : s.activePositions.get? mint = none) (a : Ambient) (p q : ℚ) (sig : String) :
    (recordSell a mint p q sig).run s = (.ok none, s) := by
  rw [recordSell, Proc.bind_run_ok (Proc.get_run s), h]
  rfl

/-- Adding a closed trade touches neither the positions nor their file. -/
theorem appendClosedTrade_frame (a : Ambient) (record : CompleteTradeRecord) (s : TradeRecorder) :
    ((appendClosedTrade a record).run s).2.activePositions = s.activePositions ∧
      ((appendClosedTrade a record).run s).2.files.active = s.files.active := by
  rcases a with ⟨now, today, active, closed, daily⟩
  cases closed with
  | done => exact ⟨rfl, rfl⟩
  | refused _ | torn _ | stopBefore | stopTorn | stopAfter => exact ⟨rfl, rfl⟩

theorem recordSell_savedAs (h : s.activePositions.get? mint = some position) (a : Ambient) (p q : ℚ) (sig : String) :
    SavedAs s (s.activePositions.delete mint) ((recordSell a mint p q sig).run s).2 := by
  have hsaved : SavedAs s (s.activePositions.delete mint)
      ((saveActivePositions a).run { s with activePositions := s.activePositions.delete mint }).2 :=
    savedAs_write s _ a.active
  rw [recordSell, Proc.bind_run_ok (Proc.get_run s)]
  simp only [h]
  rw [Proc.bind_run_ok (Proc.modify_run _ s)]
  rcases hsave : (saveActivePositions a).run { s with activePositions := s.activePositions.delete mint } with ⟨e | u, s₁⟩
  · rw [Proc.bind_run_error hsave]
    rw [hsave] at hsaved
    exact hsaved
  · rw [Proc.bind_run_ok hsave, Proc.bind_run]
    rw [hsave] at hsaved
    obtain ⟨hpositions, hfile⟩ := appendClosedTrade_frame a (closing a mint position p q sig) s₁
    have hafter : SavedAs s (s.activePositions.delete mint)
        ((appendClosedTrade a (closing a mint position p q sig)).run s₁).2 :=
      ⟨hpositions.trans hsaved.positions, hfile ▸ hsaved.file⟩
    rcases happend : (appendClosedTrade a (closing a mint position p q sig)).run s₁ with ⟨e | v, s₂⟩ <;>
      rw [happend] at hafter <;> exact hafter

/-! Which calls return. -/

theorem isHolding_eq (s : TradeRecorder) (mint : String) : s.isHolding mint = (s.activePositions.get? mint).isSome := rfl

theorem write_ok_iff {α : Type} (w : WriteOutcome) (x : α) (f : File α) :
    (∃ u, (f.write w x).1 = .ok u) ↔ w = .done := by
  cases w <;> simp [File.write]

theorem saveActivePositions_returns_iff : (saveActivePositions a).Returns s ↔ a.active = .done := by
  rw [saveActivePositions, Proc.returns_get_bind_iff, Proc.returns_modify_bind_iff, Proc.returns_ofExcept_iff]
  exact write_ok_iff _ _ _

theorem appendClosedTrade_returns_iff (record : CompleteTradeRecord) :
    (appendClosedTrade a record).Returns s ↔ a.closed = .done ∧ a.daily = .done := by
  rw [appendClosedTrade, Proc.returns_get_bind_iff, Proc.returns_modify_bind_iff, Proc.returns_ofExcept_bind_iff]
  simp only [Proc.returns_get_bind_iff, Proc.returns_modify_bind_iff, Proc.returns_ofExcept_iff, exists_and_right,
    write_ok_iff]

theorem recordBuy_returns_iff (p q : ℚ) (sig : String) :
    (recordBuy a mint p q sig).Returns s ↔ a.active = .done := by
  rw [recordBuy, Proc.returns_modify_bind_iff, saveActivePositions_returns_iff]

theorem updatePrice_returns_iff (x : ℚ) :
    (updatePrice a mint x).Returns s ↔ (s.isHolding mint = true → a.active = .done) := by
  rw [updatePrice, Proc.returns_get_bind_iff, isHolding_eq]
  rcases s.activePositions.get? mint with _ | position
  · simp
  · dsimp only
    rw [Proc.returns_modify_bind_iff, saveActivePositions_returns_iff]
    simp

theorem recordSell_returns_iff (p q : ℚ) (sig : String) :
    (recordSell a mint p q sig).Returns s ↔
      (s.isHolding mint = true → a.active = .done ∧ a.closed = .done ∧ a.daily = .done) := by
  rw [recordSell, Proc.returns_get_bind_iff, isHolding_eq]
  rcases s.activePositions.get? mint with _ | position
  · simp
  · dsimp only
    rw [Proc.returns_modify_bind_iff, Proc.returns_bind_iff]
    simp only [Proc.returns_bind_iff, Proc.returns_pure, and_true, exists_and_right]
    rw [← Proc.Returns, ← Proc.Returns, saveActivePositions_returns_iff, appendClosedTrade_returns_iff]
    simp

/-! What is held after a call. -/

theorem isHolding_recordBuy_of_ne {m : String} (h : m ≠ mint) (s : TradeRecorder) (a : Ambient) (p q : ℚ)
    (sig : String) : ((recordBuy a mint p q sig).run s).2.isHolding m = s.isHolding m := by
  rw [isHolding_eq, (recordBuy_savedAs s a mint p q sig).positions, OrderedMap.get?_set_of_ne h]
  rfl

/-- A price that is noted does not change what is held. -/
theorem isHolding_updatePrice (s : TradeRecorder) (a : Ambient) (mint : String) (x : ℚ) (m : String) :
    ((updatePrice a mint x).run s).2.isHolding m = s.isHolding m := by
  rcases h : s.activePositions.get? mint with _ | position
  · rw [updatePrice_run_of_none h]
  · rw [isHolding_eq, (updatePrice_savedAs h a x).positions]
    by_cases hm : m = mint
    · subst hm
      rw [OrderedMap.get?_set_self, isHolding_eq, h]
      rfl
    · rw [OrderedMap.get?_set_of_ne hm]
      rfl

theorem isHolding_recordSell_of_ne {m : String} (hm : m ≠ mint) (s : TradeRecorder) (a : Ambient) (p q : ℚ)
    (sig : String) : ((recordSell a mint p q sig).run s).2.isHolding m = s.isHolding m := by
  rcases h : s.activePositions.get? mint with _ | position
  · rw [recordSell_run_of_none h]
  · rw [isHolding_eq, (recordSell_savedAs h a p q sig).positions, OrderedMap.get?_delete_of_ne hm]
    rfl

end Effects

end TradeRecorder

end PumpSwapBot.Node
