import PumpSwapBot.Node.Price
import Mathlib.Algebra.Order.Field.Rat
import Mathlib.Data.List.Sort

/-!
# The store of the Node bot

The reading calls of `RedisStore` in `redisStore.ts`: the latest records of a mint, and what the strategy makes of
them.

## The model

* What the server answers is a parameter (`ReadReplies`); an answer that does not come is an exception, of which
  there is the message.
* `JSON.parse` is a parameter, from a text to the record it stands for. A text that does not parse is left out, as
  in the source; one that parses is taken to be a record, as the bot writes no others.
* How doubles are rounded is a parameter, as for the prices; a `number` that counts records is a natural number.
-/

namespace PumpSwapBot.Node

open PumpSwapBot.Library

/-- What the server answers a reading call. -/
structure ReadReplies where
  /-- The items of a list between two indices. -/
  lrange : String → ℤ → ℤ → Except String (List String)
  /-- The keys that match a pattern. -/
  keys : String → Except String (List String)

/-- The key of a mint's records. -/
def tradesKey (mint : String) : String := "trades:" ++ mint

/-- The newest first: `result.sort((a, b) => b.blocktimeUs - a.blocktimeUs)`. -/
def sortByBlocktime (records : List TokenTradeRecord) : List TokenTradeRecord :=
  records.insertionSort fun a b => b.blocktimeUs - a.blocktimeUs ≤ 0

/-- A text without the first place where another one occurs in it, `replace(pattern, '')`. -/
def removeFirst (pattern : List Char) : List Char → List Char
  | [] => []
  | c :: cs => if pattern.isPrefixOf (c :: cs) then (c :: cs).drop pattern.length else c :: removeFirst pattern cs

section Read

variable (number : Rounding 53) (parse : String → Option TokenTradeRecord) (r : ReadReplies)

/-- The latest records of a mint, newest first. -/
def getRecentTrades (mint : String) (limit : ℕ) : Except String (List TokenTradeRecord) := do
  let records ← r.lrange (tradesKey mint) 0 ((limit : ℤ) - 1)
  return sortByBlocktime (records.filterMap parse)

/-- The price of the latest record. -/
def getLatestPriceFromTrades (mint : String) : Except String (Option ℚ) := do
  let trades ← getRecentTrades parse r mint 1
  return trades.head?.map TokenTradeRecord.price

/-- The change of the price from the oldest to the newest of the latest records, in percent. -/
def calculatePriceChangeFromRecords (mint : String) (recordCount : ℕ) : Except String (Option ℚ) := do
  let trades ← getRecentTrades parse r mint recordCount
  if trades.length < 2 then return none
  else
    match trades.getLast?, trades.head? with
    | some oldest, some newest =>
      if oldest.price = 0 then return none
      else return some (number.mul (number.div (number.sub newest.price oldest.price) oldest.price) 100)
    | _, _ => return none

/-- The mints that have records. -/
def getActiveMints : Except String (List String) := do
  let keys ← r.keys "trades:*"
  return (keys.map fun k => String.ofList (removeFirst "trades:".toList k.toList)).filter fun k => k.length > 0

end Read

end PumpSwapBot.Node
