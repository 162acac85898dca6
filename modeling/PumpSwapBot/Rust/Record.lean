import PumpSwapBot.Sdk.Accounts
import Mathlib.Data.Rat.Defs
import Mathlib.Algebra.Field.Rat
import Mathlib.Algebra.Order.Field.Rat

/-!
# Trade records

From a swap event on the chain to the record the bot stores (`handle_event` in
`grpc_subscriber.rs`, `TokenTradeRecord` in `trading.rs`), and the record's way through JSON.

## The model

* `f64` is read as the exact rational, `i64` as an integer with `mulI64` for the one operation that
  can overflow.
* A JSON text is the business of `serde_json`: the text of a value and the value of a text are a
  parameter (`SerdeJson`). Which fields a record is written with and read from, the alias
  `timestamp` and the guess of seconds or microseconds are the bot's, and are here.
-/

namespace PumpSwapBot.Rust

open PumpSwapBot.Sdk

/-! ### Events -/

/-- What the bot reads of a PumpSwap event. -/
structure SwapEvent where
  baseMint : Pubkey
  quoteMint : Pubkey
  poolBaseTokenReserves : UInt64
  poolQuoteTokenReserves : UInt64
  /-- The time in seconds. -/
  timestamp : ℤ
  signature : String
  deriving DecidableEq

/-- The events the bot subscribes to. -/
inductive Event where
  | buy (e : SwapEvent)
  | sell (e : SwapEvent)
  deriving DecidableEq

/-- What is handed to the store task. -/
structure TransactionUpdate where
  mint : String
  tokenAmount : UInt64
  solAmount : UInt64
  isBuy : Bool
  signature : String
  blocktimeUs : ℤ
  deriving DecidableEq

/-- The product of two `i64` values. -/
def mulI64 (p : Profile) (a b : ℤ) : Result ℤ :=
  if -2 ^ 63 ≤ a * b ∧ a * b < 2 ^ 63 then .ok (a * b)
  else match p with
    | .dev => .error (.panic "attempt to multiply with overflow")
    | .release => .ok (Int.bmod (a * b) (2 ^ 64))

/-- The update for an event of either kind: none unless one side is wrapped SOL, and the other side
is the token. -/
def handleSwap (p : Profile) (isBuy : Bool) (e : SwapEvent) : Result (Option TransactionUpdate) := do
  let isWsolBase := e.baseMint = wsolTokenAccount
  let isWsolQuote := e.quoteMint = wsolTokenAccount
  if ¬ isWsolBase ∧ ¬ isWsolQuote then return none
  else
    let mint := if isWsolBase then e.quoteMint else e.baseMint
    let tokenAmount := if isWsolBase then e.poolQuoteTokenReserves else e.poolBaseTokenReserves
    let solAmount := if isWsolBase then e.poolBaseTokenReserves else e.poolQuoteTokenReserves
    let blocktimeUs ← mulI64 p e.timestamp 1000000
    return some { mint := mint.toText, tokenAmount, solAmount, isBuy, signature := e.signature, blocktimeUs }

/-- The update an event leads to. -/
def handleEvent (p : Profile) : Event → Result (Option TransactionUpdate)
  | .buy e => handleSwap p true e
  | .sell e => handleSwap p false e

/-! ### Records -/

/-- A stored trade. -/
structure TokenTradeRecord where
  mint : String
  tokenAmount : UInt64
  solAmount : UInt64
  price : ℚ
  blocktimeUs : ℤ
  isBuy : Bool
  signature : String
  deriving DecidableEq

namespace TokenTradeRecord

/-- The price of a token in SOL: lamports have nine decimals, tokens six. -/
def calculatePriceFromAmounts (solAmount tokenAmount : UInt64) : ℚ :=
  if tokenAmount > 0 then (solAmount.toNat : ℚ) / tokenAmount.toNat / 1000 else 0

/-- The record of an update. -/
def fromTransaction (mint : String) (tokenAmount solAmount : UInt64) (isBuy : Bool) (signature : String)
    (blocktimeUs : ℤ) : TokenTradeRecord where
  mint := mint
  tokenAmount := tokenAmount
  solAmount := solAmount
  price := if tokenAmount > 0 then (solAmount.toNat : ℚ) / tokenAmount.toNat / 1000 else 0
  blocktimeUs := blocktimeUs
  isBuy := isBuy
  signature := signature

/-- The price a record is used with. -/
def effectivePrice (r : TokenTradeRecord) : ℚ := r.price

end TokenTradeRecord

/-- The record the store task makes of an update. -/
def TransactionUpdate.record (u : TransactionUpdate) : TokenTradeRecord :=
  .fromTransaction u.mint u.tokenAmount u.solAmount u.isBuy u.signature u.blocktimeUs

/-! ### JSON -/

/-- A JSON value, with the numbers `serde_json` tells apart. -/
inductive Json where
  | null
  | bool (b : Bool)
  | int (n : ℤ)
  | float (q : ℚ)
  | str (s : String)
  | arr (items : List Json)
  | obj (fields : List (String × Json))

/-- The texts of `serde_json`. -/
structure SerdeJson where
  /-- The text of a value. -/
  toText : Json → String
  /-- The value of a text. -/
  parse : String → Option Json
  /-- The error for a text that is not a record. -/
  error : String → Error

/-- A record as JSON. -/
def TokenTradeRecord.toJson (r : TokenTradeRecord) : Json :=
  .obj [("mint", .str r.mint), ("token_amount", .int r.tokenAmount.toNat), ("sol_amount", .int r.solAmount.toNat),
    ("price", .float r.price), ("blocktime_us", .int r.blocktimeUs), ("is_buy", .bool r.isBuy),
    ("signature", .str r.signature)]

/-- The text a record is stored as, `serde_json::to_string`. -/
def TokenTradeRecord.encode (serde : SerdeJson) (r : TokenTradeRecord) : String := serde.toText r.toJson

/-- A number of seconds or microseconds, taken for seconds below 10^12. -/
def blocktimeOfInt (p : Profile) (n : ℤ) : Result ℤ :=
  if n < 1000000000000 then mulI64 p n 1000000 else .ok n

/-- The decimal text of an `i64`. -/
def parseI64 (s : String) : Option ℤ :=
  let (negative, digits) := match s.toList with
    | '-' :: cs => (true, cs)
    | '+' :: cs => (false, cs)
    | cs => (false, cs)
  if digits ≠ [] ∧ digits.all Char.isDigit then
    let n : ℤ := digits.foldl (fun n c => 10 * n + ((c.toNat - 48 : ℕ) : ℤ)) 0
    let n := if negative then -n else n
    if -2 ^ 63 ≤ n ∧ n < 2 ^ 63 then some n else none
  else none

/-- Read a time: a number, a text of a number, and otherwise the present. -/
def deserializeBlocktime (p : Profile) (now : ℤ) : Json → Result ℤ
  | .int n => if n < 2 ^ 63 then blocktimeOfInt p n else .ok now
  | .str s => match parseI64 s with
    | some n => blocktimeOfInt p n
    | none => .ok now
  | _ => .ok now

/-- The value of the field with one of the names; two of them are refused. -/
def lookupField (names : List String) (fields : List (String × Json)) : Option (Option Json) :=
  match fields.filter fun f => f.1 ∈ names with
  | [] => some none
  | [f] => some (some f.2)
  | _ => none

/-- Read a text. -/
def Json.asStr : Json → Option String
  | .str s => some s
  | _ => none

/-- Read a `u64`. -/
def Json.asU64 : Json → Option UInt64
  | .int n => if 0 ≤ n ∧ n < 2 ^ 64 then some (Sdk.asU64 n.toNat) else none
  | _ => none

/-- Read an `f64`. -/
def Json.asF64 : Json → Option ℚ
  | .int n => some n
  | .float q => some q
  | _ => none

/-- Read a Boolean. -/
def Json.asBool : Json → Option Bool
  | .bool b => some b
  | _ => none

/-- The value of a field that must be there. -/
def requiredField {α : Type} (read : Json → Option α) (name : String) (fields : List (String × Json)) : Option α :=
  (lookupField [name] fields).bind fun v => v.bind read

/-- The names of a record's fields, in order. -/
def recordFields : List String :=
  ["mint", "token_amount", "sol_amount", "price", "blocktime_us", "is_buy", "signature"]

/-- The fields of a record's JSON: an object's own, or an array's by position. -/
def fieldsOfJson : Json → Option (List (String × Json))
  | .obj fields => some fields
  | .arr items => if items.length ≤ recordFields.length then some (recordFields.zip items) else none
  | _ => none

/-- A record from its fields, for the time that its own field stands for. -/
def recordOfFields (fields : List (String × Json)) : Option ((ℤ → TokenTradeRecord) × Json) := do
  let mint ← requiredField Json.asStr "mint" fields
  let tokenAmount ← requiredField Json.asU64 "token_amount" fields
  let solAmount ← requiredField Json.asU64 "sol_amount" fields
  let price ← requiredField Json.asF64 "price" fields
  let time ← (lookupField ["blocktime_us", "timestamp"] fields).join
  let isBuy ← requiredField Json.asBool "is_buy" fields
  let signature ← (← lookupField ["signature"] fields).elim (some "") Json.asStr
  return (fun blocktimeUs => { mint, tokenAmount, solAmount, price, blocktimeUs, isBuy, signature }, time)

/-- Read a stored text, `serde_json::from_str`. -/
def TokenTradeRecord.decode (p : Profile) (serde : SerdeJson) (now : ℤ) (text : String) : Result TokenTradeRecord :=
  match ((serde.parse text).bind fieldsOfJson).bind recordOfFields with
  | some (record, time) => (deserializeBlocktime p now time).map record
  | none => .error (.err (serde.error text))

end PumpSwapBot.Rust
