import PumpSwapBot.Library.Rounding
import PumpSwapBot.Sdk.Accounts

/-!
# Prices of the Node bot

How the Node bot prices a token: from the reserves of a pool (`Trader.calculatePriceFromPool` in
`trader.ts`), and from a swap event (`processPumpSwapEvent` in `grpcSubscriber.ts`,
`createTradeRecord` in `redisStore.ts`).

## The model

* A `number` is a double. Prices are computed from doubles operation by operation, and how each result is rounded is
  a parameter (`number`): `Rounding.binary64` is what the machine does, `Rounding.exact 53` reads a `number` as the exact
  rational. Times are whole numbers that a double holds exactly, and are not rounded.
* A `bigint` is a natural number; `Number` of it is the double next to it.
* Mints are addresses in the trade data and texts in the events, as in the source.
-/

namespace PumpSwapBot.Node

open PumpSwapBot.Sdk PumpSwapBot.Library

/-- What the bot keeps of a pool. -/
structure TradeInfo where
  pool : Pubkey
  baseMint : Pubkey
  quoteMint : Pubkey
  poolBaseTokenAccount : Pubkey
  poolQuoteTokenAccount : Pubkey
  poolBaseTokenReserves : ℕ
  poolQuoteTokenReserves : ℕ
  coinCreatorVaultAta : Pubkey
  coinCreatorVaultAuthority : Pubkey
  baseTokenProgram : Pubkey
  quoteTokenProgram : Pubkey
  feeRecipient : Pubkey
  isCashbackCoin : Bool
  isMayhemMode : Bool
  deriving DecidableEq

/-- The price of a pool. -/
def calculatePriceFromPool (number : Rounding 53) (tradeInfo : TradeInfo) : ℚ :=
  let baseReserves : ℚ := number.round tradeInfo.poolBaseTokenReserves
  let quoteReserves : ℚ := number.round tradeInfo.poolQuoteTokenReserves
  if baseReserves = 0 then 0 else number.div (number.div quoteReserves baseReserves) 1000

/-- The text of the mint of wrapped SOL. -/
def wsolMint : String := "So11111111111111111111111111111111111111112"

/-- A swap event. -/
structure PumpSwapEvent where
  baseMint : String
  quoteMint : String
  poolBaseTokenReserves : ℚ
  poolQuoteTokenReserves : ℚ
  timestamp : ℚ
  signature : String
  isBuy : Bool
  deriving DecidableEq

/-- What is handed to the store. -/
structure TransactionUpdate where
  mint : String
  tokenAmount : ℚ
  solAmount : ℚ
  isBuy : Bool
  signature : String
  blocktimeUs : ℚ
  deriving DecidableEq

/-- The update for an event: none unless one side is wrapped SOL, and the other side is the token. -/
def processPumpSwapEvent (event : PumpSwapEvent) : Option TransactionUpdate :=
  let isWsolBase := event.baseMint = wsolMint
  let isWsolQuote := event.quoteMint = wsolMint
  if ¬ isWsolBase ∧ ¬ isWsolQuote then none
  else some {
    mint := if isWsolBase then event.quoteMint else event.baseMint
    tokenAmount := if isWsolBase then event.poolQuoteTokenReserves else event.poolBaseTokenReserves
    solAmount := if isWsolBase then event.poolBaseTokenReserves else event.poolQuoteTokenReserves
    isBuy := event.isBuy
    signature := event.signature
    blocktimeUs := event.timestamp * 1000000 }

/-- A stored trade. -/
structure TokenTradeRecord where
  mint : String
  tokenAmount : ℚ
  solAmount : ℚ
  price : ℚ
  blocktimeUs : ℚ
  isBuy : Bool
  signature : String
  deriving DecidableEq

/-- The price of a token in SOL. -/
def calculatePriceFromAmounts (number : Rounding 53) (solAmount tokenAmount : ℚ) : ℚ :=
  if tokenAmount ≤ 0 then 0 else number.div (number.div solAmount tokenAmount) 1000

/-- The record of a trade. -/
def createTradeRecord (number : Rounding 53) (mint : String) (tokenAmount solAmount : ℚ) (isBuy : Bool)
    (signature : String) (blocktimeUs : ℚ) : TokenTradeRecord where
  mint := mint
  tokenAmount := tokenAmount
  solAmount := solAmount
  price := calculatePriceFromAmounts number solAmount tokenAmount
  blocktimeUs := blocktimeUs
  isBuy := isBuy
  signature := signature

/-- The record the store makes of an update. -/
def TransactionUpdate.record (number : Rounding 53) (u : TransactionUpdate) : TokenTradeRecord :=
  createTradeRecord number u.mint u.tokenAmount u.solAmount u.isBuy u.signature u.blocktimeUs

end PumpSwapBot.Node
