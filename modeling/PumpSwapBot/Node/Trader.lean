import PumpSwapBot.Node.Price
import Mathlib.Data.Rat.Floor

/-!
# The trader of the Node bot

`Trader` of `trader.ts` with its configuration (`config.ts`): fetching the data of a mint's pool, and the buy and
the sell the bot makes of them.

## The model

* Of `BotConfig` there are the fields the trader and the strategy read, the number of attempts as a natural number. Of
  the `number`s only the prices are rounded.
* The package `sol-trade-sdk` and the node are parameters (`Answers`): what they answer the calls of one operation.
  An answer that does not come is an exception, of which there is the message.
* Whether an order becomes a transaction that lands on the chain is part of the answers (`buyLands`, `sellLands`).
  The code does not see it; the theorems are about it.
* `diagnosePoolAddress` only writes to the log, and is left out with the rest of the log and the waits.
-/

namespace PumpSwapBot.Node

open PumpSwapBot.Sdk PumpSwapBot.Library

/-! ### Configuration -/

/-- The configuration, with the defaults of fields that may be missing. -/
structure BotConfig where
  buyAmountSol : ℚ
  slippageBps : ℚ
  maxRetries : ℕ := 5
  buyThresholdPct : ℚ := 10
  buyRecordCount : ℕ := 5
  sellProfitPct : ℚ := 10
  sellStopLossPct : ℚ := 5

/-- What a buy spends. -/
def BotConfig.buyAmountLamports (config : BotConfig) : ℤ := ⌊config.buyAmountSol * 1000000000⌋

/-! ### Orders -/

/-- A pool as the SDK reads it, without the fields the bot does not use. -/
structure Pool where
  baseMint : Pubkey
  quoteMint : Pubkey
  poolBaseTokenAccount : Pubkey
  poolQuoteTokenAccount : Pubkey
  coinCreator : Pubkey
  isMayhemMode : Bool
  isCashbackCoin : Bool
  deriving DecidableEq

/-- The trade data of a pool and its reserves. -/
def convertPoolToTradeInfo (poolAddress : Pubkey) (pool : Pool) (baseReserves quoteReserves : ℕ) : TradeInfo where
  pool := poolAddress
  baseMint := pool.baseMint
  quoteMint := pool.quoteMint
  poolBaseTokenAccount := pool.poolBaseTokenAccount
  poolQuoteTokenAccount := pool.poolQuoteTokenAccount
  poolBaseTokenReserves := baseReserves
  poolQuoteTokenReserves := quoteReserves
  coinCreatorVaultAta := Pubkey.default
  coinCreatorVaultAuthority := pool.coinCreator
  baseTokenProgram := tokenProgram
  quoteTokenProgram := tokenProgram
  feeRecipient := Pubkey.default
  isCashbackCoin := pool.isCashbackCoin
  isMayhemMode := pool.isMayhemMode

/-- The fees of an order. -/
structure GasFeeStrategyConfig where
  buyPriorityFee : ℕ
  sellPriorityFee : ℕ
  buyComputeUnits : ℕ
  sellComputeUnits : ℕ
  buyTipLamports : ℕ
  sellTipLamports : ℕ
  deriving DecidableEq

/-- The fees of every order. -/
def createGasFeeStrategyConfig : GasFeeStrategyConfig where
  buyPriorityFee := 150000
  sellPriorityFee := 150000
  buyComputeUnits := 500000
  sellComputeUnits := 500000
  buyTipLamports := 100000
  sellTipLamports := 100000

/-- The SDK's parameters of a pool. -/
structure PumpSwapParams where
  pool : Pubkey
  baseMint : Pubkey
  quoteMint : Pubkey
  poolBaseTokenAccount : Pubkey
  poolQuoteTokenAccount : Pubkey
  poolBaseTokenReserves : ℚ
  poolQuoteTokenReserves : ℚ
  coinCreatorVaultAta : Pubkey
  coinCreatorVaultAuthority : Pubkey
  baseTokenProgram : Pubkey
  quoteTokenProgram : Pubkey
  isMayhemMode : Bool
  isCashbackCoin : Bool
  deriving DecidableEq

/-- The SDK's parameters of trade data. -/
def tradeInfoToPumpSwapParams (tradeInfo : TradeInfo) : PumpSwapParams where
  pool := tradeInfo.pool
  baseMint := tradeInfo.baseMint
  quoteMint := tradeInfo.quoteMint
  poolBaseTokenAccount := tradeInfo.poolBaseTokenAccount
  poolQuoteTokenAccount := tradeInfo.poolQuoteTokenAccount
  poolBaseTokenReserves := tradeInfo.poolBaseTokenReserves
  poolQuoteTokenReserves := tradeInfo.poolQuoteTokenReserves
  coinCreatorVaultAta := tradeInfo.coinCreatorVaultAta
  coinCreatorVaultAuthority := tradeInfo.coinCreatorVaultAuthority
  baseTokenProgram := tradeInfo.baseTokenProgram
  quoteTokenProgram := tradeInfo.quoteTokenProgram
  isMayhemMode := tradeInfo.isMayhemMode
  isCashbackCoin := tradeInfo.isCashbackCoin

/-- The parameters of an exchange. -/
inductive DexParamEnum where
  | pumpSwap (params : PumpSwapParams)
  deriving DecidableEq

/-- The exchange of every order. -/
inductive DexType where
  | pumpSwap
  deriving DecidableEq

/-- The token a buy is paid in, and a sell pays out. -/
inductive TradeTokenType where
  | wsol
  deriving DecidableEq

/-- The order of a buy. -/
structure TradeBuyParams where
  dexType : DexType
  inputTokenType : TradeTokenType
  mint : Pubkey
  inputTokenAmount : ℤ
  slippageBasisPoints : ℚ
  recentBlockhash : String
  extensionParams : DexParamEnum
  waitTxConfirmed : Bool
  createInputTokenAta : Bool
  closeInputTokenAta : Bool
  createMintAta : Bool
  gasFeeStrategy : GasFeeStrategyConfig
  deriving DecidableEq

/-- The order of a sell. -/
structure TradeSellParams where
  dexType : DexType
  outputTokenType : TradeTokenType
  mint : Pubkey
  inputTokenAmount : ℕ
  slippageBasisPoints : ℚ
  recentBlockhash : String
  extensionParams : DexParamEnum
  waitTxConfirmed : Bool
  createOutputTokenAta : Bool
  closeOutputTokenAta : Bool
  closeMintTokenAta : Bool
  gasFeeStrategy : GasFeeStrategyConfig
  deriving DecidableEq

/-- What the SDK reports of an order. -/
structure TradeResult where
  success : Bool
  signatures : List String
  /-- The text of the error, if there is one. -/
  error : Option String
  deriving DecidableEq

/-- What the trader reports of an order, `BuyResult` and `SellResult`. -/
structure OrderResult where
  success : Bool
  signatures : List String
  error : Option String
  price : ℚ
  deriving DecidableEq

/-- The answers to the calls of one operation. -/
structure Answers where
  /-- The pool of a mint, in each attempt. -/
  findByMint : ℕ → Pubkey → Except String (Option (Pubkey × Pool))
  /-- Its balances. -/
  getTokenBalances : ℕ → Pool → Except String (Option (ℕ × ℕ))
  /-- The SOL in the wallet. -/
  getBalance : Except String ℕ
  /-- The token accounts of the wallet for a mint. -/
  getTokenAccountsByOwner : Pubkey → Except String (List Pubkey)
  getTokenAccountBalance : Pubkey → Except String ℕ
  getLatestBlockhash : Except String String
  /-- The SDK's `buy`. -/
  buy : TradeBuyParams → Except String TradeResult
  /-- The SDK's `sell`. -/
  sell : TradeSellParams → Except String TradeResult
  /-- An order of a buy lands. -/
  buyLands : Bool
  /-- An order of a sell lands. -/
  sellLands : Bool

/-! ### The trader -/

/-- The trader. -/
structure Trader where
  slippageBps : ℚ
  maxRetries : ℕ
  /-- The price of the latest buy. -/
  buyPrice : Option ℚ
  /-- What the latest buy spent. -/
  buySolAmount : ℤ

/-- A text, or another one if it is empty or not there, `text || fallback`. -/
def orText (text : Option String) (fallback : String) : String :=
  match text with
  | some s => if s = "" then fallback else s
  | none => fallback

/-- What is known of an operation when it has ended: the order it gave, if it came to that, and what it returned. -/
structure Report (Params : Type) where
  order : Option Params
  outcome : Except String OrderResult

namespace Trader

/-- The trader of a configuration. -/
def fromConfig (config : BotConfig) : Trader where
  slippageBps := config.slippageBps
  maxRetries := config.maxRetries
  buyPrice := none
  buySolAmount := 0

variable (number : Rounding 53) (t : Trader) (a : Answers)

/-- One attempt: find the pool and read its balances. Balances that are not there count as 0. -/
def attemptFetch (attempt : ℕ) (mint : Pubkey) : Except String TradeInfo := do
  match ← a.findByMint attempt mint with
  | some (poolAddress, pool) => do
    let balances ← a.getTokenBalances attempt pool
    return convertPoolToTradeInfo poolAddress pool (balances.elim 0 Prod.fst) (balances.elim 0 Prod.snd)
  | none => throw ("No pool found for mint " ++ mint.toText)

/-- The text of the error after the last attempt. -/
def fetchFailure (lastError : Option String) (mint : Pubkey) : String :=
  "Failed to fetch pool data after " ++ toString t.maxRetries ++ " attempts. Last error: "
    ++ orText lastError "Unknown error" ++ ". \nMint: " ++ mint.toText
    ++ " \nPossible causes: \n1) The token hasn't fully migrated to PumpSwap yet \n2) RPC node is not fully synced \n3) The pool doesn't exist on PumpSwap"

/-- The attempts from one on, with so many left and the last error. -/
def fetchFrom (mint : Pubkey) : ℕ → ℕ → Option String → Except String TradeInfo
  | 0, _, lastError => throw (t.fetchFailure lastError mint)
  | remaining + 1, attempt, _ =>
    match attemptFetch a attempt mint with
    | .ok tradeInfo => .ok tradeInfo
    | .error e => fetchFrom mint remaining (attempt + 1) (some e)

/-- The trade data of a mint. -/
def fetchTradeInfoWithRetry (mint : Pubkey) : Except String TradeInfo := fetchFrom t a mint t.maxRetries 0 none

/-- The token balance of the wallet; one that cannot be read counts as 0. -/
def getTokenBalance (mint : Pubkey) : ℕ :=
  match a.getTokenAccountsByOwner mint with
  | .ok (account :: _) =>
    match a.getTokenAccountBalance account with
    | .ok amount => amount
    | .error _ => 0
  | _ => 0

/-- The order of a buy. -/
def buyParams (tradeInfo : TradeInfo) (solAmount : ℤ) (recentBlockhash : String) : TradeBuyParams where
  dexType := .pumpSwap
  inputTokenType := .wsol
  mint := tradeInfo.baseMint
  inputTokenAmount := solAmount
  slippageBasisPoints := t.slippageBps
  recentBlockhash := recentBlockhash
  extensionParams := .pumpSwap (tradeInfoToPumpSwapParams tradeInfo)
  waitTxConfirmed := true
  createInputTokenAta := true
  closeInputTokenAta := true
  createMintAta := true
  gasFeeStrategy := createGasFeeStrategyConfig

/-- The order of a sell. -/
def sellParams (tradeInfo : TradeInfo) (tokenBalance : ℕ) (recentBlockhash : String) : TradeSellParams where
  dexType := .pumpSwap
  outputTokenType := .wsol
  mint := tradeInfo.baseMint
  inputTokenAmount := tokenBalance
  slippageBasisPoints := t.slippageBps
  recentBlockhash := recentBlockhash
  extensionParams := .pumpSwap (tradeInfoToPumpSwapParams tradeInfo)
  waitTxConfirmed := true
  createOutputTokenAta := true
  closeOutputTokenAta := true
  closeMintTokenAta := true
  gasFeeStrategy := createGasFeeStrategyConfig

/-- The SDK reports a success with a signature. -/
def accepted : Except String TradeResult → Bool
  | .ok result => result.success && result.signatures.length > 0
  | .error _ => false

/-- What the trader reports of what the SDK reported. -/
def orderResult (noMessage : String) (currentPrice : ℚ) : Except String TradeResult → OrderResult
  | .ok result =>
    if result.success ∧ result.signatures.length > 0 then ⟨true, result.signatures, none, currentPrice⟩
    else ⟨false, [], some (result.error.getD noMessage), currentPrice⟩
  | .error e => ⟨false, [], some e, currentPrice⟩

/-- What is kept back for fees. -/
def gasReserveLamports : ℤ := 10000000

/-- Buy: without the funds the order is skipped, and a success without signatures reported. -/
def buy (tradeInfo : TradeInfo) (solAmount : ℤ) : Report TradeBuyParams × Trader :=
  match a.getBalance with
  | .error e => (⟨none, .error e⟩, t)
  | .ok walletBalance =>
    if (walletBalance : ℤ) < solAmount + gasReserveLamports then (⟨none, .ok ⟨true, [], none, 0⟩⟩, t)
    else
      let currentPrice := calculatePriceFromPool number tradeInfo
      match a.getLatestBlockhash with
      | .error e => (⟨none, .error e⟩, t)
      | .ok recentBlockhash =>
        let params := t.buyParams tradeInfo solAmount recentBlockhash
        let result := a.buy params
        (⟨some params, .ok (orderResult "Buy failed without error message" currentPrice result)⟩,
          if accepted result then { t with buyPrice := some currentPrice, buySolAmount := solAmount } else t)

/-- Sell all that the wallet has of the mint. -/
def sell (tradeInfo : TradeInfo) : Report TradeSellParams :=
  let tokenBalance := getTokenBalance a tradeInfo.baseMint
  if tokenBalance = 0 then
    ⟨none, .error ("No token balance to sell for mint: " ++ tradeInfo.baseMint.toText)⟩
  else
    match a.getLatestBlockhash with
    | .error e => ⟨none, .error e⟩
    | .ok recentBlockhash =>
      let params := t.sellParams tradeInfo tokenBalance recentBlockhash
      let currentPrice := calculatePriceFromPool number tradeInfo
      ⟨some params, .ok (orderResult "Sell failed without error message" currentPrice (a.sell params))⟩

/-! ### What an operation reports -/

section Reports

variable {number : Rounding 53} {t : Trader} {a : Answers} {info : TradeInfo} {amount : ℤ}

theorem orderResult_success (noMessage : String) (price : ℚ) (result : Except String TradeResult) :
    (orderResult noMessage price result).success = accepted result := by
  rcases result with e | result
  · rfl
  · by_cases h : result.success = true ∧ result.signatures.length > 0
    · simp [orderResult, accepted, h]
    · simp only [orderResult, accepted, if_neg h]
      simpa using h

theorem orderResult_price (noMessage : String) (price : ℚ) (result : Except String TradeResult) :
    (orderResult noMessage price result).price = price := by
  rcases result with e | result
  · rfl
  · by_cases h : result.success = true ∧ result.signatures.length > 0 <;> simp [orderResult, h]

theorem calculatePriceFromPool_pos_iff (number : Rounding 53) (info : TradeInfo) :
    0 < calculatePriceFromPool number info ↔ info.poolBaseTokenReserves ≠ 0 ∧ info.poolQuoteTokenReserves ≠ 0 := by
  simp only [calculatePriceFromPool]
  by_cases hbase : info.poolBaseTokenReserves = 0
  · simp [hbase]
  · have hpos : 0 < number.round info.poolBaseTokenReserves :=
      Rounding.round_pos (Nat.cast_pos.mpr (Nat.pos_of_ne_zero hbase))
    rw [if_neg hpos.ne', Rounding.pos_div_iff (by norm_num), Rounding.pos_div_iff hpos.le, Rounding.round_pos_iff,
      Nat.cast_pos, Nat.pos_iff_ne_zero]
    simp [hbase, hpos.ne']

/-- A buy that gave an order reports what the SDK reported of it. -/
theorem buy_order {order : TradeBuyParams} (h : (t.buy number a info amount).1.order = some order) :
    ∃ result, (t.buy number a info amount).1.outcome = .ok result ∧ result.success = accepted (a.buy order) := by
  revert h
  simp only [buy]
  rcases a.getBalance with e | balance
  · intro h
    cases h
  dsimp only
  by_cases hfunds : (balance : ℤ) < amount + gasReserveLamports
  · rw [if_pos hfunds]
    intro h
    cases h
  rw [if_neg hfunds]
  rcases a.getLatestBlockhash with e | hash
  · intro h
    cases h
  · intro h
    cases h
    exact ⟨_, rfl, orderResult_success _ _ _⟩

/-- A sell that reports anything gave an order, and reports what the SDK reported of it. -/
theorem sell_outcome {result : OrderResult} (h : (t.sell number a info).outcome = .ok result) :
    ∃ order, (t.sell number a info).order = some order ∧ result.success = accepted (a.sell order) := by
  revert h
  unfold sell
  dsimp only
  by_cases hbalance : getTokenBalance a info.baseMint = 0
  · rw [if_pos hbalance]
    intro h
    cases h
  rw [if_neg hbalance]
  rcases a.getLatestBlockhash with e | hash
  · intro h
    cases h
  · intro h
    cases h
    exact ⟨_, rfl, orderResult_success _ _ _⟩

/-- A buy has the funds, and if the SDK reports a success, the pool has reserves on both sides, and its price is one of
these. -/
def Arms (number : Rounding 53) (P : ℚ → Prop) (t : Trader) (a : Answers) (info : TradeInfo) (amount : ℤ) : Prop :=
  ∀ balance : ℕ, a.getBalance = .ok balance → amount + gasReserveLamports ≤ balance ∧
    ∀ hash, a.getLatestBlockhash = .ok hash → accepted (a.buy (t.buyParams info amount hash)) = true →
      (info.poolBaseTokenReserves ≠ 0 ∧ info.poolQuoteTokenReserves ≠ 0) ∧ P (calculatePriceFromPool number info)

/-- That is when a buy that is reported a success has a price, and one of these. -/
theorem arms_iff {P : ℚ → Prop} : Arms number P t a info amount ↔
    ∀ result, (t.buy number a info amount).1.outcome = .ok result → result.success = true →
      0 < result.price ∧ P result.price := by
  simp only [Arms, buy]
  rcases a.getBalance with e | balance
  · simp
  simp only [Except.ok.injEq, forall_eq']
  by_cases hfunds : (balance : ℤ) < amount + gasReserveLamports
  · simp [hfunds]
  rw [if_neg hfunds, ← calculatePriceFromPool_pos_iff number]
  rcases a.getLatestBlockhash with e | hash
  · simpa using hfunds
  · simpa [orderResult_success, orderResult_price] using fun _ => not_lt.mp hfunds

end Reports

end Trader

end PumpSwapBot.Node
