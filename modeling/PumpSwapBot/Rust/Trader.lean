import PumpSwapBot.Rust.Record
import PumpSwapBot.Sdk.Client
import Mathlib.Data.Rat.Floor

/-!
# The trader

`Trader` of `trading.rs` with its configuration (`config.rs`): fetching the data of a mint's pool,
and the buy and the sell the bot makes of them.

## The model

* Of `BotConfig` there are the fields the trader and the strategy read; `f64` is read as the exact
  rational.
* What the outside answers the calls of one operation is a parameter (`Answers`): the node, and the
  SDK's `buy` and `sell`, which are `TradingClient.buy` and `sell` where a theorem is about what the
  SDK does.
* `diagnose_pool_address` only writes to the log, and is left out with the rest of the log.

## What is proved

* `fetchTradeInfoWithRetry_eq_ok` — data come from the first attempt that succeeds.
* `Trader.buy_outcome_eq_ok` and `Trader.sell_outcome_eq_ok` — the exits of a buy and of a sell: only a
  buy returns `Ok` without a successful call of the SDK.
-/

namespace PumpSwapBot.Rust

open PumpSwapBot.Sdk PumpSwapBot.Library

/-! ### Configuration -/

/-- The configuration, with the defaults of fields that may be missing. -/
structure BotConfig where
  rpcUrl : String
  buyAmountSol : ℚ
  slippageBps : UInt64
  maxRetries : UInt32 := 5
  retryDelayMs : UInt64 := 1000
  jitoEnabled : Bool := false
  jitoUuid : Option String := none
  jitoRegion : String := "Frankfurt"
  maxTradesPerToken : UInt64 := 1000
  buyThresholdPct : ℚ := 10
  buyRecordCount : UInt64 := 5
  sellProfitPct : ℚ := 10
  sellStopLossPct : ℚ := 5

/-- The conversion `as u64` of an `f64`: towards zero, and the nearest `u64` beyond the range. -/
def u64OfF64 (x : ℚ) : UInt64 := asU64 (min ⌊x⌋.toNat (2 ^ 64 - 1))

/-- What a buy spends. -/
def BotConfig.buyAmountLamports (config : BotConfig) : UInt64 := u64OfF64 (config.buyAmountSol * 1000000000)

/-! ### Trade data -/

/-- The text of the constant below is one of an address. -/
theorem mayhemFeeRecipientSwap_isSome :
    (Base58.decode 32 "8N3GDaZ2iwN65oxVatKTLPNooAVUJTbfiVJ1ahyqwjSk").isSome = true := by
  decide +kernel

/-- The bot's constant for mayhem mode. -/
def mayhemFeeRecipientSwap : Pubkey :=
  pubkey "8N3GDaZ2iwN65oxVatKTLPNooAVUJTbfiVJ1ahyqwjSk" mayhemFeeRecipientSwap_isSome

/-- What the bot keeps of a pool. -/
structure TradeInfo where
  pool : Pubkey
  baseMint : Pubkey
  quoteMint : Pubkey
  poolBaseTokenAccount : Pubkey
  poolQuoteTokenAccount : Pubkey
  poolBaseTokenReserves : UInt64
  poolQuoteTokenReserves : UInt64
  coinCreatorVaultAta : Pubkey
  coinCreatorVaultAuthority : Pubkey
  baseTokenProgram : Pubkey
  quoteTokenProgram : Pubkey
  feeRecipient : Pubkey
  isCashbackCoin : Bool
  isMayhemMode : Bool
  deriving DecidableEq

/-- Keep the SDK's parameters; mayhem mode is kept twice, as a flag and as a fee recipient. -/
def TradeInfo.fromPumpswapParams (params : PumpSwapParams) : TradeInfo where
  pool := params.pool
  baseMint := params.baseMint
  quoteMint := params.quoteMint
  poolBaseTokenAccount := params.poolBaseTokenAccount
  poolQuoteTokenAccount := params.poolQuoteTokenAccount
  poolBaseTokenReserves := params.poolBaseTokenReserves
  poolQuoteTokenReserves := params.poolQuoteTokenReserves
  coinCreatorVaultAta := params.coinCreatorVaultAta
  coinCreatorVaultAuthority := params.coinCreatorVaultAuthority
  baseTokenProgram := params.baseTokenProgram
  quoteTokenProgram := params.quoteTokenProgram
  feeRecipient := if params.isMayhemMode then mayhemFeeRecipientSwap else Pubkey.default
  isCashbackCoin := params.isCashbackCoin
  isMayhemMode := params.isMayhemMode

/-- The SDK's parameters again, through `fromTrade`. -/
def buildPumpswapParamsFromTradeInfo (info : TradeInfo) : PumpSwapParams :=
  .fromTrade info.pool info.baseMint info.quoteMint info.poolBaseTokenAccount info.poolQuoteTokenAccount
    info.poolBaseTokenReserves info.poolQuoteTokenReserves info.coinCreatorVaultAta info.coinCreatorVaultAuthority
    info.baseTokenProgram info.quoteTokenProgram info.feeRecipient info.isCashbackCoin

/-- The price of a pool: quote reserves for base reserves. -/
def calculatePriceFromPool (info : TradeInfo) : ℚ :=
  if (info.poolBaseTokenReserves.toNat : ℚ) = 0 then 0
  else (info.poolQuoteTokenReserves.toNat : ℚ) / info.poolBaseTokenReserves.toNat

/-! ### The trader -/

/-- What the SDK's `buy` and `sell` return. -/
abbrev SwapOutcome := Bool × List Signature × Option TradeError

/-- A character in the text of `{:?}` of a text; those beyond ASCII are taken to be printable. -/
def debugChar (c : Char) : String :=
  if c.toNat = 0 then "\\0"
  else if c.toNat = 9 then "\\t"
  else if c.toNat = 10 then "\\n"
  else if c.toNat = 13 then "\\r"
  else if c.toNat = 34 ∨ c.toNat = 92 then "\\" ++ c.toString
  else if c.toNat < 32 ∨ c.toNat = 127 then "\\u\x7b" ++ String.ofList (Nat.toDigits 16 c.toNat) ++ "\x7d"
  else c.toString

/-- The text of `{:?}` of the SDK's error. -/
def debugTradeError : Option TradeError → String
  | none => "None"
  | some err => "Some(TradeError \x7b code: " ++ toString err.code ++ ", message: \""
      ++ String.join (err.message.toList.map debugChar) ++ "\", instruction: "
      ++ (match err.instruction with
        | none => "None"
        | some i => "Some(" ++ toString i ++ ")") ++ " \x7d)"

/-- The answers to the calls of one operation. -/
structure Answers where
  /-- The node, during an attempt to fetch trade data. -/
  rpc : ℕ → Rpc
  /-- The SOL in the wallet. -/
  walletBalance : Except Error UInt64
  /-- The text of the amount in a token account. -/
  tokenBalance : Pubkey → Except Error String
  blockhash : Except Error Hash
  /-- The SDK's `buy`. -/
  buy : TradeBuyParams → Result SwapOutcome
  /-- The SDK's `sell`. -/
  sell : TradeSellParams → Result SwapOutcome

/-- The trader. -/
structure Trader where
  client : TradingClient
  slippageBps : UInt64
  maxRetries : UInt32
  retryDelayMs : UInt64
  /-- The price of the latest buy. -/
  buyPrice : Option ℚ
  /-- What the latest buy spent. -/
  buySolAmount : UInt64

/-- The lower case of a text, as far as it can be ASCII: besides the capital letters that is the
Kelvin sign. -/
def toLowercase (s : String) : String := s.map fun c => if c.toNat = 0x212A then 'k' else c.toLower

/-- The region of a configured text. -/
def parseJitoRegion (region : String) : SwqosRegion :=
  match toLowercase region with
  | "frankfurt" => .frankfurt
  | "newyork" => .newYork
  | "tokyo" => .tokyo
  | "amsterdam" => .amsterdam
  | _ => .frankfurt

/-- The configured Jito channel. -/
def jitoConfig (config : BotConfig) : SwqosConfig :=
  .jito (config.jitoUuid.getD "") (parseJitoRegion config.jitoRegion) none

/-- The channels to be connected: Jito alone, or the plain RPC alone. -/
def swqosConfigs (config : BotConfig) : List SwqosConfig :=
  if config.jitoEnabled then [jitoConfig config] else [.default config.rpcUrl]

namespace Trader

/-- The trader of a configuration and a wallet, for given outcomes of connecting the channels. -/
def newWithOptions (config : BotConfig) (payer : Pubkey) (outcome : SwqosConfig → InitOutcome)
    (fallback : InitOutcome) : Trader where
  client := {
    payer := payer
    swqosClients := tradingInfrastructure config.rpcUrl (swqosConfigs config) outcome fallback
    useSeedOptimize := false
    checkMinTip := false }
  slippageBps := config.slippageBps
  maxRetries := config.maxRetries
  retryDelayMs := config.retryDelayMs
  buyPrice := none
  buySolAmount := 0

variable (e : Env) (t : Trader)

/-! ### Fetching trade data -/

/-- One attempt: find the pool and read its balances. Only the message of an error is kept. -/
def attemptFetch (rpc : Rpc) (mint : Pubkey) : Result (Except Error TradeInfo) := do
  match ← caught (findByMint e.derivation rpc mint) with
  | .ok (poolAddress, poolData) =>
    match ← caught (PumpSwapParams.fromPoolData e.derivation rpc poolAddress poolData) with
    | .ok params => return .ok (TradeInfo.fromPumpswapParams params)
    | .error err => return .error (anyhow err.msg)
  | .error err => return .error (anyhow err.msg)

/-- The wait after an attempt that is not the last. -/
def retryDelay (attempt remaining : ℕ) : Result Unit :=
  if remaining = 0 then .ok () else (mulU64 e.profile t.retryDelayMs (asU64 (attempt + 1))).map fun _ => ()

/-- The text of the error after the last attempt. -/
def fetchFailure (lastError : Option Error) (mint : Pubkey) : String :=
  "Failed to fetch pool data after " ++ toString t.maxRetries ++ " attempts. Last error: "
    ++ (lastError.getD (anyhow "Unknown error")).msg ++ ". \nMint: " ++ mint.toText
    ++ " \nPossible causes: \n1) The token hasn't fully migrated to PumpSwap yet (check if bonding curve account still exists) \n2) RPC node is not fully synced \n3) The pool doesn't exist on PumpSwap \nIf the token is still in bonding curve stage, you may need to use PumpFun instead of PumpSwap."

/-- The attempts from one on, with so many left and the last error. -/
def fetchFrom (rpc : ℕ → Rpc) (mint : Pubkey) : ℕ → ℕ → Option Error → Result TradeInfo
  | 0, _, lastError => bail (t.fetchFailure lastError mint)
  | remaining + 1, attempt, _ => do
    match ← attemptFetch e (rpc attempt) mint with
    | .ok info => return info
    | .error err => do
      retryDelay e t attempt remaining
      fetchFrom rpc mint remaining (attempt + 1) (some err)

/-- The trade data of a mint. -/
def fetchTradeInfoWithRetry (rpc : ℕ → Rpc) (mint : Pubkey) : Result TradeInfo :=
  fetchFrom e t rpc mint t.maxRetries.toNat 0 none

/-! ### Buying and selling -/

/-- The fees of every trade. -/
def gasFeeStrategy : GasFeeStrategy :=
  GasFeeStrategy.new.setGlobalFeeStrategy 150000 150000 500000 500000 (1 / 10000) (1 / 10000)

/-- A recent block hash. -/
def getLatestBlockhash (a : Answers) : Result Hash :=
  context "Failed to get latest blockhash" (orFail a.blockhash)

/-- The order of a buy. -/
def buyParams (info : TradeInfo) (solAmount : UInt64) (recentBlockhash : Hash) : TradeBuyParams where
  inputTokenType := .wsol
  mint := info.baseMint
  inputTokenAmount := solAmount
  slippageBasisPoints := some t.slippageBps
  recentBlockhash := some recentBlockhash
  extensionParams := buildPumpswapParamsFromTradeInfo info
  waitTxConfirmed := true
  createInputTokenAta := true
  closeInputTokenAta := true
  createMintAta := true
  durableNonce := none
  fixedOutputTokenAmount := none
  gasFeeStrategy := gasFeeStrategy
  useExactSolAmount := some true

/-- The order of a sell. -/
def sellParams (info : TradeInfo) (tokenBalance : UInt64) (recentBlockhash : Hash) : TradeSellParams where
  outputTokenType := .wsol
  mint := info.baseMint
  inputTokenAmount := tokenBalance
  slippageBasisPoints := some t.slippageBps
  recentBlockhash := some recentBlockhash
  extensionParams := buildPumpswapParamsFromTradeInfo info
  waitTxConfirmed := true
  createOutputTokenAta := true
  closeOutputTokenAta := true
  durableNonce := none
  fixedOutputTokenAmount := none
  gasFeeStrategy := gasFeeStrategy
  withTip := false
  closeMintTokenAta := true

/-- The account whose balance a sell reads. -/
def balanceAccount (mint : Pubkey) : Pubkey := getAssociatedTokenAddress e.derivation t.client.payer mint

/-- The token balance of the wallet; one that cannot be read counts as 0. -/
def getTokenBalance (a : Answers) (mint : Pubkey) : UInt64 :=
  match a.tokenBalance (t.balanceAccount e mint) with
  | .ok amount => match parseU64 amount with
    | .ok balance => balance
    | .error _ => 0
  | .error _ => 0

/-- What is known of an operation when it has ended: the SDK call it made, if it came to that, and
what it returned itself. -/
structure Report (Params : Type) where
  /-- The order, and what the SDK made of it. -/
  call : Option (Params × Result SwapOutcome)
  outcome : Result Unit

/-- The SDK was called, and returned `Ok` with `success = true`. -/
def Report.succeeded {Params : Type} (r : Report Params) : Bool :=
  match r.call with
  | some (_, .ok (true, _)) => true
  | _ => false

/-- What an operation makes of the SDK's result. -/
def conclude (name : String) : Result SwapOutcome → Result Unit
  | .ok (true, _) => .ok ()
  | .ok (false, _, error) => bail (name ++ " failed: " ++ debugTradeError error)
  | .error (.err err) => bail (name ++ " error: " ++ err.msg)
  | .error (.panic msg) => .error (.panic msg)

/-- The part of the wallet that is not spent. -/
def gasReserveLamports : UInt64 := 10000000

/-- What the wallet must hold for a buy; the largest `u64` if the sum overflows. -/
def requiredBalance (solAmount : UInt64) : UInt64 :=
  if solAmount.toNat + gasReserveLamports.toNat < 2 ^ 64 then solAmount + gasReserveLamports
  else 0xffffffffffffffff

/-- What a buy does before it calls the SDK: get a block hash, unless the wallet holds too little. -/
def buyPreflight (a : Answers) (solAmount : UInt64) : Result (Option Hash) := do
  let walletBalance ← context "Failed to get wallet balance" (orFail a.walletBalance)
  if walletBalance < requiredBalance solAmount then return none
  else (context "Failed to get recent blockhash" (getLatestBlockhash a)).map some

/-- What a sell does before it calls the SDK: get the balance and a block hash. -/
def sellPreflight (a : Answers) (info : TradeInfo) : Result (UInt64 × Hash) := do
  let tokenBalance := t.getTokenBalance e a info.baseMint
  bailIf (tokenBalance = 0) ("No token balance to sell for mint: " ++ info.baseMint.toText)
  let recentBlockhash ← context "Failed to get recent blockhash" (getLatestBlockhash a)
  return (tokenBalance, recentBlockhash)

/-- Remember a buy. -/
def setBuyPrice (price : ℚ) (solAmount : UInt64) : Trader :=
  { t with buyPrice := some price, buySolAmount := solAmount }

/-- Buy. A wallet that holds too little is no error: the buy is skipped. -/
def buy (a : Answers) (info : TradeInfo) (solAmount : UInt64) : Report TradeBuyParams × Trader :=
  match buyPreflight a solAmount with
  | .error f => (⟨none, .error f⟩, t)
  | .ok none => (⟨none, .ok ()⟩, t)
  | .ok (some recentBlockhash) =>
    let params := t.buyParams info solAmount recentBlockhash
    let report : Report TradeBuyParams := ⟨some (params, a.buy params), conclude "Buy" (a.buy params)⟩
    (report, if report.succeeded then t.setBuyPrice (calculatePriceFromPool info) solAmount else t)

/-- Sell the whole balance. -/
def sell (a : Answers) (info : TradeInfo) : Report TradeSellParams :=
  match t.sellPreflight e a info with
  | .error f => ⟨none, .error f⟩
  | .ok (tokenBalance, recentBlockhash) =>
    let params := t.sellParams info tokenBalance recentBlockhash
    ⟨some (params, a.sell params), conclude "Sell" (a.sell params)⟩

/-! ### Every exit -/

section Cases

variable {e t}

theorem conclude_eq_ok {name : String} {r : Result SwapOutcome} {u : Unit} :
    conclude name r = .ok u ↔ ∃ rest, r = .ok (true, rest) := by
  rcases r with (_ | _) | ⟨_ | _, _⟩ <;> simp [conclude, bail]

theorem succeeded_iff {Params : Type} {params : Params} {r : Result SwapOutcome} {outcome : Result Unit} :
    (Report.mk (some (params, r)) outcome).succeeded = true ↔ ∃ rest, r = .ok (true, rest) := by
  rcases r with _ | ⟨_ | _, _⟩ <;> simp [Report.succeeded]

/-- The wallet holds what a buy needs, if its balance is known at all. -/
def Funded (a : Answers) (solAmount : UInt64) : Prop :=
  ∀ balance, a.walletBalance = .ok balance → requiredBalance solAmount ≤ balance

theorem buyPreflight_eq_none {a : Answers} {solAmount : UInt64} (h : buyPreflight a solAmount = .ok none) :
    ∃ balance, a.walletBalance = .ok balance ∧ balance < requiredBalance solAmount := by
  obtain ⟨balance, hb, h⟩ := bind_eq_ok.mp h
  refine ⟨balance, orFail_eq_ok.mp (context_eq_ok.mp hb), ?_⟩
  by_contra hlt
  rw [if_neg hlt] at h
  rcases hh : context "Failed to get recent blockhash" (getLatestBlockhash a) with _ | _ <;>
    rw [hh] at h <;> cases h

/-- **The exits of a buy**: it returns `Ok` exactly when the SDK filled it, or it was skipped because
the wallet holds too little. -/
theorem buy_outcome_eq_ok {a : Answers} {info : TradeInfo} {solAmount : UInt64} {u : Unit} :
    (t.buy a info solAmount).1.outcome = .ok u ↔
      (t.buy a info solAmount).1.succeeded = true ∨ buyPreflight a solAmount = .ok none := by
  simp only [buy]
  rcases buyPreflight a solAmount with _ | _ | hash
  · simp [Report.succeeded]
  · simp
  · dsimp only
    rw [conclude_eq_ok, succeeded_iff]
    simp

/-- A buy from a wallet that holds too little is skipped. -/
theorem buy_skipped (t : Trader) (info : TradeInfo) {a : Answers} {solAmount balance : UInt64}
    (hb : a.walletBalance = .ok balance) (hlt : balance < requiredBalance solAmount) :
    t.buy a info solAmount = (⟨none, .ok ()⟩, t) := by
  have h : buyPreflight a solAmount = .ok none := by
    simp only [buyPreflight]
    rw [hb, orFail, context_ok, ok_bind, if_pos hlt]
    rfl
  simp only [buy]
  rw [h]

/-- A buy from a wallet that holds enough returns `Ok` exactly when the SDK filled it. -/
theorem buy_outcome_of_funded {a : Answers} {info : TradeInfo} {solAmount : UInt64} {u : Unit}
    (h : Funded a solAmount) :
    (t.buy a info solAmount).1.outcome = .ok u ↔ (t.buy a info solAmount).1.succeeded = true := by
  rw [buy_outcome_eq_ok, or_iff_left]
  intro hskip
  obtain ⟨balance, hb, hlt⟩ := buyPreflight_eq_none hskip
  exact absurd (h balance hb) (UInt64.not_le.mpr hlt)

/-- **The exits of a sell**: it returns `Ok` exactly when the SDK filled it. -/
theorem sell_outcome_eq_ok {a : Answers} {info : TradeInfo} {u : Unit} :
    (t.sell e a info).outcome = .ok u ↔ (t.sell e a info).succeeded = true := by
  simp only [sell]
  rcases t.sellPreflight e a info with _ | ⟨balance, hash⟩
  · simp [Report.succeeded]
  · dsimp only
    rw [conclude_eq_ok, succeeded_iff]

/-- A buy from a wallet that holds enough, with a block hash, calls the SDK. -/
theorem buy_call (t : Trader) (info : TradeInfo) {a : Answers} {solAmount balance : UInt64} {hash : Hash}
    (hb : a.walletBalance = .ok balance) (hle : requiredBalance solAmount ≤ balance) (hh : a.blockhash = .ok hash) :
    (t.buy a info solAmount).1.call =
      some (t.buyParams info solAmount hash, a.buy (t.buyParams info solAmount hash)) := by
  have h : buyPreflight a solAmount = .ok (some hash) := by
    simp only [buyPreflight, getLatestBlockhash]
    rw [hb, hh, orFail, context_ok, ok_bind, if_neg (UInt64.not_lt.mpr hle)]
    rfl
  simp only [buy]
  rw [h]

/-- A sell of a balance that is not 0, with a block hash, calls the SDK. -/
theorem sell_call {t : Trader} {info : TradeInfo} {a : Answers} {hash : Hash}
    (hb : t.getTokenBalance e a info.baseMint ≠ 0) (hh : a.blockhash = .ok hash) :
    (t.sell e a info).call = some (t.sellParams info (t.getTokenBalance e a info.baseMint) hash,
      a.sell (t.sellParams info (t.getTokenBalance e a info.baseMint) hash)) := by
  have h : t.sellPreflight e a info = .ok (t.getTokenBalance e a info.baseMint, hash) := by
    simp [sellPreflight, getLatestBlockhash, bailIf_neg _ hb, hh, orFail, pure, Except.pure]
  simp [sell, h]

/-- What the SDK is called with in a buy. -/
theorem buy_call_eq {a : Answers} {info : TradeInfo} {solAmount : UInt64} {params : TradeBuyParams}
    {result : Result SwapOutcome} (h : (t.buy a info solAmount).1.call = some (params, result)) :
    ∃ hash, params = t.buyParams info solAmount hash := by
  simp only [buy] at h
  generalize buyPreflight a solAmount = preflight at h
  obtain f | _ | hash := preflight
  · cases h
  · cases h
  · cases h
    exact ⟨hash, rfl⟩

theorem buyPreflight_eq_some {a : Answers} {solAmount : UInt64} {hash : Hash}
    (h : buyPreflight a solAmount = .ok (some hash)) :
    ∃ balance, a.walletBalance = .ok balance ∧ a.blockhash = .ok hash := by
  obtain ⟨balance, hb, h⟩ := bind_eq_ok.mp h
  refine ⟨balance, orFail_eq_ok.mp (context_eq_ok.mp hb), ?_⟩
  by_cases hlt : balance < requiredBalance solAmount
  · rw [if_pos hlt] at h
    cases h
  · rw [if_neg hlt] at h
    rcases hh : context "Failed to get recent blockhash" (getLatestBlockhash a) with f | hash'
    · rw [hh] at h
      cases h
    · rw [hh] at h
      cases h
      exact orFail_eq_ok.mp (context_eq_ok.mp (context_eq_ok.mp hh))

/-- A buy that the SDK filled: the balance and a block hash were answered, and the SDK was called. -/
theorem buy_succeeded {a : Answers} {info : TradeInfo} {solAmount : UInt64}
    (h : (t.buy a info solAmount).1.succeeded = true) :
    ∃ balance hash rest, a.walletBalance = .ok balance ∧ a.blockhash = .ok hash ∧
      (t.buy a info solAmount).1.call =
        some (t.buyParams info solAmount hash, a.buy (t.buyParams info solAmount hash)) ∧
      a.buy (t.buyParams info solAmount hash) = .ok (true, rest) := by
  simp only [buy] at h ⊢
  rcases hpre : buyPreflight a solAmount with f | _ | hash
  · rw [hpre] at h
    cases h
  · rw [hpre] at h
    cases h
  · rw [hpre] at h
    obtain ⟨balance, hb, hh⟩ := buyPreflight_eq_some hpre
    obtain ⟨rest, hrest⟩ := succeeded_iff.mp h
    exact ⟨balance, hash, rest, hb, hh, rfl, hrest⟩

/-- What the SDK is called with in a sell. -/
theorem sell_call_eq {a : Answers} {info : TradeInfo} {params : TradeSellParams} {result : Result SwapOutcome}
    (h : (t.sell e a info).call = some (params, result)) :
    ∃ hash, params = t.sellParams info (t.getTokenBalance e a info.baseMint) hash := by
  simp only [sell] at h
  rcases hpreflight : t.sellPreflight e a info with f | ⟨balance, hash⟩
  · rw [hpreflight] at h
    cases h
  · rw [hpreflight] at h
    cases h
    simp only [sellPreflight] at hpreflight
    obtain ⟨_, -, hpreflight⟩ := bind_eq_ok.mp hpreflight
    obtain ⟨_, -, hpreflight⟩ := bind_eq_ok.mp hpreflight
    cases hpreflight
    exact ⟨_, rfl⟩

/-- An attempt that comes to trade data found a pool, and the data are the pool's. -/
theorem attemptFetch_eq_ok {rpc : Rpc} {mint : Pubkey} {info : TradeInfo}
    (h : attemptFetch e rpc mint = .ok (.ok info)) :
    ∃ r params, findByMint e.derivation rpc mint = .ok r ∧
      PumpSwapParams.fromPoolData e.derivation rpc r.1 r.2 = .ok params ∧
      info = TradeInfo.fromPumpswapParams params := by
  obtain ⟨found, hfound, h⟩ := bind_eq_ok.mp h
  rcases found with _ | ⟨address, pool⟩
  · cases h
  obtain ⟨built, hbuilt, h⟩ := bind_eq_ok.mp h
  rcases built with _ | params
  · cases h
  cases h
  exact ⟨_, params, caught_eq_ok hfound, caught_eq_ok hbuilt, rfl⟩

/-- The attempts are made in order, until one comes to trade data. -/
theorem fetchFrom_eq_ok {rpc : ℕ → Rpc} {mint : Pubkey} {info : TradeInfo} {remaining attempt : ℕ}
    {lastError : Option Error} (h : fetchFrom e t rpc mint remaining attempt lastError = .ok info) :
    ∃ i, attempt ≤ i ∧ i < attempt + remaining ∧ attemptFetch e (rpc i) mint = .ok (.ok info) ∧
      ∀ j, attempt ≤ j → j < i → ∃ err, attemptFetch e (rpc j) mint = .ok (.error err) := by
  induction remaining generalizing attempt lastError with
  | zero => cases h
  | succ remaining ih =>
    obtain ⟨result, hresult, h⟩ := bind_eq_ok.mp h
    rcases result with err | info'
    · obtain ⟨_, -, h⟩ := bind_eq_ok.mp h
      obtain ⟨i, hle, hlt, hi, hbefore⟩ := ih h
      refine ⟨i, by omega, by omega, hi, fun j hj hji => ?_⟩
      rcases Nat.eq_or_lt_of_le hj with rfl | hj
      · exact ⟨err, hresult⟩
      · exact hbefore j hj hji
    · cases h
      exact ⟨attempt, le_rfl, by omega, hresult, fun j hj hji => by omega⟩

/-- **Trade data come from the first attempt that succeeds.** -/
theorem fetchTradeInfoWithRetry_eq_ok {rpc : ℕ → Rpc} {mint : Pubkey} {info : TradeInfo}
    (h : t.fetchTradeInfoWithRetry e rpc mint = .ok info) :
    ∃ i < t.maxRetries.toNat, attemptFetch e (rpc i) mint = .ok (.ok info) ∧
      ∀ j < i, ∃ err, attemptFetch e (rpc j) mint = .ok (.error err) := by
  obtain ⟨i, -, hlt, hi, hbefore⟩ := fetchFrom_eq_ok h
  exact ⟨i, by omega, hi, fun j hj => hbefore j (Nat.zero_le j) hj⟩

end Cases

end Trader

end PumpSwapBot.Rust
