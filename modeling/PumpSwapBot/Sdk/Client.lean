import PumpSwapBot.Sdk.Instruction

/-!
# Executing a trade

From a trade's parameters to the tasks that send it (`TradingClient::buy` and `sell` in `lib.rs`,
`GenericTradeExecutor::swap`, `execute_parallel`): which channels a transaction goes to, with which
fees, and what the caller is told.

## The model

What the channels and the chain answer is a parameter (`Network`): the collected results of the
tasks, and the confirmation of what they sent. Everything before that is as in the source. The bot
trades on PumpSwap only, so the parameters are PumpSwap's, and it never simulates or uses an
address lookup table, so those fields are left out.

## What is proved

* `submitTasks_of_single` — a trade through one channel has one task, unless it may pay no tip and
  the channel is not the plain RPC.
* `submitTasks_ne_ok` — a trade that may pay no tip is refused when the plain RPC is not
  among the channels.
-/

namespace PumpSwapBot.Sdk

/-! ### Parallel execution -/

/-- A transaction to be sent through a channel with an entry of the fee table. -/
structure Task where
  /-- The position of the channel. -/
  index : ℕ
  client : SwqosClient
  config : SwqosType × GasFeeStrategyType × GasFeeStrategyValue

/-- The tasks of one channel: without tips only the plain RPC has any; with them, and if asked to
check, entries below the channel's least tip are left out. -/
def clientTasks (configs : List (SwqosType × GasFeeStrategyType × GasFeeStrategyValue)) (withTip checkMinTip : Bool)
    (index : ℕ) (client : SwqosClient) : List Task :=
  if withTip = false ∧ client.swqosType ≠ .default then []
  else
    let checkTip := withTip && client.swqosType ≠ .default && checkMinTip
    let minTip := if checkTip then client.minTipSol else 0
    ((configs.filter fun c => c.1 = client.swqosType).filter fun c => !(checkTip && c.2.2.tip < minTip)).map
      fun c => { index, client, config := c }

/-- The tasks `execute_parallel` submits, or why it submits none. -/
def submitTasks (params : SwapParams) (isBuy withTip : Bool) : Result (List Task) := do
  bailIf (params.swqosClients = []) "swqos_clients is empty"
  bailIf (withTip = false ∧ ∀ c ∈ params.swqosClients, c.swqosType ≠ .default)
    "No Rpc Default Swqos configured."
  let configs := params.gasFeeStrategy.getStrategies (if isBuy then .buy else .sell)
  let tasks := (params.swqosClients.mapIdx fun i c => clientTasks configs withTip params.checkMinTip i c).flatten
  bailIf (tasks.isEmpty = true) "No available gas fee strategy configs"
  bailIf (isBuy = true ∧ tasks.length > 1 ∧ params.durableNonce = none)
    "Multiple swqos transactions require durable_nonce to be set."
  return tasks

/-- A transaction's signature. -/
abbrev Signature := String

/-- Why a trade was not successful. -/
structure TradeError where
  code : ℕ
  message : String
  /-- The instruction that failed on the chain. -/
  instruction : Option ℕ
  deriving DecidableEq

/-- An error that is not a `TradeError` counts as code 500. -/
def TradeError.ofError (e : Error) : TradeError := ⟨500, e.msg, none⟩

/-- What the network makes of the tasks of one trade. -/
structure Network where
  /-- The results within two seconds: whether one succeeded, the signatures, the last error. -/
  collect : List Task → Option (Bool × List Signature × Option Error)
  /-- Whether one of the signatures is confirmed. -/
  confirm : List Signature → Except TradeError Unit

/-- Look up the account each channel's tip goes to. -/
def tipAccounts : List Task → Result Unit
  | [] => .ok ()
  | t :: ts => do
    let _ ← orFail t.client.tipAccount
    tipAccounts ts

/-- Submit a trade through its channels, without waiting for confirmation. -/
def executeParallel (net : Network) (params : SwapParams) (isBuy withTip : Bool) :
    Result (Bool × List Signature × Option Error) := do
  let tasks ← submitTasks params isBuy withTip
  tipAccounts tasks
  return (net.collect tasks).getD (false, [], some (anyhow "No SWQOS result within 2s"))

/-! ### The executor -/

/-- Whether a trade is a buy. -/
def SwapParams.isBuy (params : SwapParams) : Bool :=
  params.tradeType = .buy ∨ params.tradeType = .createAndBuy

/-- Whether a trade may pay a tip: a buy always. -/
def SwapParams.mayTip (params : SwapParams) : Bool := if params.isBuy then true else params.withTip

/-- The instructions of a trade. -/
def buildInstructions (e : Env) (params : SwapParams) : Result (List Instruction) :=
  if params.isBuy then buildBuyInstructions e params else buildSellInstructions e params

/-- Build a trade, submit it, and wait for its confirmation if asked to. An error of the submission
is not handed on: it becomes an unsuccessful result. (The errors are converted here, where the
source leaves that to the two callers.) -/
def swap (e : Env) (net : Network) (params : SwapParams) :
    Result (Bool × List Signature × Option TradeError) := do
  let instructions ← buildInstructions e params
  bailIf (instructions = []) "Instructions empty"
  let submitted ← caught (executeParallel net params params.isBuy params.mayTip)
  let (ok, signatures, err) := match submitted with
    | .ok (success, sigs, lastError) => (success, sigs, lastError.map TradeError.ofError)
    | .error e => (false, [], some (TradeError.ofError e))
  if params.waitTxConfirmed && !signatures.isEmpty then
    match net.confirm signatures with
    | .ok _ => return (true, signatures, none)
    | .error e => return (false, signatures, some e)
  else return (ok, signatures, err)

/-! ### What is submitted -/

/-- The trade is built and handed to the channels with at least one task. -/
def Submits (e : Env) (params : SwapParams) : Prop :=
  ∃ instructions tasks, buildInstructions e params = .ok instructions ∧ instructions ≠ [] ∧
    submitTasks params params.isBuy params.mayTip = .ok tasks ∧ tasks ≠ []

/-- A trade through one channel has one task if the fee table has one entry for the channel and
trades without a tip go to the plain RPC. -/
theorem submitTasks_of_single {params : SwapParams} {client : SwqosClient} {isBuy withTip : Bool}
    {config : SwqosType × GasFeeStrategyType × GasFeeStrategyValue}
    (hclients : params.swqosClients = [client]) (hcheck : params.checkMinTip = false)
    (hfees : params.gasFeeStrategy.entries client.swqosType (if isBuy then .buy else .sell) = [config])
    (htip : withTip = true ∨ client.swqosType = .default) :
    submitTasks params isBuy withTip = .ok [⟨0, client, config⟩] := by
  have htasks : clientTasks (params.gasFeeStrategy.getStrategies (if isBuy then .buy else .sell)) withTip false 0
      client = [⟨0, client, config⟩] := by
    have hno : ¬ (withTip = false ∧ client.swqosType ≠ .default) := by
      rintro ⟨h₁, h₂⟩
      rcases htip with h | h
      · rw [h₁] at h
        cases h
      · exact h₂ h
    simp [clientTasks, if_neg hno, GasFeeStrategy.filter_getStrategies, hfees]
  have hdefault : ¬ (withTip = false ∧ ∀ c ∈ params.swqosClients, c.swqosType ≠ .default) := by
    rintro ⟨h₁, h₂⟩
    rcases htip with h | h
    · rw [h₁] at h
      cases h
    · exact h₂ client (by simp [hclients]) h
  simp only [submitTasks]
  rw [bailIf_neg _ (by simp [hclients]), bailIf_neg _ hdefault]
  simp [hclients, hcheck, htasks, bailIf, pure, Except.pure]

/-- Without a tip and without the plain RPC there is nothing to submit. -/
theorem submitTasks_ne_ok {params : SwapParams} {isBuy : Bool} {tasks : List Task}
    (h : ∀ c ∈ params.swqosClients, c.swqosType ≠ .default) : submitTasks params isBuy false ≠ .ok tasks := by
  intro hok
  obtain ⟨_, -, hok⟩ := bind_eq_ok.mp hok
  obtain ⟨_, hno, -⟩ := bind_eq_ok.mp hok
  exact bailIf_eq_ok.mp hno ⟨rfl, h⟩

/-! ### The client -/

/-- The kinds of token to trade against. -/
inductive TradeTokenType where
  | sol
  | wsol
  | usd1
  | usdc
  deriving DecidableEq

/-- The mint of USD1. -/
def usd1TokenAccount : Pubkey := pubkey "USD1ttGY1N17NEEHLmELoaybftRBUSErhqYiQzvEmuB"

/-- The mint of a kind of token. -/
def TradeTokenType.mint : TradeTokenType → Pubkey
  | .sol => solTokenAccount
  | .wsol => wsolTokenAccount
  | .usdc => usdcTokenAccount
  | .usd1 => usd1TokenAccount

/-- What an SDK instance holds. -/
structure TradingClient where
  /-- The wallet. -/
  payer : Pubkey
  swqosClients : List SwqosClient
  useSeedOptimize : Bool
  checkMinTip : Bool

/-- Parameters for executing buy orders. -/
structure TradeBuyParams where
  inputTokenType : TradeTokenType
  /-- The token to buy. -/
  mint : Pubkey
  inputTokenAmount : UInt64
  slippageBasisPoints : Option UInt64
  recentBlockhash : Option Hash
  extensionParams : PumpSwapParams
  waitTxConfirmed : Bool
  createInputTokenAta : Bool
  closeInputTokenAta : Bool
  createMintAta : Bool
  durableNonce : Option DurableNonceInfo
  fixedOutputTokenAmount : Option UInt64
  gasFeeStrategy : GasFeeStrategy
  useExactSolAmount : Option Bool

/-- Parameters for executing sell orders. -/
structure TradeSellParams where
  outputTokenType : TradeTokenType
  /-- The token to sell. -/
  mint : Pubkey
  inputTokenAmount : UInt64
  slippageBasisPoints : Option UInt64
  recentBlockhash : Option Hash
  /-- Whether to include a tip. -/
  withTip : Bool
  extensionParams : PumpSwapParams
  waitTxConfirmed : Bool
  createOutputTokenAta : Bool
  closeOutputTokenAta : Bool
  closeMintTokenAta : Bool
  durableNonce : Option DurableNonceInfo
  fixedOutputTokenAmount : Option UInt64
  gasFeeStrategy : GasFeeStrategy

namespace TradingClient

variable (client : TradingClient)

/-- The trade of a buy order. -/
def buySwapParams (params : TradeBuyParams) : SwapParams where
  payer := client.payer
  tradeType := .buy
  inputMint := params.inputTokenType.mint
  outputMint := params.mint
  inputAmount := some params.inputTokenAmount
  slippageBasisPoints := params.slippageBasisPoints
  recentBlockhash := params.recentBlockhash
  waitTxConfirmed := params.waitTxConfirmed
  protocolParams := params.extensionParams
  openSeedOptimize := client.useSeedOptimize
  swqosClients := client.swqosClients
  durableNonce := params.durableNonce
  withTip := true
  createInputMintAta := params.createInputTokenAta
  closeInputMintAta := params.closeInputTokenAta
  createOutputMintAta := params.createMintAta
  closeOutputMintAta := false
  fixedOutputAmount := params.fixedOutputTokenAmount
  gasFeeStrategy := params.gasFeeStrategy
  checkMinTip := client.checkMinTip
  useExactSolAmount := params.useExactSolAmount

/-- The trade of a sell order. -/
def sellSwapParams (params : TradeSellParams) : SwapParams where
  payer := client.payer
  tradeType := .sell
  inputMint := params.mint
  outputMint := params.outputTokenType.mint
  inputAmount := some params.inputTokenAmount
  slippageBasisPoints := params.slippageBasisPoints
  recentBlockhash := params.recentBlockhash
  waitTxConfirmed := params.waitTxConfirmed
  protocolParams := params.extensionParams
  openSeedOptimize := client.useSeedOptimize
  swqosClients := client.swqosClients
  durableNonce := params.durableNonce
  withTip := params.withTip
  createInputMintAta := false
  closeInputMintAta := params.closeMintTokenAta
  createOutputMintAta := params.createOutputTokenAta
  closeOutputMintAta := params.closeOutputTokenAta
  fixedOutputAmount := params.fixedOutputTokenAmount
  gasFeeStrategy := params.gasFeeStrategy
  checkMinTip := client.checkMinTip
  useExactSolAmount := none

/-- Execute a buy order. -/
def buy (e : Env) (net : Network) (params : TradeBuyParams) :
    Result (Bool × List Signature × Option TradeError) := do
  bailIf (params.recentBlockhash = none ∧ params.durableNonce = none)
    "Must provide either recent_blockhash or durable_nonce for buy (required for transaction validity)"
  bailIf (params.inputTokenType = .usd1) " Current version only supports USD1 trading on Bonk protocols"
  swap e net (client.buySwapParams params)

/-- Execute a sell order. -/
def sell (e : Env) (net : Network) (params : TradeSellParams) :
    Result (Bool × List Signature × Option TradeError) := do
  bailIf (params.recentBlockhash = none ∧ params.durableNonce = none)
    "Must provide either recent_blockhash or durable_nonce for sell (required for transaction validity)"
  bailIf (params.outputTokenType = .usd1) " Current version only supports USD1 trading on Bonk protocols"
  swap e net (client.sellSwapParams params)

end TradingClient

end PumpSwapBot.Sdk
