import PumpSwapBot.Sdk.Basic
import Mathlib.Data.Rat.Defs
import Mathlib.Tactic.NormNum

/-!
# Submission channels and fees

The channels a transaction can be sent through (`swqos/mod.rs`), which of them an SDK instance ends
up with (`TradingInfrastructure::new` in `lib.rs`), and the table of fees a trade is sent with
(`common/gas_fee_strategy.rs`).

## The model

Connecting a channel is a matter of the network: its outcome is a parameter (`InitOutcome`). The
fee table is the map of the source, as a function; `getStrategies` lists it by the order of
`SwqosType.values`, where the source goes through a hash set in no particular order. Tips are the
rationals their decimal texts stand for.

## What is proved

* `tradingInfrastructure_single` — an instance with one channel configured has that channel, or the
  plain RPC in its place, or none.
* `entries_setGlobalFeeStrategy` — after `setGlobalFeeStrategy` every channel has exactly one entry
  for buys and one for sells.
-/

namespace PumpSwapBot.Sdk

/-! ### Channels -/

/-- The kinds of trade. -/
inductive TradeType where
  | create
  | createAndBuy
  | buy
  | sell
  deriving DecidableEq

/-- The submission channels; `default` is the plain RPC. -/
inductive SwqosType where
  | jito
  | nextBlock
  | zeroSlot
  | temporal
  | bloxroute
  | node1
  | flashBlock
  | blockRazor
  | astralane
  | stellium
  | lightspeed
  | soyas
  | speedlanding
  | helius
  | default
  deriving DecidableEq

/-- All of them. -/
def SwqosType.values : List SwqosType :=
  [.jito, .nextBlock, .zeroSlot, .temporal, .bloxroute, .node1, .flashBlock, .blockRazor, .astralane,
   .stellium, .lightspeed, .soyas, .speedlanding, .helius, .default]

/-- The channels that are disabled even if configured. -/
def swqosBlacklist : List SwqosType := [.nextBlock]

/-- The least tip a channel takes, in SOL. -/
def SwqosType.minTipSol : SwqosType → ℚ
  | .jito => 1 / 100000
  | .nextBlock => 1 / 1000
  | .zeroSlot => 1 / 10000
  | .temporal => 1 / 10000
  | .bloxroute => 1 / 10000
  | .node1 => 1 / 10000
  | .flashBlock => 1 / 10000
  | .blockRazor => 1 / 10000
  | .astralane => 1 / 100000
  | .stellium => 1 / 10000
  | .lightspeed => 1 / 10000
  | .soyas => 1 / 1000
  | .speedlanding => 1 / 1000
  | .helius => 1 / 5000
  | .default => 1 / 100000

/-- The regions of a channel's endpoints. -/
inductive SwqosRegion where
  | newYork
  | frankfurt
  | amsterdam
  | dublin
  | slc
  | tokyo
  | singapore
  | london
  | losAngeles
  | default
  deriving DecidableEq

/-- How a channel is reached. -/
inductive SwqosTransport where
  | http
  | grpc
  | quic
  deriving DecidableEq

/-- How Astralane is reached. -/
inductive AstralaneTransport where
  | binary
  | plain
  | quic
  deriving DecidableEq

/-- How a channel is configured: by its token, its region and a custom address. -/
inductive SwqosConfig where
  | default (url : String)
  | jito (uuid : String) (region : SwqosRegion) (customUrl : Option String)
  | nextBlock (apiToken : String) (region : SwqosRegion) (customUrl : Option String)
  | bloxroute (apiToken : String) (region : SwqosRegion) (customUrl : Option String)
  | temporal (apiToken : String) (region : SwqosRegion) (customUrl : Option String)
  | zeroSlot (apiToken : String) (region : SwqosRegion) (customUrl : Option String)
  | node1 (apiToken : String) (region : SwqosRegion) (customUrl : Option String)
      (transport : Option SwqosTransport)
  | flashBlock (apiToken : String) (region : SwqosRegion) (customUrl : Option String)
  | blockRazor (apiToken : String) (region : SwqosRegion) (customUrl : Option String)
      (transport : Option SwqosTransport)
  | astralane (apiToken : String) (region : SwqosRegion) (customUrl : Option String)
      (mode : Option AstralaneTransport)
  | stellium (apiToken : String) (region : SwqosRegion) (customUrl : Option String)
  | lightspeed (apiKey : String) (region : SwqosRegion) (customUrl : Option String)
  | soyas (apiToken : String) (region : SwqosRegion) (customUrl : Option String)
  | speedlanding (apiToken : String) (region : SwqosRegion) (customUrl : Option String)
  | helius (apiKey : String) (region : SwqosRegion) (customUrl : Option String) (swqosOnly : Option Bool)
  deriving DecidableEq

/-- The channel a configuration is for. -/
def SwqosConfig.swqosType : SwqosConfig → SwqosType
  | .default _ => .default
  | .jito _ _ _ => .jito
  | .nextBlock _ _ _ => .nextBlock
  | .bloxroute _ _ _ => .bloxroute
  | .temporal _ _ _ => .temporal
  | .zeroSlot _ _ _ => .zeroSlot
  | .node1 _ _ _ _ => .node1
  | .flashBlock _ _ _ => .flashBlock
  | .blockRazor _ _ _ _ => .blockRazor
  | .astralane _ _ _ _ => .astralane
  | .stellium _ _ _ => .stellium
  | .lightspeed _ _ _ => .lightspeed
  | .soyas _ _ _ => .soyas
  | .speedlanding _ _ _ => .speedlanding
  | .helius _ _ _ _ => .helius

/-- Whether a configured channel is disabled. -/
def SwqosConfig.isBlacklisted (c : SwqosConfig) : Bool := swqosBlacklist.contains c.swqosType

/-- A connected channel. -/
structure SwqosClient where
  swqosType : SwqosType
  /-- The least tip it takes. -/
  minTipSol : ℚ
  /-- The text of the account its tips go to. -/
  tipAccount : Except Error String
  deriving DecidableEq

/-- How connecting a channel ends. -/
inductive InitOutcome where
  /-- The channel is there, with an account for its tips. -/
  | ready (tipAccount : Except Error String)
  /-- The channel refused. -/
  | failed (e : Error)
  /-- The channel took more than 15 seconds. -/
  | timedOut

/-- The channel of a configuration, if connecting it succeeds. The plain RPC takes no tips. -/
def getSwqosClient (config : SwqosConfig) : InitOutcome → Option SwqosClient
  | .ready tipAccount => some {
      swqosType := config.swqosType
      minTipSol := match config with
        | .helius _ _ _ (some true) => 1 / 200000
        | c => c.swqosType.minTipSol
      tipAccount := match config with
        | .default _ => .ok ""
        | _ => tipAccount }
  | .failed _ => none
  | .timedOut => none

/-- The channels of an SDK instance, `TradingInfrastructure::new`: the configured ones that are not
disabled and that connect, and the plain RPC if none is left. -/
def tradingInfrastructure (rpcUrl : String) (swqosConfigs : List SwqosConfig)
    (outcome : SwqosConfig → InitOutcome) (fallback : InitOutcome) : List SwqosClient :=
  let clients := (swqosConfigs.filter fun c => !c.isBlacklisted).filterMap fun c => getSwqosClient c (outcome c)
  if clients = [] then (getSwqosClient (.default rpcUrl) fallback).toList else clients

theorem getSwqosClient_eq_some {config : SwqosConfig} {o : InitOutcome} {client : SwqosClient}
    (h : getSwqosClient config o = some client) :
    client.swqosType = config.swqosType ∧ ∃ tipAccount, o = .ready tipAccount := by
  rcases o with tipAccount | _ | _
  · cases h
    exact ⟨rfl, tipAccount, rfl⟩
  · cases h
  · cases h

/-- A single channel that is not disabled: it, or the plain RPC if it does not connect. -/
theorem tradingInfrastructure_single {rpcUrl : String} {config : SwqosConfig}
    {outcome : SwqosConfig → InitOutcome} {fallback : InitOutcome} (hb : config.isBlacklisted = false) :
    tradingInfrastructure rpcUrl [config] outcome fallback =
      match getSwqosClient config (outcome config) with
      | some client => [client]
      | none => (getSwqosClient (.default rpcUrl) fallback).toList := by
  simp only [tradingInfrastructure]
  rcases hc : getSwqosClient config (outcome config) with _ | client <;> simp [hb, hc]

/-! ### Fees -/

/-- The kinds of entry in the fee table. -/
inductive GasFeeStrategyType where
  | normal
  | lowTipHighCuPrice
  | highTipLowCuPrice
  deriving DecidableEq

/-- All of them. -/
def GasFeeStrategyType.values : List GasFeeStrategyType := [.normal, .lowTipHighCuPrice, .highTipLowCuPrice]

/-- An entry of the fee table. -/
structure GasFeeStrategyValue where
  cuLimit : UInt32
  cuPrice : UInt64
  tip : ℚ
  deriving DecidableEq

/-- The fee table. -/
def GasFeeStrategy : Type := SwqosType → TradeType → GasFeeStrategyType → Option GasFeeStrategyValue

namespace GasFeeStrategy

/-- The empty table. -/
def new : GasFeeStrategy := fun _ _ _ => none

/-- Remove an entry. -/
def del (g : GasFeeStrategy) (s : SwqosType) (t : TradeType) (k : GasFeeStrategyType) : GasFeeStrategy :=
  fun s' t' k' => if s' = s ∧ t' = t ∧ k' = k then none else g s' t' k'

/-- Write an entry: a normal one takes the place of the two others, and the other way round. -/
def set (g : GasFeeStrategy) (s : SwqosType) (t : TradeType) (k : GasFeeStrategyType)
    (cuLimit : UInt32) (cuPrice : UInt64) (tip : ℚ) : GasFeeStrategy :=
  let g := if k = .normal then (g.del s t .highTipLowCuPrice).del s t .lowTipHighCuPrice else g.del s t .normal
  fun s' t' k' => if s' = s ∧ t' = t ∧ k' = k then some ⟨cuLimit, cuPrice, tip⟩ else g s' t' k'

/-- Write the normal entries of every channel; the plain RPC gets no tip. -/
def setGlobalFeeStrategy (g : GasFeeStrategy) (buyCuLimit sellCuLimit : UInt32) (buyCuPrice sellCuPrice : UInt64)
    (buyTip sellTip : ℚ) : GasFeeStrategy :=
  let g := (SwqosType.values.filter (· ≠ .default)).foldl (fun g s =>
    (g.set s .buy .normal buyCuLimit buyCuPrice buyTip).set s .sell .normal sellCuLimit sellCuPrice sellTip) g
  (g.set .default .buy .normal buyCuLimit buyCuPrice 0).set .default .sell .normal sellCuLimit sellCuPrice 0

/-- The entries for a kind of trade. -/
def getStrategies (g : GasFeeStrategy) (t : TradeType) :
    List (SwqosType × GasFeeStrategyType × GasFeeStrategyValue) :=
  SwqosType.values.flatMap fun s => GasFeeStrategyType.values.filterMap fun k =>
    (g s t k).map fun v => (s, k, v)

/-- The entries of one channel. -/
def entries (g : GasFeeStrategy) (s : SwqosType) (t : TradeType) :
    List (SwqosType × GasFeeStrategyType × GasFeeStrategyValue) :=
  GasFeeStrategyType.values.filterMap fun k => (g s t k).map fun v => (s, k, v)

theorem filter_entries (g : GasFeeStrategy) (s s' : SwqosType) (t : TradeType) :
    (g.entries s' t).filter (fun c => c.1 = s) = if s' = s then g.entries s' t else [] := by
  have hfst : ∀ c ∈ g.entries s' t, c.1 = s' := by
    intro c hc
    obtain ⟨k, -, hk⟩ := List.mem_filterMap.mp hc
    obtain ⟨v, -, rfl⟩ := Option.map_eq_some_iff.mp hk
    rfl
  split_ifs with h
  · exact List.filter_eq_self.mpr fun c hc => decide_eq_true ((hfst c hc).trans h)
  · refine List.filter_eq_nil_iff.mpr fun c hc hs => h ?_
    rw [← hfst c hc]
    exact of_decide_eq_true hs

/-- The entries of one channel are what the list of entries holds for it. -/
theorem filter_getStrategies (g : GasFeeStrategy) (s : SwqosType) (t : TradeType) :
    (g.getStrategies t).filter (fun c => c.1 = s) = g.entries s t := by
  have h : g.getStrategies t = SwqosType.values.flatMap fun s' => g.entries s' t := rfl
  rw [h, List.filter_flatMap]
  simp only [filter_entries]
  cases s <;> simp [SwqosType.values]

/-- The global strategy gives every channel its normal entries and no others. -/
theorem setGlobalFeeStrategy_apply (g : GasFeeStrategy) (bl sl : UInt32) (bp sp : UInt64) (bt st : ℚ)
    (s : SwqosType) (k : GasFeeStrategyType) :
    g.setGlobalFeeStrategy bl sl bp sp bt st s .buy k =
        (if k = .normal then some ⟨bl, bp, if s = .default then 0 else bt⟩ else none) ∧
      g.setGlobalFeeStrategy bl sl bp sp bt st s .sell k =
        (if k = .normal then some ⟨sl, sp, if s = .default then 0 else st⟩ else none) := by
  cases s <;> cases k <;> exact ⟨rfl, rfl⟩

/-- After the global strategy every channel has one entry for buys and one for sells. -/
theorem entries_setGlobalFeeStrategy (g : GasFeeStrategy) (bl sl : UInt32) (bp sp : UInt64) (bt st : ℚ)
    (s : SwqosType) :
    (∃ c, (g.setGlobalFeeStrategy bl sl bp sp bt st).entries s .buy = [c]) ∧
      ∃ c, (g.setGlobalFeeStrategy bl sl bp sp bt st).entries s .sell = [c] := by
  have h := setGlobalFeeStrategy_apply g bl sl bp sp bt st s
  constructor <;> simp [entries, GasFeeStrategyType.values, h]

end GasFeeStrategy

end PumpSwapBot.Sdk
