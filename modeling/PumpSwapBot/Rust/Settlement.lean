import PumpSwapBot.Rust.Orders
import PumpSwapBot.Sdk.Confirmation

/-!
# What a successful trade of the bot stands for

The bot takes a position when a buy succeeds and gives it up when a sell does. Here the SDK's two
calls are put together from their parts: the order goes through the channels of the client
(`Sdk.Client`), its tasks through the pool of senders (`Sdk.Executor`), and what the pool reports
through the loop that waits for a confirmation (`Sdk.Confirmation`). Of all that only the chain's
answers are left open.
-/

namespace PumpSwapBot.Rust

open PumpSwapBot.Sdk PumpSwapBot.Library

namespace Trader

/-- A trade of the token is one of the bot's two orders for it. -/
def IsOrder (t : Trader) (info : TradeInfo) (params : SwapParams) : Prop :=
  (∃ solAmount hash, params = t.client.buySwapParams (t.buyParams info solAmount hash)) ∨
    ∃ tokenBalance hash, params = t.client.sellSwapParams (t.sellParams info tokenBalance hash)

/-- The SDK's calls are made of their parts, for the orders of a token. -/
structure Connected (display : TransactionError → String) (debug : String → String) (e : Env) (t : Trader) (a : Answers)
    (info : TradeInfo) (net : Network) (rounds : List Round) : Prop where
  buy : ∀ params, a.buy params = t.client.buy e net params
  sell : ∀ params, a.sell params = t.client.sell e net params
  pool : ∀ params tasks, t.IsOrder info params → submitTasks params params.isBuy params.mayTip = .ok tasks →
    PoolCollects net tasks
  loop : LoopConfirms display debug net rounds

/-- Some round has shown one of the signatures as confirmed, or its transaction as successful. -/
def OnChain (signatures : List Signature) (rounds : List Round) : Prop :=
  ∃ sig ∈ signatures, ∃ r ∈ rounds, r.Confirms signatures sig ∨ r.Succeeds sig

variable {display : TransactionError → String} {debug : String → String} {e : Env} {t : Trader} {a : Answers}
  {info : TradeInfo} {net : Network} {rounds : List Round}

theorem call_of_succeeded {Params : Type} {r : Report Params} (h : r.succeeded = true) :
    ∃ params signatures err, r.call = some (params, .ok (true, signatures, err)) := by
  unfold Report.succeeded at h
  split at h
  next params rest hcall => exact ⟨params, rest.1, rest.2, hcall⟩
  next => cases h

theorem swap_onChain {params : SwapParams} (h : Connected display debug e t a info net rounds) (horder : t.IsOrder info params)
    (hwait : params.waitTxConfirmed = true) {signatures : List Signature} {err : Option TradeError}
    (hswap : swap e net params = .ok (true, signatures, err)) : OnChain signatures rounds :=
  swap_confirmed hwait (fun tasks htasks => h.pool params tasks horder htasks) h.loop hswap

/-- **A trade the bot counts as successful is on the chain.** Whatever the channels, the pool and the chain do, in any
order: when a buy makes the bot take a position, or a sell makes it give one up, one of the signatures the SDK returned has
been shown confirmed, or its transaction successful. -/
theorem trades_onChain (h : Connected display debug e t a info net rounds) (solAmount : UInt64) :
    ((t.buy a info solAmount).1.succeeded = true →
        ∃ params signatures err, (t.buy a info solAmount).1.call = some (params, .ok (true, signatures, err)) ∧
          OnChain signatures rounds) ∧
      ((t.sell e a info).succeeded = true →
        ∃ params signatures err, (t.sell e a info).call = some (params, .ok (true, signatures, err)) ∧
          OnChain signatures rounds) := by
  refine ⟨fun hbuy => ?_, fun hsell => ?_⟩
  · obtain ⟨params, signatures, err, hcall⟩ := call_of_succeeded hbuy
    refine ⟨params, signatures, err, hcall, ?_⟩
    unfold Trader.buy at hcall
    split at hcall
    next => cases hcall
    next => cases hcall
    next hash _ =>
      obtain ⟨rfl, hbuy'⟩ := Prod.mk.inj (Option.some.inj hcall)
      rw [h.buy] at hbuy'
      obtain ⟨_, -, hswap⟩ := bind_eq_ok.mp hbuy'
      obtain ⟨_, -, hswap⟩ := bind_eq_ok.mp hswap
      exact swap_onChain h (.inl ⟨solAmount, hash, rfl⟩) rfl hswap
  · obtain ⟨params, signatures, err, hcall⟩ := call_of_succeeded hsell
    refine ⟨params, signatures, err, hcall, ?_⟩
    unfold Trader.sell at hcall
    split at hcall
    next => cases hcall
    next tokenBalance hash _ =>
      obtain ⟨rfl, hsell'⟩ := Prod.mk.inj (Option.some.inj hcall)
      rw [h.sell] at hsell'
      obtain ⟨_, -, hswap⟩ := bind_eq_ok.mp hsell'
      obtain ⟨_, -, hswap⟩ := bind_eq_ok.mp hswap
      exact swap_onChain h (.inr ⟨tokenBalance, hash, rfl⟩) rfl hswap

/-! ### At the sample -/

/-- The plain RPC of the sample, as a channel. -/
def sampleClient : SwqosClient := ⟨.default, SwqosType.minTipSol .default, .ok ""⟩

/-- The task of an order of the sample. -/
def sampleTask : Task := ⟨0, sampleClient, (.default, .normal, ⟨150000, 500000, 0⟩)⟩

/-- A round in which the signature is confirmed. -/
def sampleRound : Round := ⟨0, .ok [some ⟨none, some .confirmed⟩], fun _ => .error (anyhow "")⟩

/-- The pool accepts the transaction, and the chain confirms it. -/
def sampleNetwork : Network where
  collect _ := some (true, ["signature"], none)
  confirm signatures := if signatures = [] then .error (.ofError (anyhow "No signatures to confirm")) else .ok ()

/-- The SDK's calls over it. -/
def connectedAnswers : Answers where
  rpc _ := sampleRpc
  walletBalance := .ok 1000000000
  tokenBalance _ := .ok "5000000"
  blockhash := .ok sampleHash
  buy := (sampleTrader false).client.buy sampleEnv sampleNetwork
  sell := (sampleTrader false).client.sell sampleEnv sampleNetwork

theorem poolCollects_sample : PoolCollects sampleNetwork [sampleTask] :=
  ⟨1, _, [.start 0 [sampleTask] false, .caller 0, .caller 0, .worker 0, .answer 0 (.sent ["signature"] (.ok ()) 1), .worker 0,
    .worker 0, .worker 0, .caller 0, .caller 0, .caller 0], 0, _, rfl, rfl, rfl, rfl, rfl⟩

theorem submitTasks_sample {params : SwapParams} (h : (sampleTrader false).IsOrder sampleInfo params) :
    submitTasks params params.isBuy params.mayTip = .ok [sampleTask] := by
  rcases h with ⟨solAmount, hash, rfl⟩ | ⟨tokenBalance, hash, rfl⟩
  · exact submitTasks_of_single rfl rfl rfl (.inl rfl)
  · exact submitTasks_of_single rfl rfl rfl (.inr rfl)

theorem trades_onChain_sample : ∃ params signatures err,
    ((sampleTrader false).buy connectedAnswers sampleInfo 10000000).1.call = some (params, .ok (true, signatures, err)) ∧
      OnChain signatures [sampleRound] := by
  have h : Connected (fun _ => "") id sampleEnv (sampleTrader false) connectedAnswers sampleInfo sampleNetwork [sampleRound] := by
    refine ⟨fun _ => rfl, fun _ => rfl, ?_, ?_⟩
    · intro params tasks horder htasks
      rw [submitTasks_sample horder] at htasks
      cases htasks
      exact poolCollects_sample
    · rintro (_ | ⟨sig, rest⟩) hok
      · cases hok
      · exact ⟨sig, rfl⟩
  exact (trades_onChain h 10000000).1 (by decide +kernel)

end Trader

end PumpSwapBot.Rust
