import PumpSwapBot.Library.Proc
import PumpSwapBot.Rust.Store
import PumpSwapBot.Rust.Trader

/-!
# The strategy

`TradingStrategy` of `strategy.rs`: the monitoring loop, which goes through the mints that have
records, buys those it does not hold and sells those it holds.

## The model

* The functions of the source are programs over the bot's state (`Bot`); what the outside answers the
  calls of one visit to a mint is a parameter (`Replies`). Locks are not modelled: only the loop
  takes them, one at a time.
* The loop is a machine that makes one step for each call of `get_active_mints` and one for each
  mint (`step`). A run is the machine fed with a list of replies, one for each step; every list is a
  run, so a theorem about all lists is one about all answers in all orders.
* Beside the state of the source, the bot keeps a trace, newest first: each check of the sell condition
  and each buy and sell of the trader, with the SDK call it made. The code has no such trace; the
  theorems are about it.

## What is proved

`visit_cases` — everything a visit can do: with the mint not held, nothing or one buy; with the mint
held, one check of the sell condition and after it nothing or one sell. Positions change after a buy or
a sell that returned `Ok`, and at no other point.
-/

namespace PumpSwapBot.Rust

open PumpSwapBot.Sdk PumpSwapBot.Library

/-! ### State -/

/-- A token that is held. -/
structure TokenPosition where
  mint : String
  buyPrice : ℚ
  buySolAmount : UInt64
  tradeInfo : TradeInfo

/-- What is observed of the loop. -/
inductive Trace where
  /-- The sell condition of a mint is checked. -/
  | sellCheck (mint : String)
  /-- `Trader::buy`, for a mint of the strategy. -/
  | buy (mint : String) (info : TradeInfo) (report : Trader.Report TradeBuyParams)
  /-- `Trader::sell`, for a mint of the strategy. -/
  | sell (mint : String) (info : TradeInfo) (report : Trader.Report TradeSellParams)

/-- The state of the bot. -/
structure Bot where
  trader : Trader
  positions : String → Option TokenPosition
  tradeInfoCache : String → Option TradeInfo
  /-- What happened, newest first. -/
  trace : List Trace

/-- A bot that has just been started. -/
def Bot.new (trader : Trader) : Bot := ⟨trader, fun _ => none, fun _ => none, []⟩

/-- What does not change while the bot runs. -/
structure Setting where
  env : Env
  serde : SerdeJson
  config : BotConfig
  /-- Whether the store could be opened at the start. -/
  redisAvailable : Bool

/-- The answers to the calls of one step of the loop. -/
structure Replies where
  /-- The store, asked for the mints. -/
  keys : ReadReplies
  /-- The store, asked for the latest price. -/
  price : ReadReplies
  /-- The store, asked for the change of the price. -/
  change : ReadReplies
  /-- The node and the SDK. -/
  answers : Answers

/-! ### The functions of the source -/

/-- The gain on a position in percent. -/
def profitPct (buyPrice price : ℚ) : ℚ := if buyPrice > 0 then (price - buyPrice) / buyPrice * 100 else 0

/-- Whether a gain, or a loss, is large enough to sell. -/
def shouldSell (config : BotConfig) (profit : ℚ) : Bool :=
  profit ≥ config.sellProfitPct ∨ profit ≤ -config.sellStopLossPct

namespace Setting

variable (st : Setting)

/-- The mints that have records. -/
def getActiveMints (r : ReadReplies) : Result (List String) :=
  if st.redisAvailable then Rust.getActiveMints r else .ok []

/-- The latest price of a mint. -/
def getLatestTradePrice (r : ReadReplies) (mint : String) : Result (Option ℚ) :=
  if st.redisAvailable then getLatestPriceFromTrades st.env.profile st.serde r mint else .ok none

/-- Whether the price has risen enough to buy. -/
def checkPriceIncrease (r : ReadReplies) (mint : String) : Result Bool :=
  if st.redisAvailable then
    (calculatePriceChangeFromRecords st.env.profile st.serde r mint st.config.buyRecordCount).map fun
      | some changePct => decide (changePct ≥ st.config.buyThresholdPct)
      | none => false
  else .ok false

/-- Whether a mint is held. -/
def isHolding (mint : String) : Proc Bot Failure Bool := do
  let b ← Proc.get
  return (b.positions mint).isSome

/-- The trade data of a mint as the trader fetches them. -/
def fetchTradeInfo (t : Trader) (a : Answers) (mint : String) : Result TradeInfo := do
  let mintPubkey ← context ("Invalid mint address: " ++ mint) (okOr (Pubkey.parseError mint) (Pubkey.fromStr mint))
  context ("Failed to fetch TradeInfo for " ++ mint) (t.fetchTradeInfoWithRetry st.env a.rpc mintPubkey)

/-- The trade data of a mint: those fetched before, or fetched now and kept. -/
def getOrFetchTradeInfo (a : Answers) (mint : String) : Proc Bot Failure TradeInfo := do
  let b ← Proc.get
  match b.tradeInfoCache mint with
  | some info => return info
  | none => do
    let info ← Proc.ofExcept (st.fetchTradeInfo b.trader a mint)
    Proc.modify fun b => { b with tradeInfoCache := Function.update b.tradeInfoCache mint (some info) }
    return info

/-- The trader's buy, with its trace. -/
def traderBuy (a : Answers) (mint : String) (info : TradeInfo) (solAmount : UInt64) : Proc Bot Failure Unit := do
  let b ← Proc.get
  let (report, trader) := b.trader.buy a info solAmount
  Proc.modify fun b => { b with trader := trader, trace := .buy mint info report :: b.trace }
  Proc.ofExcept report.outcome

/-- The trader's sell, with its trace. -/
def traderSell (a : Answers) (mint : String) (info : TradeInfo) : Proc Bot Failure Unit := do
  let b ← Proc.get
  let report := b.trader.sell st.env a info
  Proc.modify fun b => { b with trace := .sell mint info report :: b.trace }
  Proc.ofExcept report.outcome

/-- The position a buy opens. -/
def opened (mint : String) (info : TradeInfo) : TokenPosition where
  mint := mint
  buyPrice := calculatePriceFromPool info
  buySolAmount := st.config.buyAmountLamports
  tradeInfo := info

/-- Buy a mint, and hold it if that returned `Ok`. -/
def executeBuy (a : Answers) (mint : String) : Proc Bot Failure Unit := do
  let holding ← isHolding mint
  if holding then return ()
  else do
    let info ← st.getOrFetchTradeInfo a mint
    traderBuy a mint info st.config.buyAmountLamports
    Proc.modify fun b => { b with positions := Function.update b.positions mint (some (st.opened mint info)) }

/-- Sell a mint, and hold it no longer if that returned `Ok`. -/
def executeSell (a : Answers) (mint : String) (info : TradeInfo) : Proc Bot Failure Unit := do
  st.traderSell a mint info
  Proc.modify fun b => { b with positions := Function.update b.positions mint none }

/-- Buy a mint if its price has risen enough. -/
def checkBuyCondition (r : Replies) (mint : String) : Proc Bot Failure Unit := do
  let holding ← isHolding mint
  if holding then return ()
  else do
    let currentPrice ← Proc.ofExcept (st.getLatestTradePrice r.price mint)
    match currentPrice with
    | none => return ()
    | some _ => do
      let shouldBuy ← Proc.ofExcept (st.checkPriceIncrease r.change mint)
      if shouldBuy then st.executeBuy r.answers mint else return ()

/-- Sell a mint if the gain or the loss is large enough. -/
def checkSellCondition (r : Replies) (mint : String) : Proc Bot Failure Unit := do
  Proc.modify fun b => { b with trace := .sellCheck mint :: b.trace }
  let b ← Proc.get
  match b.positions mint with
  | none => return ()
  | some position => do
    let currentPrice ← Proc.ofExcept (st.getLatestTradePrice r.price mint)
    match currentPrice with
    | none => return ()
    | some price =>
      if shouldSell st.config (profitPct position.buyPrice price) then
        st.executeSell r.answers mint position.tradeInfo
      else return ()

/-- What the loop does for a mint. -/
def visit (r : Replies) (mint : String) : Proc Bot Failure Unit := do
  let holding ← isHolding mint
  if holding then st.checkSellCondition r mint else st.checkBuyCondition r mint

end Setting

/-! ### What a visit can do -/

/-- The store gives a reason to buy. -/
def Setting.BuySignal (st : Setting) (r : Replies) (mint : String) : Prop :=
  (∃ price, st.getLatestTradePrice r.price mint = .ok (some price)) ∧ st.checkPriceIncrease r.change mint = .ok true

/-- The trader's buy is reached: the mint is not held, there is a reason to buy, and there are trade
data. -/
def Setting.Buys (st : Setting) (r : Replies) (mint : String) (b : Bot) : Prop :=
  b.positions mint = none ∧ st.BuySignal r mint ∧
    ∃ info b', (st.getOrFetchTradeInfo r.answers mint).run b = (.ok info, b')

/-- The store gives a reason to sell. -/
def Setting.SellSignal (st : Setting) (r : Replies) (mint : String) (position : TokenPosition) : Prop :=
  ∃ price, st.getLatestTradePrice r.price mint = .ok (some price) ∧
    shouldSell st.config (profitPct position.buyPrice price) = true

/-- The outcomes of a visit to a mint, each with the state it leaves. -/
inductive Visit (st : Setting) (r : Replies) (mint : String) (b : Bot) : Result Unit → Bot → Prop where
  /-- The mint is not held and is not bought. -/
  | passed (result : Result Unit) (hfree : b.positions mint = none) (hno : ¬ st.Buys r mint b) :
      Visit st r mint b result b
  /-- The mint is bought. -/
  | bought (info : TradeInfo) (cache : String → Option TradeInfo) (hfree : b.positions mint = none)
      (hsignal : st.BuySignal r mint)
      (hinfo : (st.getOrFetchTradeInfo r.answers mint).run b = (.ok info, { b with tradeInfoCache := cache }))
      (hok : (b.trader.buy r.answers info st.config.buyAmountLamports).1.outcome = .ok ()) :
      Visit st r mint b (.ok ()) {
        trader := (b.trader.buy r.answers info st.config.buyAmountLamports).2
        positions := Function.update b.positions mint (some (st.opened mint info))
        tradeInfoCache := cache
        trace := .buy mint info (b.trader.buy r.answers info st.config.buyAmountLamports).1 :: b.trace }
  /-- The buy fails. -/
  | buyFailed (info : TradeInfo) (cache : String → Option TradeInfo) (f : Failure) (hfree : b.positions mint = none)
      (hsignal : st.BuySignal r mint)
      (hinfo : (st.getOrFetchTradeInfo r.answers mint).run b = (.ok info, { b with tradeInfoCache := cache }))
      (hfail : (b.trader.buy r.answers info st.config.buyAmountLamports).1.outcome = .error f) :
      Visit st r mint b (.error f) {
        trader := (b.trader.buy r.answers info st.config.buyAmountLamports).2
        positions := b.positions
        tradeInfoCache := cache
        trace := .buy mint info (b.trader.buy r.answers info st.config.buyAmountLamports).1 :: b.trace }
  /-- The mint is held and is not sold. -/
  | kept (position : TokenPosition) (result : Result Unit) (hheld : b.positions mint = some position)
      (hno : ¬ st.SellSignal r mint position) :
      Visit st r mint b result { b with trace := .sellCheck mint :: b.trace }
  /-- The mint is sold. -/
  | sold (position : TokenPosition) (hheld : b.positions mint = some position) (hsignal : st.SellSignal r mint position)
      (hok : (b.trader.sell st.env r.answers position.tradeInfo).outcome = .ok ()) :
      Visit st r mint b (.ok ()) { b with
        positions := Function.update b.positions mint none
        trace := .sell mint position.tradeInfo (b.trader.sell st.env r.answers position.tradeInfo)
          :: .sellCheck mint :: b.trace }
  /-- The sell fails. -/
  | sellFailed (position : TokenPosition) (f : Failure) (hheld : b.positions mint = some position)
      (hsignal : st.SellSignal r mint position)
      (hfail : (b.trader.sell st.env r.answers position.tradeInfo).outcome = .error f) :
      Visit st r mint b (.error f) { b with
        trace := .sell mint position.tradeInfo (b.trader.sell st.env r.answers position.tradeInfo)
          :: .sellCheck mint :: b.trace }

section Cases

variable {st : Setting} {r : Replies} {mint : String} {b : Bot}

theorem isHolding_run (mint : String) (b : Bot) :
    (Setting.isHolding mint).run b = (.ok (b.positions mint).isSome, b) := rfl

/-- Fetching trade data changes the cache, and only if it succeeds. -/
theorem getOrFetchTradeInfo_run (st : Setting) (a : Answers) (mint : String) (b : Bot) :
    (∃ f, (st.getOrFetchTradeInfo a mint).run b = (.error f, b)) ∨
      ∃ info cache, (st.getOrFetchTradeInfo a mint).run b = (.ok info, { b with tradeInfoCache := cache }) := by
  simp only [Setting.getOrFetchTradeInfo]
  rw [Proc.bind_run_ok (Proc.get_run b)]
  rcases b.tradeInfoCache mint with _ | info
  · dsimp only
    rcases hf : st.fetchTradeInfo b.trader a mint with f | info
    · exact Or.inl ⟨f, by rw [Proc.bind_run_error (Proc.ofExcept_run _ _)]⟩
    · exact Or.inr ⟨info, _, rfl⟩
  · exact Or.inr ⟨info, b.tradeInfoCache, rfl⟩

theorem traderBuy_run (a : Answers) (mint : String) (info : TradeInfo) (solAmount : UInt64) (b : Bot) :
    (Setting.traderBuy a mint info solAmount).run b = ((b.trader.buy a info solAmount).1.outcome, { b with
      trader := (b.trader.buy a info solAmount).2
      trace := .buy mint info (b.trader.buy a info solAmount).1 :: b.trace }) := rfl

theorem traderSell_run (st : Setting) (a : Answers) (mint : String) (info : TradeInfo) (b : Bot) :
    (st.traderSell a mint info).run b = ((b.trader.sell st.env a info).outcome, { b with
      trace := .sell mint info (b.trader.sell st.env a info) :: b.trace }) := rfl

theorem executeBuy_cases (hfree : b.positions mint = none) (hsignal : st.BuySignal r mint) :
    Visit st r mint b ((st.executeBuy r.answers mint).run b).1 ((st.executeBuy r.answers mint).run b).2 := by
  simp only [Setting.executeBuy]
  rw [Proc.bind_run_ok (isHolding_run mint b), hfree, Option.isSome_none, if_neg Bool.false_ne_true]
  rcases getOrFetchTradeInfo_run st r.answers mint b with ⟨f, hf⟩ | ⟨info, cache, hinfo⟩
  · rw [Proc.bind_run_error hf]
    refine .passed _ hfree ?_
    rintro ⟨-, -, info, b', hinfo⟩
    rw [hf] at hinfo
    cases hinfo
  rw [Proc.bind_run_ok hinfo]
  have hbuy := traderBuy_run r.answers mint info st.config.buyAmountLamports { b with tradeInfoCache := cache }
  rcases ho : (b.trader.buy r.answers info st.config.buyAmountLamports).1.outcome with f | u
  · dsimp only at hbuy
    rw [ho] at hbuy
    rw [Proc.bind_run_error hbuy]
    exact .buyFailed info cache f hfree hsignal hinfo ho
  · dsimp only at hbuy
    rw [ho] at hbuy
    rw [Proc.bind_run_ok hbuy]
    exact .bought info cache hfree hsignal hinfo ho

theorem checkBuyCondition_cases (hfree : b.positions mint = none) :
    Visit st r mint b ((st.checkBuyCondition r mint).run b).1 ((st.checkBuyCondition r mint).run b).2 := by
  simp only [Setting.checkBuyCondition]
  rw [Proc.bind_run_ok (isHolding_run mint b), hfree, Option.isSome_none, if_neg Bool.false_ne_true]
  have hpassed : ¬ st.BuySignal r mint → ∀ result, Visit st r mint b result b :=
    fun hno result => .passed result hfree fun h => hno h.2.1
  rcases hprice : st.getLatestTradePrice r.price mint with f | _ | price
  · exact hpassed (by simp [Setting.BuySignal, hprice]) _
  · exact hpassed (by simp [Setting.BuySignal, hprice]) _
  rcases hchange : st.checkPriceIncrease r.change mint with f | _ | _
  · exact hpassed (by simp [Setting.BuySignal, hchange]) _
  · exact hpassed (by simp [Setting.BuySignal, hchange]) _
  · exact executeBuy_cases hfree ⟨⟨price, hprice⟩, hchange⟩

theorem checkSellCondition_cases {position : TokenPosition} (hheld : b.positions mint = some position) :
    Visit st r mint b ((st.checkSellCondition r mint).run b).1 ((st.checkSellCondition r mint).run b).2 := by
  simp only [Setting.checkSellCondition]
  rw [Proc.bind_run_ok (Proc.modify_run _ b), Proc.bind_run_ok (Proc.get_run _)]
  dsimp only
  rw [hheld]
  dsimp only
  rcases hprice : st.getLatestTradePrice r.price mint with f | _ | price
  · exact .kept position _ hheld (by simp [Setting.SellSignal, hprice])
  · exact .kept position _ hheld (by simp [Setting.SellSignal, hprice])
  rw [Proc.bind_run_ok (Proc.ofExcept_run _ _)]
  dsimp only
  split_ifs with hsell
  swap
  · exact .kept position _ hheld (by simp [Setting.SellSignal, hprice, hsell])
  have hsignal : st.SellSignal r mint position := ⟨price, hprice, hsell⟩
  have hrun := traderSell_run st r.answers mint position.tradeInfo { b with trace := .sellCheck mint :: b.trace }
  simp only [Setting.executeSell]
  rcases ho : (b.trader.sell st.env r.answers position.tradeInfo).outcome with f | u
  · dsimp only at hrun
    rw [ho] at hrun
    rw [Proc.bind_run_error hrun]
    exact .sellFailed position f hheld hsignal ho
  · dsimp only at hrun
    rw [ho] at hrun
    rw [Proc.bind_run_ok hrun]
    exact .sold position hheld hsignal ho

/-- **Everything a visit can do.** -/
theorem visit_cases (st : Setting) (r : Replies) (mint : String) (b : Bot) :
    Visit st r mint b ((st.visit r mint).run b).1 ((st.visit r mint).run b).2 := by
  simp only [Setting.visit]
  rw [Proc.bind_run_ok (isHolding_run mint b)]
  rcases hp : b.positions mint with _ | position
  · exact checkBuyCondition_cases hp
  · exact checkSellCondition_cases hp

end Cases

/-! ### The loop -/

/-- Where the loop is. -/
inductive Control where
  /-- About to ask for the mints. -/
  | top
  /-- Going through the mints, with these left. -/
  | visiting (mints : List String)
  /-- Ended by a failure. -/
  | stopped (f : Failure)
  deriving DecidableEq

/-- The loop. -/
structure Loop where
  bot : Bot
  control : Control

namespace Setting

variable (st : Setting)

/-- Where the loop goes after an operation: on, or to its end. -/
def next (result : Result Control) : Control :=
  match result with
  | .ok c => c
  | .error f => .stopped f

/-- One step of the loop. -/
def step (r : Replies) (s : Loop) : Loop :=
  match s.control with
  | .top => { s with control := next ((st.getActiveMints r.keys).map .visiting) }
  | .visiting [] => { s with control := .top }
  | .visiting (mint :: mints) =>
    let (result, bot) := (st.visit r mint).run s.bot
    { bot := bot, control := next (result.map fun _ => .visiting mints) }
  | .stopped _ => s

/-- The loop after a step for each of the replies. -/
def monitoringLoop (replies : List Replies) (s : Loop) : Loop := replies.foldl (fun s r => st.step r s) s

end Setting

end PumpSwapBot.Rust
