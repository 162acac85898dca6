import PumpSwapBot.Node.Recorder
import PumpSwapBot.Node.Store
import PumpSwapBot.Node.Trader

/-!
# The strategy of the Node bot

`TradingStrategy` of `strategy.ts`: the monitoring loop, which goes through the mints that have records, buys those
it does not hold and sells those it holds. What it holds is in two places: the positions of the process, and those
of the recorder, which are in a file as well.

## The model

* The functions of the source are programs over the bot's state (`Bot`); what the outside answers the calls of one
  visit to a mint is a parameter (`Replies`).
* The loop is a machine that makes one step for each call of `getActiveMints` and one for each mint (`step`). An
  exception leads back to its top, and the end of the process to a state that only a restart leaves.
* Beside the state of the source, the bot keeps a trace, newest first, which a restart does not touch, and the list of
  the checks the process has made. The code has neither; the theorems are about them.
* Prices and the gain on a position are computed in doubles, rounded as the setting says (`Setting.number`).

## What is proved

* `visit_cases` — everything a visit can do: with the mint not held, nothing or one buy; with the mint held, nothing,
  a sell that is called for and does not take place, or one sell.
* `Visit.same` — for the other mints it leaves all the same.
-/

namespace PumpSwapBot.Node

open PumpSwapBot.Sdk PumpSwapBot.Library

/-! ### State -/

/-- A token that is held. -/
structure TokenPosition where
  mint : String
  buyPrice : ℚ
  buySolAmount : ℤ
  tradeInfo : TradeInfo
  deriving DecidableEq

/-- What is observed of the loop. -/
inductive Trace where
  /-- The gain or the loss of a mint calls for a sell. -/
  | sellSignal (mint : String)
  /-- `executeSell` is called. -/
  | executeSell (mint : String) (info : TradeInfo)
  /-- A buy is ordered, and its transaction lands or not. -/
  | buy (mint : String) (order : TradeBuyParams) (lands : Bool)
  /-- A sell is ordered, and its transaction lands or not. -/
  | sell (mint : String) (order : TradeSellParams) (lands : Bool)
  deriving DecidableEq

/-- A check of the loop. -/
inductive Check where
  | buy (mint : String)
  | sell (mint : String)
  deriving DecidableEq

/-- The mint that is checked. -/
def Check.mint : Check → String
  | .buy mint => mint
  | .sell mint => mint

/-- The state of the bot. -/
structure Bot where
  trader : Trader
  positions : String → Option TokenPosition
  tradeInfoCache : String → Option TradeInfo
  tradeRecorder : TradeRecorder
  /-- What happened, newest first. -/
  trace : List Trace
  /-- The checks that were begun, newest first. -/
  checks : List Check

/-- What does not change while the bot runs. -/
structure Setting where
  config : BotConfig
  /-- How the results of operations on doubles are rounded. -/
  number : Rounding 53
  /-- Whether the store could be made at the start. -/
  redisAvailable : Bool
  /-- The record of a text, `JSON.parse`. -/
  parse : String → Option TokenTradeRecord
  /-- The address of a text, `new PublicKey`. -/
  publicKey : String → Except String Pubkey

/-- The answers to the calls of one step of the loop. -/
structure Replies where
  /-- The store, asked for the mints. -/
  keys : ReadReplies
  /-- The store, asked for the latest price. -/
  price : ReadReplies
  /-- The store, asked for the change of the price. -/
  change : ReadReplies
  /-- The node and the SDK. -/
  answers : Answers
  /-- What surrounds `updatePrice`. -/
  noting : Ambient
  /-- What surrounds `recordBuy` and `recordSell`. -/
  recording : Ambient

namespace Bot

/-- A check is begun. -/
def begun (b : Bot) (c : Check) : Bot := { b with checks := c :: b.checks }

/-- Whether a mint is held by the process. -/
def isHolding (b : Bot) (mint : String) : Bool := (b.positions mint).isSome

/-- Whether a mint is held by the process or the recorder. -/
def holds (b : Bot) (mint : String) : Bool := b.isHolding mint || b.tradeRecorder.isHolding mint

/-- The buy price of a mint that is held, `position?.buyPrice ?? activePosition?.buyPrice ?? 0`. -/
def buyPrice (b : Bot) (mint : String) : ℚ :=
  match b.positions mint, b.tradeRecorder.getActivePosition mint with
  | some position, _ => position.buyPrice
  | none, some position => position.buyPrice
  | none, none => 0

/-! To begin a check changes nothing else. -/

section Begun

variable (b : Bot) (c : Check)

@[simp] theorem begun_trader : (b.begun c).trader = b.trader := rfl

@[simp] theorem begun_positions : (b.begun c).positions = b.positions := rfl

@[simp] theorem begun_tradeInfoCache : (b.begun c).tradeInfoCache = b.tradeInfoCache := rfl

@[simp] theorem begun_tradeRecorder : (b.begun c).tradeRecorder = b.tradeRecorder := rfl

@[simp] theorem begun_trace : (b.begun c).trace = b.trace := rfl

@[simp] theorem begun_checks : (b.begun c).checks = c :: b.checks := rfl

@[simp] theorem begun_holds : (b.begun c).holds = b.holds := rfl

@[simp] theorem begun_buyPrice : (b.begun c).buyPrice = b.buyPrice := rfl

end Begun

end Bot

/-! ### The functions of the source -/

/-- The gain on a position in percent. -/
def profitPct (number : Rounding 53) (buyPrice currentPrice : ℚ) : ℚ :=
  if buyPrice > 0 then number.mul (number.div (number.sub currentPrice buyPrice) buyPrice) 100 else 0

/-- Whether a gain, or a loss, is large enough to sell. -/
def shouldSell (config : BotConfig) (profitPct : ℚ) : Bool :=
  if profitPct ≥ config.sellProfitPct then true
  else if profitPct ≤ -config.sellStopLossPct then true
  else false

/-- A call that may throw. -/
def throwing {α : Type} (result : Except String α) : Proc Bot Halt α := Proc.ofExcept (result.mapError .thrown)

/-- A call of the recorder. -/
def recorder {α : Type} (m : Proc TradeRecorder Halt α) : Proc Bot Halt α :=
  Proc.zoom Bot.tradeRecorder (fun t b => { b with tradeRecorder := t }) m

/-- The signature a trade is recorded with, `result.signatures[0] || 'unknown'`. -/
def OrderResult.signature (result : OrderResult) : String := orText result.signatures.head? "unknown"

namespace Setting

variable (st : Setting)

/-- The mints that have records. -/
def getActiveMints (r : ReadReplies) : Except String (List String) :=
  if st.redisAvailable then Node.getActiveMints r else .ok []

/-- The latest price of a mint. -/
def getLatestTradePrice (r : ReadReplies) (mint : String) : Except String (Option ℚ) :=
  if st.redisAvailable then getLatestPriceFromTrades st.parse r mint else .ok none

/-- Whether the price has risen enough to buy. -/
def checkPriceIncrease (r : ReadReplies) (mint : String) : Except String Bool :=
  if st.redisAvailable then
    (calculatePriceChangeFromRecords st.number st.parse r mint st.config.buyRecordCount).map fun
      | some priceChange => decide (priceChange ≥ st.config.buyThresholdPct)
      | none => false
  else .ok false

/-- The trade data of a mint as the trader fetches them. -/
def fetchTradeInfo (t : Trader) (a : Answers) (mint : String) : Except String TradeInfo := do
  let mintPubkey ← st.publicKey mint
  t.fetchTradeInfoWithRetry a mintPubkey

/-- The trade data of a mint: those fetched before, or fetched now and kept. -/
def getOrFetchTradeInfo (a : Answers) (mint : String) : Proc Bot Halt TradeInfo := do
  let b ← Proc.get
  match b.tradeInfoCache mint with
  | some info => return info
  | none => do
    let info ← throwing (st.fetchTradeInfo b.trader a mint)
    Proc.modify fun b => { b with tradeInfoCache := Function.update b.tradeInfoCache mint (some info) }
    return info

/-- The trader's buy, with its trace. -/
def traderBuy (a : Answers) (mint : String) (info : TradeInfo) (solAmount : ℤ) : Proc Bot Halt OrderResult := do
  let b ← Proc.get
  let (report, trader) := b.trader.buy st.number a info solAmount
  Proc.modify fun b => { b with
    trader := trader
    trace := (report.order.map fun order => Trace.buy mint order a.buyLands).toList ++ b.trace }
  throwing report.outcome

/-- The trader's sell, with its trace. -/
def traderSell (a : Answers) (mint : String) (info : TradeInfo) : Proc Bot Halt OrderResult := do
  let b ← Proc.get
  let report := b.trader.sell st.number a info
  Proc.modify fun b => { b with
    trace := (report.order.map fun order => Trace.sell mint order a.sellLands).toList ++ b.trace }
  throwing report.outcome

/-- Buy a mint, hold it and record it, if that was reported a success. -/
def executeBuy (r : Replies) (mint : String) : Proc Bot Halt Unit := do
  let b ← Proc.get
  if b.holds mint then return ()
  else do
    let info ← st.getOrFetchTradeInfo r.answers mint
    let result ← st.traderBuy r.answers mint info st.config.buyAmountLamports
    if result.success then do
      Proc.modify fun b => { b with
        positions := Function.update b.positions mint (some ⟨mint, result.price, st.config.buyAmountLamports, info⟩) }
      recorder (TradeRecorder.recordBuy r.recording mint result.price st.config.buyAmountLamports result.signature)
    else throwing (.error (orText result.error "Buy failed"))

/-- What a sell is taken to have brought, from its price and the position of the recorder. -/
def sellSolAmount (active : Option ActivePosition) (sellPrice : ℚ) : ℤ :=
  match active with
  | some position =>
    if position.buyPrice > 0 then
      let pnlPct := st.number.div (st.number.sub sellPrice position.buyPrice) position.buyPrice
      ⌊st.number.mul position.buySolAmount (st.number.add 1 pnlPct)⌋
    else 0
  | none => 0

/-- Sell a mint, hold it no longer and record that, if it was reported a success. -/
def executeSell (r : Replies) (mint : String) (info : TradeInfo) : Proc Bot Halt Unit := do
  Proc.modify fun b => { b with trace := .executeSell mint info :: b.trace }
  let result ← st.traderSell r.answers mint info
  if result.success then do
    Proc.modify fun b => { b with positions := Function.update b.positions mint none }
    let b ← Proc.get
    let sellSolAmount := st.sellSolAmount (b.tradeRecorder.getActivePosition mint) result.price
    let _ ← recorder (TradeRecorder.recordSell r.recording mint result.price sellSolAmount result.signature)
    return ()
  else throwing (.error (orText result.error "Sell failed"))

/-- Buy a mint if its price has risen enough. -/
def checkBuyCondition (r : Replies) (mint : String) : Proc Bot Halt Unit := do
  Proc.modify fun b => b.begun (.buy mint)
  let b ← Proc.get
  if b.holds mint then return ()
  else do
    let currentPrice ← throwing (st.getLatestTradePrice r.price mint)
    match currentPrice with
    | none => return ()
    | some _ => do
      let shouldBuy ← throwing (st.checkPriceIncrease r.change mint)
      if shouldBuy then st.executeBuy r mint else return ()

/-- Take note of the price of a mint, if the recorder holds it. -/
def notePrice (r : Replies) (mint : String) (activePosition : Option ActivePosition) (currentPrice : ℚ) :
    Proc Bot Halt Unit :=
  if activePosition.isSome then recorder (TradeRecorder.updatePrice r.noting mint currentPrice) else pure ()

/-- Sell a mint if the gain or the loss is large enough, and its trade data are known. -/
def sellAt (r : Replies) (mint : String) (b : Bot) (currentPrice : ℚ) : Proc Bot Halt Unit :=
  if shouldSell st.config (profitPct st.number (b.buyPrice mint) currentPrice) then do
    Proc.modify fun b => { b with trace := .sellSignal mint :: b.trace }
    match (b.positions mint).map TokenPosition.tradeInfo <|> b.tradeInfoCache mint with
    | some info => st.executeSell r mint info
    | none => return ()
  else return ()

/-- Take note of the price of a mint that is held, and sell it if that calls for it. -/
def checkSellCondition (r : Replies) (mint : String) : Proc Bot Halt Unit := do
  Proc.modify fun b => b.begun (.sell mint)
  let b ← Proc.get
  let activePosition := b.tradeRecorder.getActivePosition mint
  if (b.positions mint).isNone ∧ activePosition.isNone then return ()
  else do
    let currentPrice ← throwing (st.getLatestTradePrice r.price mint)
    match currentPrice with
    | none => return ()
    | some currentPrice => do
      notePrice r mint activePosition currentPrice
      st.sellAt r mint b currentPrice

/-- What the loop does for a mint. -/
def visit (r : Replies) (mint : String) : Proc Bot Halt Unit := do
  let b ← Proc.get
  if b.holds mint then st.checkSellCondition r mint else st.checkBuyCondition r mint

end Setting

/-! ### What a visit can do -/

/-- The store gives a reason to buy. -/
def Setting.BuySignal (st : Setting) (r : Replies) (mint : String) : Prop :=
  (∃ price, st.getLatestTradePrice r.price mint = .ok (some price)) ∧ st.checkPriceIncrease r.change mint = .ok true

/-- The trader's buy is reached: the mint is not held, there is a reason to buy, and there are trade data. -/
structure Setting.Buys (st : Setting) (r : Replies) (mint : String) (b : Bot) (info : TradeInfo) : Prop where
  free : b.holds mint = false
  signal : st.BuySignal r mint
  info : ((st.getOrFetchTradeInfo r.answers mint).run b).1 = .ok info

theorem Setting.Buys.not_held {st : Setting} {r : Replies} {mint : String} {b : Bot} {info : TradeInfo}
    (h : st.Buys r mint b info) : ¬ b.holds mint = true := ne_true_of_eq_false h.free

/-- The latest price of a mint that is held calls for a sell. -/
def Setting.SellSignal (st : Setting) (r : Replies) (mint : String) (b : Bot) : Prop :=
  ∃ price, st.getLatestTradePrice r.price mint = .ok (some price) ∧
    shouldSell st.config (profitPct st.number (b.buyPrice mint) price) = true

namespace Bot

/-- The trade data a mint is sold with. -/
def sellInfo (b : Bot) (mint : String) : Option TradeInfo :=
  (b.positions mint).map TokenPosition.tradeInfo <|> b.tradeInfoCache mint

/-- What a buy reports. -/
def buyReport (b : Bot) (st : Setting) (r : Replies) (info : TradeInfo) : Report TradeBuyParams :=
  (b.trader.buy st.number r.answers info st.config.buyAmountLamports).1

/-- The trace after a buy. -/
def buyTrace (b : Bot) (st : Setting) (r : Replies) (mint : String) (info : TradeInfo) : List Trace :=
  ((b.buyReport st r info).order.map fun order => Trace.buy mint order r.answers.buyLands).toList ++ b.trace

/-- The trace after a sell. -/
def sellTrace (b : Bot) (st : Setting) (r : Replies) (mint : String) (info : TradeInfo) : List Trace :=
  ((b.trader.sell st.number r.answers info).order.map fun order => Trace.sell mint order r.answers.sellLands).toList ++
    .executeSell mint info :: .sellSignal mint :: b.trace

/-- The recorder after a price was noted. -/
def noted (b : Bot) (r : Replies) (mint : String) (price : ℚ) : TradeRecorder :=
  ((TradeRecorder.updatePrice r.noting mint price).run b.tradeRecorder).2

end Bot

/-- The outcomes of a visit to a mint, each with the state it leaves. -/
inductive Visit (st : Setting) (r : Replies) (mint : String) (b : Bot) : Except Halt Unit → Bot → Prop where
  /-- The mint is not held, and a buy is not tried. -/
  | passed (result : Except Halt Unit) (hfree : b.holds mint = false) (hno : ∀ info, ¬ st.Buys r mint b info) :
      Visit st r mint b result (b.begun (.buy mint))
  /-- A buy is tried, and not reported a success. -/
  | notBought (info : TradeInfo) (result : Except Halt Unit) (hbuys : st.Buys r mint b info)
      (hno : ∀ bought, (b.buyReport st r info).outcome = .ok bought → bought.success = false) :
      Visit st r mint b result { b.begun (.buy mint) with
        trader := (b.trader.buy st.number r.answers info st.config.buyAmountLamports).2
        tradeInfoCache := Function.update b.tradeInfoCache mint (some info)
        trace := b.buyTrace st r mint info }
  /-- A buy is reported a success, and recorded. -/
  | bought (info : TradeInfo) (bought : OrderResult) (hbuys : st.Buys r mint b info)
      (hok : (b.buyReport st r info).outcome = .ok bought) (hsuccess : bought.success = true) :
      Visit st r mint b
        ((TradeRecorder.recordBuy r.recording mint bought.price st.config.buyAmountLamports bought.signature).run
          b.tradeRecorder).1 { b.begun (.buy mint) with
        trader := (b.trader.buy st.number r.answers info st.config.buyAmountLamports).2
        positions := Function.update b.positions mint (some ⟨mint, bought.price, st.config.buyAmountLamports, info⟩)
        tradeInfoCache := Function.update b.tradeInfoCache mint (some info)
        tradeRecorder :=
          ((TradeRecorder.recordBuy r.recording mint bought.price st.config.buyAmountLamports bought.signature).run
            b.tradeRecorder).2
        trace := b.buyTrace st r mint info }
  /-- The mint is held, and no sell is called for, or the price could not be noted. -/
  | kept (result : Except Halt Unit) (recorder : TradeRecorder) (hheld : b.holds mint = true)
      (hrecorder : recorder = b.tradeRecorder ∨ ∃ price, recorder = b.noted r mint price)
      (hno : ¬ st.SellSignal r mint b ∨
        ∃ price e, ((TradeRecorder.updatePrice r.noting mint price).run b.tradeRecorder).1 = .error e) :
      Visit st r mint b result { b.begun (.sell mint) with tradeRecorder := recorder }
  /-- A sell is called for, and there are no trade data. -/
  | unsold (price : ℚ) (hheld : b.holds mint = true) (hsignal : st.SellSignal r mint b) (hinfo : b.sellInfo mint = none) :
      Visit st r mint b (.ok ()) { b.begun (.sell mint) with
        tradeRecorder := b.noted r mint price
        trace := .sellSignal mint :: b.trace }
  /-- A sell is tried, and not reported a success. -/
  | notSold (price : ℚ) (info : TradeInfo) (result : Except Halt Unit) (hheld : b.holds mint = true)
      (hsignal : st.SellSignal r mint b) (hinfo : b.sellInfo mint = some info)
      (hno : ∀ sold, (b.trader.sell st.number r.answers info).outcome = .ok sold → sold.success = false) :
      Visit st r mint b result { b.begun (.sell mint) with
        tradeRecorder := b.noted r mint price
        trace := b.sellTrace st r mint info }
  /-- A sell is reported a success, and recorded. -/
  | sold (price : ℚ) (info : TradeInfo) (sold : OrderResult) (amount : ℤ) (result : Except Halt Unit)
      (hheld : b.holds mint = true) (hsignal : st.SellSignal r mint b) (hinfo : b.sellInfo mint = some info)
      (hok : (b.trader.sell st.number r.answers info).outcome = .ok sold) (hsuccess : sold.success = true) :
      Visit st r mint b result { b.begun (.sell mint) with
        positions := Function.update b.positions mint none
        tradeRecorder :=
          ((TradeRecorder.recordSell r.recording mint sold.price amount sold.signature).run (b.noted r mint price)).2
        trace := b.sellTrace st r mint info }

/-- At the price of the buy there is no gain. -/
theorem profitPct_self (number : Rounding 53) (price : ℚ) : profitPct number price price = 0 := by
  simp [profitPct, Rounding.sub, Rounding.div, Rounding.mul]

section Cases

variable {st : Setting} {r : Replies} {mint : String} {b : Bot}

theorem throwing_run_ok {α : Type} (a : α) (b : Bot) : (throwing (.ok a)).run b = (.ok a, b) := rfl

theorem recorder_run {α : Type} (m : Proc TradeRecorder Halt α) (b : Bot) :
    (recorder m).run b = ((m.run b.tradeRecorder).1, { b with tradeRecorder := (m.run b.tradeRecorder).2 }) :=
  Proc.zoom_run _ _ m b

/-- Fetching trade data changes the cache, for the mint and only if it succeeds. -/
theorem getOrFetchTradeInfo_run (st : Setting) (a : Answers) (mint : String) (b : Bot) :
    (∃ e, (st.getOrFetchTradeInfo a mint).run b = (.error (.thrown e), b)) ∨
      ∃ info, (st.getOrFetchTradeInfo a mint).run b =
        (.ok info, { b with tradeInfoCache := Function.update b.tradeInfoCache mint (some info) }) := by
  simp only [Setting.getOrFetchTradeInfo]
  rw [Proc.bind_run_ok (Proc.get_run b)]
  rcases hcache : b.tradeInfoCache mint with _ | info
  · dsimp only
    rcases hf : st.fetchTradeInfo b.trader a mint with e | info
    · exact Or.inl ⟨e, rfl⟩
    · exact Or.inr ⟨info, rfl⟩
  · have hself : Function.update b.tradeInfoCache mint (some info) = b.tradeInfoCache := by
      rw [← hcache, Function.update_eq_self]
    refine Or.inr ⟨info, ?_⟩
    rw [hself]
    rfl

/-- It has nothing to do with the checks. -/
theorem getOrFetchTradeInfo_begun (st : Setting) (a : Answers) (mint : String) (b : Bot) (c : Check) :
    (st.getOrFetchTradeInfo a mint).run (b.begun c) =
      (((st.getOrFetchTradeInfo a mint).run b).1, ((st.getOrFetchTradeInfo a mint).run b).2.begun c) := by
  simp only [Setting.getOrFetchTradeInfo]
  rw [Proc.bind_run_ok (Proc.get_run b), Proc.bind_run_ok (Proc.get_run (b.begun c)), b.begun_tradeInfoCache,
    b.begun_trader]
  rcases b.tradeInfoCache mint with _ | info
  · dsimp only
    rcases st.fetchTradeInfo b.trader a mint with e | info
    · rfl
    · rfl
  · rfl

theorem traderBuy_run (st : Setting) (r : Replies) (mint : String) (info : TradeInfo) (b : Bot) :
    (st.traderBuy r.answers mint info st.config.buyAmountLamports).run b =
      ((b.buyReport st r info).outcome.mapError .thrown, { b with
        trader := (b.trader.buy st.number r.answers info st.config.buyAmountLamports).2
        trace := b.buyTrace st r mint info }) := rfl

theorem executeBuy_cases (hfree : b.holds mint = false) (hsignal : st.BuySignal r mint) :
    Visit st r mint b ((st.executeBuy r mint).run (b.begun (.buy mint))).1
      ((st.executeBuy r mint).run (b.begun (.buy mint))).2 := by
  have hfetch := getOrFetchTradeInfo_begun st r.answers mint b (.buy mint)
  simp only [Setting.executeBuy]
  rw [Proc.bind_run_ok (Proc.get_run _), b.begun_holds, hfree, if_neg Bool.false_ne_true]
  rcases getOrFetchTradeInfo_run st r.answers mint b with ⟨e, he⟩ | ⟨info, hinfo⟩
  · rw [he] at hfetch
    rw [Proc.bind_run_error hfetch]
    refine .passed _ hfree fun info hbuys => ?_
    have hinfo := hbuys.info
    rw [he] at hinfo
    cases hinfo
  rw [hinfo] at hfetch
  rw [Proc.bind_run_ok hfetch]
  have hbuys : st.Buys r mint b info := ⟨hfree, hsignal, by rw [hinfo]⟩
  have hbuy := traderBuy_run st r mint info
    (Bot.begun { b with tradeInfoCache := Function.update b.tradeInfoCache mint (some info) } (.buy mint))
  change _ = ((b.buyReport st r info).outcome.mapError Halt.thrown, _) at hbuy
  rcases ho : (b.buyReport st r info).outcome with e | bought
  · rw [ho] at hbuy
    rw [Proc.bind_run_error hbuy]
    exact .notBought info _ hbuys (by simp [ho])
  · rw [ho] at hbuy
    rw [Proc.bind_run_ok hbuy]
    by_cases hsuccess : bought.success = true
    · rw [if_pos hsuccess]
      exact .bought info bought hbuys ho hsuccess
    · rw [if_neg hsuccess]
      exact .notBought info _ hbuys (by simpa [ho] using hsuccess)

theorem checkBuyCondition_cases (hfree : b.holds mint = false) :
    Visit st r mint b ((st.checkBuyCondition r mint).run b).1 ((st.checkBuyCondition r mint).run b).2 := by
  simp only [Setting.checkBuyCondition]
  rw [Proc.bind_run_ok (Proc.modify_run _ b), Proc.bind_run_ok (Proc.get_run _), b.begun_holds, hfree,
    if_neg Bool.false_ne_true]
  have hpassed : ¬ st.BuySignal r mint → ∀ result, Visit st r mint b result (b.begun (.buy mint)) :=
    fun hno result => .passed result hfree fun info hbuys => hno hbuys.signal
  rcases hprice : st.getLatestTradePrice r.price mint with e | _ | price
  · exact hpassed (by simp [Setting.BuySignal, hprice]) _
  · exact hpassed (by simp [Setting.BuySignal, hprice]) _
  rcases hchange : st.checkPriceIncrease r.change mint with e | _ | _
  · exact hpassed (by simp [Setting.BuySignal, hchange]) _
  · exact hpassed (by simp [Setting.BuySignal, hchange]) _
  · exact executeBuy_cases hfree ⟨⟨price, hprice⟩, hchange⟩

theorem traderSell_run (st : Setting) (r : Replies) (mint : String) (info : TradeInfo) (b : Bot) :
    (st.traderSell r.answers mint info).run b =
      ((b.trader.sell st.number r.answers info).outcome.mapError .thrown, { b with
        trace := ((b.trader.sell st.number r.answers info).order.map fun order =>
          Trace.sell mint order r.answers.sellLands).toList ++ b.trace }) := rfl

theorem holds_eq_false_iff :
    b.holds mint = false ↔ b.positions mint = none ∧ b.tradeRecorder.getActivePosition mint = none := by
  simp [Bot.holds, Bot.isHolding, TradeRecorder.isHolding, OrderedMap.has, TradeRecorder.getActivePosition]

theorem notePrice_run (r : Replies) (mint : String) (price : ℚ) (b : Bot) :
    (Setting.notePrice r mint (b.tradeRecorder.getActivePosition mint) price).run b =
      (((TradeRecorder.updatePrice r.noting mint price).run b.tradeRecorder).1,
        { b with tradeRecorder := b.noted r mint price }) := by
  simp only [Setting.notePrice, Bot.noted]
  rcases hactive : b.tradeRecorder.getActivePosition mint with _ | position
  · rw [TradeRecorder.updatePrice_run_of_none hactive]
    rfl
  · rfl

theorem executeSell_cases {price : ℚ} {info : TradeInfo} (hheld : b.holds mint = true)
    (hsignal : st.SellSignal r mint b) (hinfo : b.sellInfo mint = some info) :
    Visit st r mint b
      ((st.executeSell r mint info).run
        { b.begun (.sell mint) with tradeRecorder := b.noted r mint price, trace := .sellSignal mint :: b.trace }).1
      ((st.executeSell r mint info).run
        { b.begun (.sell mint) with tradeRecorder := b.noted r mint price, trace := .sellSignal mint :: b.trace }).2 := by
  simp only [Setting.executeSell]
  rw [Proc.bind_run_ok (Proc.modify_run _ _)]
  have hsold := traderSell_run st r mint info { b.begun (.sell mint) with
    tradeRecorder := b.noted r mint price
    trace := .executeSell mint info :: .sellSignal mint :: b.trace }
  change _ = ((b.trader.sell st.number r.answers info).outcome.mapError Halt.thrown, _) at hsold
  rcases ho : (b.trader.sell st.number r.answers info).outcome with e | sold
  · rw [ho] at hsold
    rw [Proc.bind_run_error hsold]
    exact .notSold price info _ hheld hsignal hinfo (by simp [ho])
  rw [ho] at hsold
  rw [Proc.bind_run_ok hsold]
  by_cases hsuccess : sold.success = true
  swap
  · rw [if_neg hsuccess]
    exact .notSold price info _ hheld hsignal hinfo (by simpa [ho] using hsuccess)
  rw [if_pos hsuccess, Proc.bind_run_ok (Proc.modify_run _ _), Proc.bind_run_ok (Proc.get_run _), Proc.bind_run,
    recorder_run]
  have hend := fun amount result => Visit.sold price info sold amount result hheld hsignal hinfo ho hsuccess
  dsimp only
  generalize st.sellSolAmount _ _ = amount
  rcases hrec : ((TradeRecorder.recordSell r.recording mint sold.price amount sold.signature).run
    (b.noted r mint price)).1 with e | record
  · exact hend amount (.error e)
  · exact hend amount (.ok ())

theorem sellAt_cases {price : ℚ} (hheld : b.holds mint = true)
    (hprice : st.getLatestTradePrice r.price mint = .ok (some price)) :
    Visit st r mint b
      ((st.sellAt r mint (b.begun (.sell mint)) price).run
        { b.begun (.sell mint) with tradeRecorder := b.noted r mint price }).1
      ((st.sellAt r mint (b.begun (.sell mint)) price).run
        { b.begun (.sell mint) with tradeRecorder := b.noted r mint price }).2 := by
  rw [Setting.sellAt, b.begun_buyPrice]
  by_cases hsell : shouldSell st.config (profitPct st.number (b.buyPrice mint) price) = true
  swap
  · rw [if_neg hsell]
    exact .kept _ _ hheld (Or.inr ⟨price, rfl⟩) (Or.inl (by simp [Setting.SellSignal, hprice, hsell]))
  rw [if_pos hsell, Proc.bind_run_ok (Proc.modify_run _ _)]
  have hsignal : st.SellSignal r mint b := ⟨price, hprice, hsell⟩
  change Visit st r mint b (Proc.run (match b.sellInfo mint with | some info => _ | none => _) _).1
    (Proc.run (match b.sellInfo mint with | some info => _ | none => _) _).2
  rcases hinfo : b.sellInfo mint with _ | info
  · exact .unsold price hheld hsignal hinfo
  · exact executeSell_cases hheld hsignal hinfo

theorem checkSellCondition_cases (hheld : b.holds mint = true) :
    Visit st r mint b ((st.checkSellCondition r mint).run b).1 ((st.checkSellCondition r mint).run b).2 := by
  have hsome : ¬ ((b.positions mint).isNone = true ∧ (b.tradeRecorder.getActivePosition mint).isNone = true) := by
    intro hnone
    rw [holds_eq_false_iff.mpr (by simpa using hnone)] at hheld
    cases hheld
  simp only [Setting.checkSellCondition]
  rw [Proc.bind_run_ok (Proc.modify_run _ b), Proc.bind_run_ok (Proc.get_run _), b.begun_positions,
    b.begun_tradeRecorder, if_neg hsome]
  rcases hprice : st.getLatestTradePrice r.price mint with e | _ | price
  · exact .kept _ _ hheld (Or.inl rfl) (Or.inl (by simp [Setting.SellSignal, hprice]))
  · exact .kept _ _ hheld (Or.inl rfl) (Or.inl (by simp [Setting.SellSignal, hprice]))
  rw [Proc.bind_run_ok (throwing_run_ok (some price) _)]
  dsimp only
  have hnote := notePrice_run r mint price (b.begun (.sell mint))
  rw [b.begun_tradeRecorder] at hnote
  rcases hout : ((TradeRecorder.updatePrice r.noting mint price).run b.tradeRecorder).1 with e | u
  · rw [hout] at hnote
    rw [Proc.bind_run_error hnote]
    exact .kept _ _ hheld (Or.inr ⟨price, rfl⟩) (Or.inr ⟨price, e, hout⟩)
  · rw [hout] at hnote
    rw [Proc.bind_run_ok hnote]
    exact sellAt_cases hheld hprice

/-- A check of the Node bot calls for a sell exactly if the price does, once the price is noted. -/
theorem checkSellCondition_signals_iff (hheld : b.holds mint = true) (hnoting : r.noting.active = .done) :
    (∃ events, ((st.checkSellCondition r mint).run b).2.trace = events ++ .sellSignal mint :: b.trace) ↔
      st.SellSignal r mint b := by
  have hvisit : Visit st r mint b ((st.checkSellCondition r mint).run b).1
    ((st.checkSellCondition r mint).run b).2 := checkSellCondition_cases hheld
  generalize ((st.checkSellCondition r mint).run b).1 = result at hvisit
  generalize ((st.checkSellCondition r mint).run b).2 = after at hvisit ⊢
  cases hvisit with
  | passed _ hfree _ => exact absurd hheld (ne_true_of_eq_false hfree)
  | notBought _ _ hbuys _ => exact absurd hheld hbuys.not_held
  | bought _ _ hbuys _ _ => exact absurd hheld hbuys.not_held
  | kept _ _ _ _ hno =>
    have hnot : ¬ st.SellSignal r mint b := by
      rcases hno with hno | ⟨price, e, herror⟩
      · exact hno
      · rw [TradeRecorder.updatePrice_ok hnoting] at herror
        cases herror
    refine iff_of_false ?_ hnot
    rintro ⟨events, htrace⟩
    have hlength := congrArg List.length htrace
    simp only [Bot.begun_trace, List.length_append, List.length_cons] at hlength
    omega
  | unsold _ _ hsignal _ => exact iff_of_true ⟨[], rfl⟩ hsignal
  | notSold _ info _ _ hsignal _ _ => exact iff_of_true ⟨_, List.append_cons _ _ _⟩ hsignal
  | sold _ info _ _ _ _ hsignal _ _ _ => exact iff_of_true ⟨_, List.append_cons _ _ _⟩ hsignal

/-- **Everything a visit can do.** -/
theorem visit_cases (st : Setting) (r : Replies) (mint : String) (b : Bot) :
    Visit st r mint b ((st.visit r mint).run b).1 ((st.visit r mint).run b).2 := by
  simp only [Setting.visit]
  rw [Proc.bind_run_ok (Proc.get_run b)]
  rcases hholds : b.holds mint with _ | _
  · exact checkBuyCondition_cases hholds
  · exact checkSellCondition_cases hholds

/-! What a visit leaves as it was. -/

/-- All the same for a mint: its position, its trade data, and whether the recorder holds it. -/
structure Same (mint : String) (b b' : Bot) : Prop where
  position : b'.positions mint = b.positions mint
  cache : b'.tradeInfoCache mint = b.tradeInfoCache mint
  active : b'.tradeRecorder.isHolding mint = b.tradeRecorder.isHolding mint

theorem Same.holds {b' : Bot} (h : Same mint b b') : b'.holds mint = b.holds mint := by
  rw [Bot.holds, Bot.holds, Bot.isHolding, Bot.isHolding, h.position, h.active]

/-- To take note of a price changes nothing of that. -/
theorem same_noted (b : Bot) (r : Replies) (m : String) (price : ℚ) (c : Check) (trace : List Trace) :
    Same mint b { b.begun c with tradeRecorder := b.noted r m price, trace := trace } :=
  ⟨rfl, rfl, TradeRecorder.isHolding_updatePrice _ _ _ _ _⟩

/-- For the other mints a visit leaves all the same. -/
theorem Visit.same {m : String} {b' : Bot} {result : Except Halt Unit} (h : Visit st r m b result b')
    (hm : mint ≠ m) : Same mint b b' := by
  cases h with
  | passed _ _ _ => exact ⟨rfl, rfl, rfl⟩
  | notBought _ _ _ _ => exact ⟨rfl, Function.update_of_ne hm _ _, rfl⟩
  | bought _ _ _ _ _ =>
    exact ⟨Function.update_of_ne hm _ _, Function.update_of_ne hm _ _,
      TradeRecorder.isHolding_recordBuy_of_ne hm _ _ _ _ _⟩
  | kept _ recorder _ hrecorder _ =>
    rcases hrecorder with rfl | ⟨price, rfl⟩
    · exact ⟨rfl, rfl, rfl⟩
    · exact same_noted b r m price _ b.trace
  | unsold price _ _ _ => exact same_noted b r m price _ _
  | notSold price _ _ _ _ _ _ => exact same_noted b r m price _ _
  | sold price _ _ _ _ _ _ _ _ _ =>
    refine ⟨Function.update_of_ne hm _ _, rfl, ?_⟩
    dsimp only
    rw [TradeRecorder.isHolding_recordSell_of_ne hm]
    exact (same_noted b r m price (.sell m) b.trace).active

end Cases

/-! ### The loop -/

/-- Where the loop is. -/
inductive Control where
  /-- About to ask for the mints. -/
  | top
  /-- Going through the mints, with these left. -/
  | visiting (mints : List String)
  /-- The process has ended. -/
  | ended
  deriving DecidableEq

/-- The loop. -/
structure Loop where
  bot : Bot
  control : Control

namespace Setting

variable (st : Setting)

/-- Where the loop goes after an operation: on, to its top, or nowhere. -/
def next (result : Except Halt Control) : Control :=
  match result with
  | .ok c => c
  | .error (.thrown _) => .top
  | .error .stopped => .ended

/-- One step of the loop. -/
def step (r : Replies) (s : Loop) : Loop :=
  match s.control with
  | .top => { s with control := next (((st.getActiveMints r.keys).map .visiting).mapError .thrown) }
  | .visiting [] => { s with control := .top }
  | .visiting (mint :: mints) =>
    let (result, bot) := (st.visit r mint).run s.bot
    { bot := bot, control := next (result.map fun _ => .visiting mints) }
  | .ended => s

/-- The loop of a process that is started on a directory, after what happened before. -/
def start (files : RecordFiles) (trace : List Trace) : Loop where
  bot := {
    trader := .fromConfig st.config
    positions := fun _ => none
    tradeInfoCache := fun _ => none
    tradeRecorder := .new files
    trace := trace
    checks := [] }
  control := .top

/-- Another process is started. -/
def restart (s : Loop) : Loop := st.start s.bot.tradeRecorder.files s.bot.trace

/-- The loop after a step for each of the replies. -/
def monitoringLoop (replies : List Replies) (s : Loop) : Loop := replies.foldl (fun s r => st.step r s) s

end Setting

end PumpSwapBot.Node
