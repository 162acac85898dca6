import PumpSwapBot.Node.Runs

/-!
# Iterations of the Node bot

One iteration of `monitoringLoop` in `strategy.ts`: the mints are read from the store, and then checked one after the
other, up to the first exception.

## The model

A check is recorded where `checkBuyCondition` or `checkSellCondition` begins (`Bot.checks`). Whether it returns is said of
the answers it asks for: those of the store, of the node and of the SDK, and what becomes of the files.

## What is proved

* `visit_returns_iff` — what the loop does for a mint returns exactly if the answers it asks for come, the order it gives
  is accepted, and the files can be written.
* `visit_checks` — it begins one check, of that mint.
* `iteration_checks_all_iff` — every mint of an iteration is checked, and once, exactly if that is so for every mint but
  the last.
-/

namespace PumpSwapBot.Node

open PumpSwapBot.Sdk PumpSwapBot.Library

/-! ### Answers that come -/

namespace Trader

/-- A buy is a success: without the funds, as it is skipped, and else if the SDK accepts the order. -/
def BuySucceeds (t : Trader) (a : Answers) (info : TradeInfo) (amount : ℤ) : Prop :=
  ∃ balance : ℕ, a.getBalance = .ok balance ∧ ((balance : ℤ) < amount + gasReserveLamports ∨
    ∃ hash, a.getLatestBlockhash = .ok hash ∧ accepted (a.buy (t.buyParams info amount hash)) = true)

/-- A sell is a success: there is something to sell, and the SDK accepts the order. -/
def SellSucceeds (t : Trader) (a : Answers) (info : TradeInfo) : Prop :=
  getTokenBalance a info.baseMint ≠ 0 ∧ ∃ hash, a.getLatestBlockhash = .ok hash ∧
    accepted (a.sell (t.sellParams info (getTokenBalance a info.baseMint) hash)) = true

variable {t : Trader} {a : Answers} {info : TradeInfo} {amount : ℤ}

theorem buySucceeds_iff (number : Rounding 53) : t.BuySucceeds a info amount ↔
    ∃ result, (t.buy number a info amount).1.outcome = .ok result ∧ result.success = true := by
  simp only [BuySucceeds, buy]
  rcases a.getBalance with e | balance
  · simp
  simp only [Except.ok.injEq, exists_eq_left']
  by_cases hfunds : (balance : ℤ) < amount + gasReserveLamports
  · simp [hfunds]
  rw [if_neg hfunds]
  rcases a.getLatestBlockhash with e | hash
  · simpa using hfunds
  · simp [orderResult_success, hfunds]

theorem sellSucceeds_iff (number : Rounding 53) : t.SellSucceeds a info ↔
    ∃ result, (t.sell number a info).outcome = .ok result ∧ result.success = true := by
  simp only [SellSucceeds, sell]
  by_cases hbalance : getTokenBalance a info.baseMint = 0
  · simp [hbalance]
  rw [if_neg hbalance]
  rcases a.getLatestBlockhash with e | hash
  · simp
  · simp [orderResult_success, hbalance]

theorem attemptFetch_ok_iff {attempt : ℕ} {mint : Pubkey} :
    (∃ info, attemptFetch a attempt mint = .ok info) ↔ ∃ address pool balances,
      a.findByMint attempt mint = .ok (some (address, pool)) ∧ a.getTokenBalances attempt pool = .ok balances := by
  rw [attemptFetch]
  rcases a.findByMint attempt mint with e | _ | ⟨address, pool⟩
  · simp [bind, Except.bind]
  · simp [bind, Except.bind, throw, throwThe, MonadExceptOf.throw]
  · rcases hbalances : a.getTokenBalances attempt pool with e | balances <;>
      simp [bind, Except.bind, pure, Except.pure, hbalances]

/-- The attempts succeed if one of them does. -/
theorem fetchFrom_ok_iff {mint : Pubkey} {remaining attempt : ℕ} {lastError : Option String} :
    (∃ info, t.fetchFrom a mint remaining attempt lastError = .ok info) ↔
      ∃ i < remaining, ∃ info, attemptFetch a (attempt + i) mint = .ok info := by
  induction remaining generalizing attempt lastError with
  | zero => simp [fetchFrom, throw, throwThe, MonadExceptOf.throw]
  | succ remaining ih =>
    rw [fetchFrom]
    rcases hfirst : attemptFetch a attempt mint with e | info
    · dsimp only
      rw [ih]
      constructor
      · rintro ⟨i, hi, info, hinfo⟩
        exact ⟨i + 1, by omega, info, by rw [← hinfo]; congr 1; omega⟩
      · rintro ⟨i, hi, info, hinfo⟩
        rcases i with _ | i
        · rw [Nat.add_zero, hfirst] at hinfo
          cases hinfo
        · exact ⟨i, by omega, info, by rw [← hinfo]; congr 1; omega⟩
    · exact iff_of_true ⟨info, rfl⟩ ⟨0, by omega, info, hfirst⟩

end Trader

namespace Setting

variable (st : Setting) (r : Replies) (mint : String) (b : Bot)

/-- The store answers with the latest texts of a mint, so many at most, if there is a store. -/
def Reads (reads : ReadReplies) (mint : String) (count : ℕ) : Prop :=
  st.redisAvailable = true → ∃ texts, reads.lrange (tradesKey mint) 0 ((count : ℤ) - 1) = .ok texts

/-- The trade data of a mint are known, or one of the attempts finds a pool and reads its balances. -/
def Fetches (a : Answers) (mint : String) (b : Bot) : Prop :=
  b.tradeInfoCache mint ≠ none ∨ ∃ key, st.publicKey mint = .ok key ∧ ∃ attempt < b.trader.maxRetries,
    ∃ address pool balances, a.findByMint attempt key = .ok (some (address, pool)) ∧
      a.getTokenBalances attempt pool = .ok balances

/-- The answers with which the check of a mint that is not held returns. -/
structure BuyReturns : Prop where
  price : st.Reads r.price mint 1
  change : ∀ price, st.getLatestTradePrice r.price mint = .ok (some price) →
    st.Reads r.change mint st.config.buyRecordCount
  fetch : st.BuySignal r mint → st.Fetches r.answers mint b
  buy : ∀ info, st.Buys r mint b info →
    b.trader.BuySucceeds r.answers info st.config.buyAmountLamports ∧ r.recording.active = .done

/-- The answers with which the check of a mint that is held returns. -/
structure SellReturns : Prop where
  price : st.Reads r.price mint 1
  note : ∀ price, st.getLatestTradePrice r.price mint = .ok (some price) → b.tradeRecorder.isHolding mint = true →
    r.noting.active = .done
  sell : ∀ info, st.SellSignal r mint b → b.sellInfo mint = some info →
    b.trader.SellSucceeds r.answers info ∧ (b.tradeRecorder.isHolding mint = true →
      r.recording.active = .done ∧ r.recording.closed = .done ∧ r.recording.daily = .done)

/-- The answers with which the check of a mint returns. -/
structure Returns : Prop where
  held : b.holds mint = true → st.SellReturns r mint b
  free : b.holds mint = false → st.BuyReturns r mint b

/-- So they are for every mint of a list but the last, each checked in the state that those before it leave. -/
def AnswersReturn : List Replies → List String → Bot → Prop
  | r :: replies, mint :: next :: mints, b =>
    st.Returns r mint b ∧ AnswersReturn replies (next :: mints) ((st.visit r mint).run b).2
  | _, _, _ => True

end Setting

/-! ### Checks that return -/

section Returns

variable {st : Setting} {r : Replies} {mint : String} {b : Bot}

theorem returns_throwing_iff {α : Type} {result : Except String α} : (throwing result).Returns b ↔ ∃ a, result = .ok a := by
  rcases result with e | a
  · simp [throwing, Except.mapError]
  · simp [throwing, Except.mapError]

theorem returns_throwing_bind_iff {α β : Type} {result : Except String α} {f : α → Proc Bot Halt β} :
    (throwing result >>= f).Returns b ↔ ∃ a, result = .ok a ∧ (f a).Returns b := by
  rw [throwing, Proc.returns_ofExcept_bind_iff]
  rcases result with e | a
  · simp [Except.mapError]
  · simp [Except.mapError]

theorem getRecentTrades_ok_iff (parse : String → Option TokenTradeRecord) {reads : ReadReplies} {limit : ℕ} :
    (∃ trades, getRecentTrades parse reads mint limit = .ok trades) ↔
      ∃ texts, reads.lrange (tradesKey mint) 0 ((limit : ℤ) - 1) = .ok texts := by
  rw [getRecentTrades]
  rcases reads.lrange (tradesKey mint) 0 ((limit : ℤ) - 1) with e | texts
  · simp [bind, Except.bind]
  · simp [bind, Except.bind, pure, Except.pure]

theorem getLatestTradePrice_ok_iff {reads : ReadReplies} :
    (∃ price, st.getLatestTradePrice reads mint = .ok price) ↔ st.Reads reads mint 1 := by
  rw [Setting.getLatestTradePrice, Setting.Reads]
  split_ifs with havailable
  · rw [← getRecentTrades_ok_iff st.parse, getLatestPriceFromTrades]
    rcases getRecentTrades st.parse reads mint 1 with e | trades
    · simp [havailable, bind, Except.bind]
    · simp [bind, Except.bind, pure, Except.pure]
  · simp [havailable]

theorem checkPriceIncrease_ok_iff {reads : ReadReplies} :
    (∃ rises, st.checkPriceIncrease reads mint = .ok rises) ↔ st.Reads reads mint st.config.buyRecordCount := by
  rw [Setting.checkPriceIncrease, Setting.Reads]
  split_ifs with havailable
  · rw [← getRecentTrades_ok_iff st.parse, calculatePriceChangeFromRecords]
    rcases getRecentTrades st.parse reads mint st.config.buyRecordCount with e | trades
    · simp [havailable, bind, Except.bind, Except.map]
    · refine iff_of_true ?_ fun _ => ⟨trades, rfl⟩
      simp only [bind, Except.bind, pure, Except.pure]
      split_ifs
      · exact ⟨_, rfl⟩
      · split
        · split_ifs <;> exact ⟨_, rfl⟩
        · exact ⟨_, rfl⟩
  · simp [havailable]

theorem getOrFetchTradeInfo_returns_iff {a : Answers} :
    (st.getOrFetchTradeInfo a mint).Returns b ↔ st.Fetches a mint b := by
  rw [Setting.getOrFetchTradeInfo, Proc.returns_get_bind_iff, Setting.Fetches]
  rcases b.tradeInfoCache mint with _ | info
  · dsimp only
    rw [returns_throwing_bind_iff]
    simp only [Proc.returns_modify_bind_iff, Proc.returns_pure, and_true, ne_eq, not_true_eq_false, false_or]
    rw [Setting.fetchTradeInfo]
    rcases st.publicKey mint with e | key
    · simp [bind, Except.bind]
    · simp only [bind, Except.bind, Except.ok.injEq, exists_eq_left', Trader.fetchTradeInfoWithRetry]
      rw [Trader.fetchFrom_ok_iff]
      simp only [Nat.zero_add, Trader.attemptFetch_ok_iff]
  · simp

/-- What follows the trade data returns if the buy is a success and can be recorded. -/
theorem executeBuy_returns_iff (hfree : b.holds mint = false) (hsignal : st.BuySignal r mint) :
    (st.executeBuy r mint).Returns (b.begun (.buy mint)) ↔ st.Fetches r.answers mint b ∧
      ∀ info, st.Buys r mint b info →
        b.trader.BuySucceeds r.answers info st.config.buyAmountLamports ∧ r.recording.active = .done := by
  rw [← getOrFetchTradeInfo_returns_iff, Setting.executeBuy, Proc.returns_get_bind_iff, b.begun_holds, hfree,
    if_neg Bool.false_ne_true, Proc.returns_bind_iff, getOrFetchTradeInfo_begun]
  rcases getOrFetchTradeInfo_run st r.answers mint b with ⟨e, he⟩ | ⟨info, hinfo⟩
  · simp [Proc.Returns, he]
  have hbuys : ∀ info', st.Buys r mint b info' ↔ info' = info := by
    intro info'
    constructor
    · intro h
      have hinfo' := h.info
      rw [hinfo] at hinfo'
      exact (Except.ok.inj hinfo').symm
    · rintro rfl
      exact ⟨hfree, hsignal, by rw [hinfo]⟩
  have hfetches : (st.getOrFetchTradeInfo r.answers mint).Returns b := ⟨info, by rw [hinfo]⟩
  simp only [hinfo, hbuys, hfetches, true_and, forall_eq, Except.ok.injEq, exists_eq_left']
  rw [Trader.buySucceeds_iff st.number, Proc.returns_bind_iff, traderBuy_run]
  show (∃ result, Except.mapError Halt.thrown (b.buyReport st r info).outcome = .ok result ∧ _) ↔
    (∃ result, (b.buyReport st r info).outcome = .ok result ∧ _) ∧ _
  rcases (b.buyReport st r info).outcome with e | result
  · simp [Except.mapError]
  simp only [Except.mapError, Except.ok.injEq, exists_eq_left']
  by_cases hsuccess : result.success = true
  · rw [if_pos hsuccess, Proc.returns_modify_bind_iff, recorder, Proc.returns_zoom_iff,
      TradeRecorder.recordBuy_returns_iff]
    simp [hsuccess]
  · rw [if_neg hsuccess, returns_throwing_iff]
    simp [hsuccess]

theorem checkBuyCondition_returns_iff (hfree : b.holds mint = false) :
    (st.checkBuyCondition r mint).Returns b ↔ st.BuyReturns r mint b := by
  rw [Setting.checkBuyCondition, Proc.returns_modify_bind_iff, Proc.returns_get_bind_iff, b.begun_holds, hfree,
    if_neg Bool.false_ne_true, returns_throwing_bind_iff]
  have hno : ¬ st.BuySignal r mint → ∀ info, ¬ st.Buys r mint b info := fun h info hbuys => h hbuys.signal
  rcases hprice : st.getLatestTradePrice r.price mint with e | _ | price
  · refine iff_of_false (by simp) fun h => ?_
    obtain ⟨price, hok⟩ := getLatestTradePrice_ok_iff.mpr h.price
    rw [hprice] at hok
    cases hok
  · have hnone : ¬ st.BuySignal r mint := by simp [Setting.BuySignal, hprice]
    refine iff_of_true ⟨none, rfl, Proc.returns_pure _ _⟩ ⟨getLatestTradePrice_ok_iff.mp ⟨_, hprice⟩, ?_, ?_, ?_⟩
    · simp [hprice]
    · exact fun h => absurd h hnone
    · exact fun info h => absurd h (hno hnone info)
  have hreads : st.Reads r.price mint 1 := getLatestTradePrice_ok_iff.mp ⟨_, hprice⟩
  simp only [Except.ok.injEq, exists_eq_left']
  rw [returns_throwing_bind_iff]
  rcases hchange : st.checkPriceIncrease r.change mint with e | _ | _
  · refine iff_of_false (by simp) fun h => ?_
    obtain ⟨rises, hok⟩ := checkPriceIncrease_ok_iff.mpr (h.change price hprice)
    rw [hchange] at hok
    cases hok
  · have hnone : ¬ st.BuySignal r mint := by simp [Setting.BuySignal, hchange]
    refine iff_of_true ⟨false, rfl, Proc.returns_pure _ _⟩ ⟨hreads, fun _ _ => ?_, ?_, ?_⟩
    · exact checkPriceIncrease_ok_iff.mp ⟨_, hchange⟩
    · exact fun h => absurd h hnone
    · exact fun info h => absurd h (hno hnone info)
  · have hsignal : st.BuySignal r mint := ⟨⟨price, hprice⟩, hchange⟩
    simp only [Except.ok.injEq, exists_eq_left', if_true]
    rw [executeBuy_returns_iff hfree hsignal]
    constructor
    · rintro ⟨hfetch, hbuy⟩
      exact ⟨hreads, fun _ _ => checkPriceIncrease_ok_iff.mp ⟨_, hchange⟩, fun _ => hfetch, hbuy⟩
    · exact fun h => ⟨h.fetch hsignal, h.buy⟩

/-- A sell returns if it is a success and can be recorded. -/
theorem executeSell_returns_iff {info : TradeInfo} :
    (st.executeSell r mint info).Returns b ↔ b.trader.SellSucceeds r.answers info ∧
      (b.tradeRecorder.isHolding mint = true →
        r.recording.active = .done ∧ r.recording.closed = .done ∧ r.recording.daily = .done) := by
  rw [Setting.executeSell, Proc.returns_modify_bind_iff, Proc.returns_bind_iff, traderSell_run,
    Trader.sellSucceeds_iff st.number]
  dsimp only
  rcases (b.trader.sell st.number r.answers info).outcome with e | result
  · simp [Except.mapError]
  simp only [Except.mapError, Except.ok.injEq, exists_eq_left']
  by_cases hsuccess : result.success = true
  · rw [if_pos hsuccess, Proc.returns_modify_bind_iff, Proc.returns_get_bind_iff, Proc.returns_bind_iff]
    simp only [Proc.returns_pure, and_true, hsuccess, true_and]
    exact TradeRecorder.recordSell_returns_iff _ _ _
  · rw [if_neg hsuccess, returns_throwing_iff]
    simp [hsuccess]

theorem sellAt_returns_iff {price : ℚ} (recorder : TradeRecorder)
    (hprice : st.getLatestTradePrice r.price mint = .ok (some price))
    (hholds : recorder.isHolding mint = b.tradeRecorder.isHolding mint) :
    (st.sellAt r mint (b.begun (.sell mint)) price).Returns { b.begun (.sell mint) with tradeRecorder := recorder } ↔
      ∀ info, st.SellSignal r mint b → b.sellInfo mint = some info →
        b.trader.SellSucceeds r.answers info ∧ (b.tradeRecorder.isHolding mint = true →
          r.recording.active = .done ∧ r.recording.closed = .done ∧ r.recording.daily = .done) := by
  rw [Setting.sellAt, b.begun_buyPrice]
  by_cases hsell : shouldSell st.config (profitPct st.number (b.buyPrice mint) price) = true
  swap
  · rw [if_neg hsell]
    simp [Setting.SellSignal, hprice, hsell]
  have hsignal : st.SellSignal r mint b := ⟨price, hprice, hsell⟩
  have hinfo : (((b.begun (.sell mint)).positions mint).map TokenPosition.tradeInfo <|>
      (b.begun (.sell mint)).tradeInfoCache mint) = b.sellInfo mint := rfl
  rw [if_pos hsell, Proc.returns_modify_bind_iff, hinfo]
  rcases b.sellInfo mint with _ | info
  · simp
  · dsimp only
    rw [executeSell_returns_iff, hholds]
    simp [hsignal]

theorem checkSellCondition_returns_iff (hheld : b.holds mint = true) :
    (st.checkSellCondition r mint).Returns b ↔ st.SellReturns r mint b := by
  have hsome : ¬ ((b.positions mint).isNone = true ∧ (b.tradeRecorder.getActivePosition mint).isNone = true) := by
    intro hnone
    rw [holds_eq_false_iff.mpr (by simpa using hnone)] at hheld
    cases hheld
  rw [Setting.checkSellCondition, Proc.returns_modify_bind_iff, Proc.returns_get_bind_iff, b.begun_positions,
    b.begun_tradeRecorder, if_neg hsome, returns_throwing_bind_iff]
  rcases hprice : st.getLatestTradePrice r.price mint with e | _ | price
  · refine iff_of_false (by simp) fun h => ?_
    obtain ⟨price, hok⟩ := getLatestTradePrice_ok_iff.mpr h.price
    rw [hprice] at hok
    cases hok
  · refine iff_of_true ⟨none, rfl, Proc.returns_pure _ _⟩ ⟨getLatestTradePrice_ok_iff.mp ⟨_, hprice⟩, ?_, ?_⟩
    · simp [hprice]
    · rintro info ⟨price, hok, -⟩
      rw [hprice] at hok
      cases hok
  simp only [Except.ok.injEq, exists_eq_left']
  have hnote := notePrice_run r mint price (b.begun (.sell mint))
  rw [b.begun_tradeRecorder] at hnote
  have hupdate : (TradeRecorder.updatePrice r.noting mint price).Returns b.tradeRecorder ↔
      (b.tradeRecorder.isHolding mint = true → r.noting.active = .done) := TradeRecorder.updatePrice_returns_iff price
  have hsell := sellAt_returns_iff (b.noted r mint price) hprice (TradeRecorder.isHolding_updatePrice _ _ _ _ _)
  rw [Proc.returns_bind_iff, hnote]
  simp only [exists_and_right]
  rw [← Proc.Returns, hupdate]
  constructor
  · rintro ⟨hnoting, hsold⟩
    exact ⟨getLatestTradePrice_ok_iff.mp ⟨_, hprice⟩, fun _ _ => hnoting, hsell.mp hsold⟩
  · exact fun h => ⟨h.note price hprice, hsell.mpr h.sell⟩

/-- **What the loop does for a mint returns if the answers come**, and only then. -/
theorem visit_returns_iff : ((st.visit r mint).run b).1 = .ok () ↔ st.Returns r mint b := by
  have hunit : ((st.visit r mint).run b).1 = .ok () ↔ (st.visit r mint).Returns b :=
    ⟨fun h => ⟨(), h⟩, fun ⟨_, h⟩ => h⟩
  rw [hunit, Setting.visit, Proc.returns_get_bind_iff]
  by_cases hheld : b.holds mint = true
  · rw [if_pos hheld, checkSellCondition_returns_iff hheld]
    exact ⟨fun h => ⟨fun _ => h, fun hfree => absurd hheld (ne_true_of_eq_false hfree)⟩, fun h => h.held hheld⟩
  · have hfree := Bool.eq_false_of_not_eq_true hheld
    rw [if_neg hheld, checkBuyCondition_returns_iff hfree]
    exact ⟨fun h => ⟨fun hyes => absurd hyes hheld, fun _ => h⟩, fun h => h.free hfree⟩

end Returns

/-! ### Checks that are made -/

section Iterations

variable {st : Setting} {r : Replies} {mint : String} {b : Bot} {s : Loop} {mints : List String} {replies : List Replies}

/-- What the loop does for a mint begins one check, of that mint. -/
theorem visit_checks (st : Setting) (r : Replies) (mint : String) (b : Bot) :
    ∃ c : Check, c.mint = mint ∧ ((st.visit r mint).run b).2.checks = c :: b.checks := by
  have hvisit := visit_cases st r mint b
  generalize ((st.visit r mint).run b).1 = result at hvisit
  generalize ((st.visit r mint).run b).2 = b' at hvisit ⊢
  cases hvisit with
  | passed _ _ _ => exact ⟨.buy mint, rfl, rfl⟩
  | notBought _ _ _ _ => exact ⟨.buy mint, rfl, rfl⟩
  | bought _ _ _ _ _ => exact ⟨.buy mint, rfl, rfl⟩
  | kept _ _ _ _ _ => exact ⟨.sell mint, rfl, rfl⟩
  | unsold _ _ _ _ => exact ⟨.sell mint, rfl, rfl⟩
  | notSold _ _ _ _ _ _ _ => exact ⟨.sell mint, rfl, rfl⟩
  | sold _ _ _ _ _ _ _ _ _ _ => exact ⟨.sell mint, rfl, rfl⟩

/-- A step at a mint does that, and goes on in the list if it returns; else it leaves the list. -/
theorem step_visiting (st : Setting) (hs : s.control = .visiting (mint :: mints)) (r : Replies) :
    (st.step r s).bot = ((st.visit r mint).run s.bot).2 ∧
      ((st.step r s).control = .visiting mints ∧ st.Returns r mint s.bot ∨
        (∀ mints', (st.step r s).control ≠ .visiting mints') ∧ ¬ st.Returns r mint s.bot) := by
  rw [← visit_returns_iff]
  unfold Setting.step
  rw [hs]
  refine ⟨rfl, ?_⟩
  dsimp only
  rcases ((st.visit r mint).run s.bot).1 with (msg | _) | _
  · exact Or.inr ⟨by simp [Setting.next, Except.map], by simp⟩
  · exact Or.inr ⟨by simp [Setting.next, Except.map], by simp⟩
  · exact Or.inl ⟨rfl, rfl⟩

/-- Elsewhere a step makes no check. -/
theorem step_elsewhere (st : Setting) (hs : ∀ mint, ¬ s.At mint) (r : Replies) : (st.step r s).bot = s.bot := by
  obtain ⟨heq, -⟩ | ⟨mint, result, hat, -⟩ := step_cases st r s
  · exact heq
  · exact absurd hat (hs mint)

/-- So many steps make so many checks at most. -/
theorem monitoringLoop_checks (st : Setting) (replies : List Replies) (s : Loop) :
    ∃ new, (st.monitoringLoop replies s).bot.checks = new ++ s.bot.checks ∧ new.length ≤ replies.length := by
  induction replies generalizing s with
  | nil => exact ⟨[], rfl, le_rfl⟩
  | cons r replies ih =>
    obtain ⟨new, hnew, hlength⟩ := ih (st.step r s)
    have hstep : ∃ first, (st.step r s).bot.checks = first ++ s.bot.checks ∧ first.length ≤ 1 := by
      obtain ⟨heq, -⟩ | ⟨mint, result, ⟨mints, hat⟩, -⟩ := step_cases st r s
      · exact ⟨[], by rw [heq, List.nil_append], by simp⟩
      · obtain ⟨c, -, hc⟩ := visit_checks st r mint s.bot
        exact ⟨[c], by rw [(step_visiting st hat r).1, hc, List.singleton_append], le_rfl⟩
    obtain ⟨first, hfirst, hone⟩ := hstep
    refine ⟨new ++ first, ?_, ?_⟩
    · show (st.monitoringLoop replies (st.step r s)).bot.checks = _
      rw [hnew, hfirst, List.append_assoc]
    · rw [List.length_append, List.length_cons]
      omega

/-- The steps for a list of mints check all of them, once and in order, if all but the last return, and only then. -/
theorem checks_visiting_iff (hs : s.control = .visiting mints) (hlength : replies.length = mints.length) :
    (∃ new, (st.monitoringLoop replies s).bot.checks = new ++ s.bot.checks ∧ new.reverse.map Check.mint = mints) ↔
      st.AnswersReturn replies mints s.bot := by
  induction mints generalizing s replies with
  | nil =>
    rw [List.length_nil, List.length_eq_zero_iff] at hlength
    subst hlength
    exact iff_of_true ⟨[], rfl, rfl⟩ trivial
  | cons mint mints ih =>
    obtain ⟨r, replies, rfl⟩ := List.exists_cons_of_length_eq_add_one hlength
    have hlength' : replies.length = mints.length := by simpa using hlength
    obtain ⟨hbot, hnext⟩ := step_visiting st hs r
    obtain ⟨c, rfl, hc⟩ := visit_checks st r mint s.bot
    rw [← hbot] at hc
    -- the check of the first mint is the oldest of the new ones
    have hsplit : (∃ new, (st.monitoringLoop (r :: replies) s).bot.checks = new ++ s.bot.checks ∧
          new.reverse.map Check.mint = c.mint :: mints) ↔
        ∃ new, (st.monitoringLoop replies (st.step r s)).bot.checks = new ++ (st.step r s).bot.checks ∧
          new.reverse.map Check.mint = mints := by
      obtain ⟨later, hlater, -⟩ := monitoringLoop_checks st replies (st.step r s)
      have hsame : (st.monitoringLoop (r :: replies) s).bot.checks =
          (st.monitoringLoop replies (st.step r s)).bot.checks := rfl
      rw [hsame, hlater, hc]
      constructor
      · rintro ⟨new, hnew, hmints⟩
        rw [List.append_cons] at hnew
        obtain rfl := List.append_cancel_right hnew
        refine ⟨later, rfl, ?_⟩
        simpa using hmints
      · rintro ⟨new, hnew, hmints⟩
        obtain rfl := List.append_cancel_right hnew
        exact ⟨later ++ [c], by simp, by simp [hmints]⟩
    rw [hsplit]
    obtain ⟨hgoes, hok⟩ | ⟨hout, hno⟩ := hnext
    · rw [ih hgoes hlength', hbot]
      cases mints with
      | nil => simp [Setting.AnswersReturn]
      | cons next mints => simp [Setting.AnswersReturn, hok]
    · cases mints with
      | nil =>
        rw [List.length_nil, List.length_eq_zero_iff] at hlength'
        subst hlength'
        exact iff_of_true ⟨[], rfl, rfl⟩ trivial
      | cons next mints =>
        -- the next step asks for mints, so too few are left for the others
        obtain ⟨r', replies, rfl⟩ := List.exists_cons_of_length_eq_add_one hlength'
        have helsewhere : ∀ mint, ¬ (st.step r s).At mint := fun mint ⟨mints', hat⟩ => hout _ hat
        have hquiet := step_elsewhere st helsewhere r'
        obtain ⟨later, hlater, hfew⟩ := monitoringLoop_checks st replies (st.step r' (st.step r s))
        refine iff_of_false ?_ (by simp [Setting.AnswersReturn, hno])
        rintro ⟨new, hnew, hmints⟩
        have hrest : (st.monitoringLoop (r' :: replies) (st.step r s)).bot.checks =
            later ++ (st.step r s).bot.checks := by
          rw [← hquiet]
          exact hlater
        rw [hrest] at hnew
        obtain rfl := List.append_cancel_right hnew
        have hcount := congrArg List.length hmints
        simp only [List.length_map, List.length_reverse, List.length_cons] at hcount hlength'
        omega

/-- **An iteration checks every mint exactly if all but the last return.** From any state at the top of the loop, over the
steps that an iteration has: the checks that are begun are those of the mints that were read from the store, each once and
in order, exactly if the answers with which a check returns come for every mint but the last. -/
theorem iteration_checks_all_iff (htop : s.control = .top) (hmints : st.getActiveMints r.keys = .ok mints)
    (hlength : replies.length = mints.length) :
    (∃ new, (st.monitoringLoop (r :: replies) s).bot.checks = new ++ s.bot.checks ∧
      new.reverse.map Check.mint = mints) ↔ st.AnswersReturn replies mints s.bot := by
  have hstep : st.step r s = { s with control := .visiting mints } := by
    unfold Setting.step
    rw [htop, hmints]
    rfl
  have hloop : st.monitoringLoop (r :: replies) s = st.monitoringLoop replies { s with control := .visiting mints } :=
    congrArg (st.monitoringLoop replies) hstep
  rw [hloop]
  exact checks_visiting_iff rfl hlength

end Iterations

/-- A server that lists another mint before the one of the sample. -/
def sampleTwoKeys : ReadReplies := { sampleReads with keys := fun _ => .ok [tradesKey "other", tradesKey sampleText] }

/-- The replies with that server, which has no records of the other mint, or fails to read them. -/
def sampleTwoReplies (fails : Bool) : Replies :=
  { sampleReplies with
    keys := sampleTwoKeys
    price := { sampleTwoKeys with
      lrange := fun key start stop =>
        if fails ∧ key ≠ tradesKey sampleText then .error "Connection is closed."
        else sampleReads.lrange key start stop } }

/-- The loop with the mint of the sample held, at its top. -/
def sampleHeld : Loop := ⟨sampleBought.bot, .top⟩

theorem sampleTwoReplies_mints (fails : Bool) :
    sampleSetting.getActiveMints (sampleTwoReplies fails).keys = .ok ["other", sampleText] := by
  cases fails <;> decide +kernel

/-- The check of the other mint, of which there are no records. -/
theorem sampleTwoReplies_returns : sampleSetting.Returns (sampleTwoReplies false) "other" sampleHeld.bot := by
  have hfree : sampleHeld.bot.holds "other" = false := by decide +kernel
  have hprice : sampleSetting.getLatestTradePrice (sampleTwoReplies false).price "other" = .ok none := by decide +kernel
  have hnone : ¬ sampleSetting.BuySignal (sampleTwoReplies false) "other" := by simp [Setting.BuySignal, hprice]
  refine ⟨fun hheld => absurd hheld (ne_true_of_eq_false hfree), fun _ => ?_⟩
  refine ⟨getLatestTradePrice_ok_iff.mp ⟨_, hprice⟩, ?_, ?_, ?_⟩
  · simp [hprice]
  · exact fun h => absurd h hnone
  · exact fun info h => absurd h.signal hnone

/-- Without records of the other mint both are checked. -/
theorem iteration_checks_all_sample :
    ∃ new, (sampleSetting.monitoringLoop [sampleTwoReplies false, sampleTwoReplies false, sampleTwoReplies false]
        sampleHeld).bot.checks = new ++ sampleHeld.bot.checks ∧
      new.reverse.map Check.mint = ["other", sampleText] :=
  (iteration_checks_all_iff rfl (sampleTwoReplies_mints false) rfl).mpr ⟨sampleTwoReplies_returns, trivial⟩

/-- With an exception for the other mint the iteration ends, and the mint that is held is not checked. -/
theorem iteration_skips_held :
    sampleHeld.bot.holds sampleText = true ∧
      sampleSetting.getActiveMints (sampleTwoReplies true).keys = .ok ["other", sampleText] ∧
      (sampleSetting.monitoringLoop [sampleTwoReplies true, sampleTwoReplies true] sampleHeld).control = .top ∧
      (sampleSetting.monitoringLoop [sampleTwoReplies true, sampleTwoReplies true] sampleHeld).bot.checks =
        .buy "other" :: sampleHeld.bot.checks := by
  have hmints := sampleTwoReplies_mints true
  obtain ⟨-, -, -, hheld⟩ := sampleBought_signal
  have hbot : sampleHeld.bot = sampleBought.bot := by rw [sampleHeld]
  have hiteration :
      (sampleSetting.monitoringLoop [sampleTwoReplies true, sampleTwoReplies true] sampleHeld).control = .top ∧
        (sampleSetting.monitoringLoop [sampleTwoReplies true, sampleTwoReplies true] sampleHeld).bot.checks =
          .buy "other" :: sampleHeld.bot.checks := by
    decide +kernel
  refine ⟨?_, hmints, hiteration⟩
  rw [hbot]
  exact hheld

end PumpSwapBot.Node
