import PumpSwapBot.Library.KeyValue
import PumpSwapBot.Library.Prefixes
import PumpSwapBot.Node.Records
import PumpSwapBot.Node.Strategy
import Mathlib.Tactic.FieldSimp
import Mathlib.Tactic.Linarith

/-!
# Runs of the Node bot

What holds of the Node bot along every run of its loop, for any answers in any order, and with the process ended
and started again at any point.

## What is proved

* `restored_never_sold` — a position that a process found in the file is never sold by it.
* `run_armed_iff` — every open position has a buy price, and with it a stop loss, exactly as long as no buy is
  skipped for want of funds, and none is made on a pool without reserves or at a price whose stop rounding moves away
  from the loss that is sold at (`StopKept`, `stopKept_iff`).
* `monitoringLoop_single` — a mint is not bought again while a buy of it that landed is open, as long as the buys
  that land are reported successes and the sells that are reported successes land.
-/

namespace PumpSwapBot.Node

open PumpSwapBot.Sdk PumpSwapBot.Library

/-- What happens to the bot: the loop makes a step, or another process is started. -/
inductive Turn where
  | step (r : Replies)
  | restart

namespace Setting

variable (st : Setting)

/-- The loop after a turn. -/
def turn (s : Loop) : Turn → Loop
  | .step r => st.step r s
  | .restart => st.restart s

/-- The loop after some turns, begun on an empty directory. -/
def run (turns : List Turn) : Loop := turns.foldl st.turn (st.start .empty [])

end Setting

section Turns

variable {st : Setting} {r : Replies} {s : Loop}

theorem run_snoc (st : Setting) (turns : List Turn) (t : Turn) : st.run (turns ++ [t]) = st.turn (st.run turns) t := by
  simp [Setting.run]

/-- The loop is about to visit a mint. -/
def Loop.At (s : Loop) (mint : String) : Prop := ∃ mints, s.control = .visiting (mint :: mints)

/-- A step leaves the bot as it is, or visits a mint. -/
theorem step_cases (st : Setting) (r : Replies) (s : Loop) :
    (st.step r s).bot = s.bot ∧ (∀ mint, ¬ s.At mint) ∨
      ∃ mint result, s.At mint ∧ Visit st r mint s.bot result (st.step r s).bot := by
  unfold Setting.step Loop.At
  rcases s.control with _ | (_ | ⟨mint, mints⟩) | _
  · exact Or.inl ⟨rfl, by simp⟩
  · exact Or.inl ⟨rfl, by simp⟩
  · exact Or.inr ⟨mint, _, ⟨mints, rfl⟩, visit_cases st r mint s.bot⟩
  · exact Or.inl ⟨rfl, by simp⟩

end Turns

/-! ### Positions that were restored -/

/-- The mint is held by the recorder alone, and its trade data are not known. -/
structure Stuck (mint : String) (b : Bot) : Prop where
  active : b.tradeRecorder.isHolding mint = true
  position : b.positions mint = none
  cache : b.tradeInfoCache mint = none

section Stuck

variable {st : Setting} {r : Replies} {mint m : String} {b b' : Bot} {result : Except Halt Unit}

theorem Stuck.holds (h : Stuck mint b) : b.holds mint = true := by
  rw [Bot.holds, h.active, Bool.or_true]

theorem Stuck.sellInfo (h : Stuck mint b) : b.sellInfo mint = none := by
  rw [Bot.sellInfo, h.position, h.cache]
  rfl

theorem Stuck.ne_of_free (h : Stuck mint b) (hfree : b.holds m = false) : mint ≠ m := by
  rintro rfl
  rw [h.holds] at hfree
  cases hfree

theorem Stuck.ne_of_sellInfo {info : TradeInfo} (h : Stuck mint b) (hinfo : b.sellInfo m = some info) : mint ≠ m := by
  rintro rfl
  rw [h.sellInfo] at hinfo
  cases hinfo

theorem Stuck.of_same (h : Stuck mint b) (hsame : Same mint b b') : Stuck mint b' :=
  ⟨hsame.active.trans h.active, hsame.position.trans h.position, hsame.cache.trans h.cache⟩

/-- No visit changes that: a mint that is held is not bought, and without trade data it is not sold. -/
theorem Visit.stuck (h : Visit st r m b result b') (hb : Stuck mint b) : Stuck mint b' := by
  by_cases hm : mint = m
  swap
  · exact hb.of_same (h.same hm)
  subst hm
  cases h with
  | passed _ hfree _ => exact absurd rfl (hb.ne_of_free hfree)
  | notBought _ _ hbuys _ => exact absurd hb.holds hbuys.not_held
  | bought _ _ hbuys _ _ => exact absurd hb.holds hbuys.not_held
  | kept _ recorder _ hrecorder _ =>
    rcases hrecorder with rfl | ⟨price, rfl⟩
    · exact ⟨hb.active, hb.position, hb.cache⟩
    · exact hb.of_same (same_noted b r mint price _ b.trace)
  | unsold price _ _ _ => exact hb.of_same (same_noted b r mint price _ _)
  | notSold _ _ _ _ _ hinfo _ => exact absurd rfl (hb.ne_of_sellInfo hinfo)
  | sold _ _ _ _ _ _ _ hinfo _ _ => exact absurd rfl (hb.ne_of_sellInfo hinfo)

theorem step_stuck {s : Loop} (h : Stuck mint s.bot) : Stuck mint (st.step r s).bot := by
  rcases step_cases st r s with ⟨heq, -⟩ | ⟨m, result, -, hvisit⟩
  · rw [heq]
    exact h
  · exact hvisit.stuck h

/-- From a restart on, a position that was restored stays as it is. -/
theorem monitoringLoop_stuck (replies : List Replies) {s : Loop} (h : Stuck mint s.bot) :
    Stuck mint (st.monitoringLoop replies s).bot := by
  induction replies generalizing s with
  | nil => exact h
  | cons r replies ih => exact ih (step_stuck h)

theorem restart_stuck {s : Loop} (h : (st.restart s).bot.tradeRecorder.isHolding mint = true) :
    Stuck mint (st.restart s).bot := ⟨h, rfl, rfl⟩

/-- The check of a mint that is stuck ends without `executeSell`, also when the price calls for a sell. -/
theorem Stuck.checkSellCondition (h : Stuck mint b) (st : Setting) (r : Replies) :
    ((st.checkSellCondition r mint).run b).2.trace = b.trace ∨
      ((st.checkSellCondition r mint).run b).2.trace = .sellSignal mint :: b.trace := by
  have hvisit : Visit st r mint b ((st.checkSellCondition r mint).run b).1 ((st.checkSellCondition r mint).run b).2 :=
    checkSellCondition_cases h.holds
  generalize ((st.checkSellCondition r mint).run b).1 = result at hvisit
  generalize ((st.checkSellCondition r mint).run b).2 = b' at hvisit ⊢
  cases hvisit with
  | passed _ hfree _ => exact absurd rfl (h.ne_of_free hfree)
  | notBought _ _ hbuys _ => exact absurd h.holds hbuys.not_held
  | bought _ _ hbuys _ _ => exact absurd h.holds hbuys.not_held
  | kept _ _ _ _ _ => exact Or.inl rfl
  | unsold _ _ _ _ => exact Or.inr rfl
  | notSold _ _ _ _ _ hinfo _ => exact absurd rfl (h.ne_of_sellInfo hinfo)
  | sold _ _ _ _ _ _ _ hinfo _ _ => exact absurd rfl (h.ne_of_sellInfo hinfo)

end Stuck

/-- A call of `checkSellCondition` calls `executeSell` for the mint. -/
def Setting.CallsExecuteSell (st : Setting) (r : Replies) (mint : String) (b : Bot) : Prop :=
  ∃ events info, ((st.checkSellCondition r mint).run b).2.trace = events ++ b.trace ∧
    Trace.executeSell mint info ∈ events

theorem Stuck.not_callsExecuteSell {mint : String} {b : Bot} (h : Stuck mint b) (st : Setting) (r : Replies) :
    ¬ st.CallsExecuteSell r mint b := by
  rintro ⟨events, info, htrace, hmem⟩
  rcases h.checkSellCondition st r with hsame | hsaid
  · have hevents : events = [] := List.append_cancel_right (htrace.symm.trans hsame)
    rw [hevents] at hmem
    cases hmem
  · have hevents : events = [.sellSignal mint] := List.append_cancel_right (htrace.symm.trans hsaid)
    simp [hevents] at hmem

/-- Where the trade data are known, a check at a price that calls for a sell calls `executeSell`. -/
theorem callsExecuteSell_of_sellInfo {st : Setting} {r : Replies} {mint : String} {b : Bot} {info : TradeInfo}
    (hheld : b.holds mint = true) (hinfo : b.sellInfo mint = some info) (hsignal : st.SellSignal r mint b)
    (hnoting : r.noting.active = .done) : st.CallsExecuteSell r mint b := by
  obtain ⟨events, htrace⟩ := (checkSellCondition_signals_iff hheld hnoting).mpr hsignal
  have hvisit : Visit st r mint b ((st.checkSellCondition r mint).run b).1 ((st.checkSellCondition r mint).run b).2 :=
    checkSellCondition_cases hheld
  unfold Setting.CallsExecuteSell
  generalize ((st.checkSellCondition r mint).run b).1 = result at hvisit
  generalize ((st.checkSellCondition r mint).run b).2 = b' at hvisit htrace ⊢
  have hsold : ∀ info', ∃ events info, b.sellTrace st r mint info' = events ++ b.trace ∧
      Trace.executeSell mint info ∈ events := by
    intro info'
    unfold Bot.sellTrace
    generalize ((b.trader.sell st.number r.answers info').order.map _).toList = orders
    exact ⟨orders ++ [.executeSell mint info', .sellSignal mint], info', by simp, by simp⟩
  cases hvisit with
  | passed _ hfree _ => exact absurd hheld (ne_true_of_eq_false hfree)
  | notBought _ _ hbuys _ => exact absurd hheld hbuys.not_held
  | bought _ _ hbuys _ _ => exact absurd hheld hbuys.not_held
  | kept _ _ _ _ _ =>
    have hlength := congrArg List.length htrace
    simp only [Bot.begun_trace, List.length_append, List.length_cons] at hlength
    omega
  | unsold _ _ _ hnone =>
    rw [hinfo] at hnone
    cases hnone
  | notSold _ info' _ _ _ _ _ => exact hsold info'
  | sold _ info' _ _ _ _ _ _ _ _ => exact hsold info'

/-- **A restored position is never sold.** After any run and a restart, and in whatever way the loop goes on: of a
position that was restored, a check at a price that calls for a sell does not call `executeSell`. All it does, once
the price is noted, is to say so. -/
theorem restored_never_sold (st : Setting) (turns : List Turn) (replies : List Replies) (r : Replies) (mint : String)
    (hrestored : (st.restart (st.run turns)).bot.tradeRecorder.isHolding mint = true) :
    let b := (st.monitoringLoop replies (st.restart (st.run turns))).bot
    st.SellSignal r mint b → ¬ st.CallsExecuteSell r mint b ∧
      (r.noting.active = .done → ((st.checkSellCondition r mint).run b).2.trace = .sellSignal mint :: b.trace) := by
  intro b hsignal
  have hstuck : Stuck mint b := monitoringLoop_stuck replies (restart_stuck hrestored)
  refine ⟨hstuck.not_callsExecuteSell st r, fun hnoting => ?_⟩
  obtain ⟨events, htrace⟩ := (checkSellCondition_signals_iff hstuck.holds hnoting).mpr hsignal
  rcases hstuck.checkSellCondition st r with hsame | hsaid
  · have hlength := congrArg List.length (hsame.symm.trans htrace)
    simp only [List.length_append, List.length_cons] at hlength
    omega
  · exact hsaid

/-! ### A sample -/

/-- The text of a mint. -/
def sampleText : String := "2b1kV6DkPAnxd5ixfnxCpjxmKwqjjaYmCZfHsFu24GXo"

/-- Two stored records of the mint, the newer one at a price a fifth higher. -/
def sampleTexts (number : Rounding 53) : List (String × TokenTradeRecord) :=
  [("\x7b\"mint\":\"2b1kV6DkPAnxd5ixfnxCpjxmKwqjjaYmCZfHsFu24GXo\",\"tokenAmount\":200000000000,\"solAmount\":120000000000,\"price\":0.0006,\"blocktimeUs\":1700000001000000,\"isBuy\":true,\"signature\":\"b\"\x7d",
    createTradeRecord number sampleText 200000000000 120000000000 true "b" 1700000001000000),
   ("\x7b\"mint\":\"2b1kV6DkPAnxd5ixfnxCpjxmKwqjjaYmCZfHsFu24GXo\",\"tokenAmount\":200000000000,\"solAmount\":100000000000,\"price\":0.0005,\"blocktimeUs\":1700000000000000,\"isBuy\":true,\"signature\":\"a\"\x7d",
    createTradeRecord number sampleText 200000000000 100000000000 true "a" 1700000000000000)]

/-- The bot with its default thresholds. -/
def sampleSettingIn (number : Rounding 53) : Setting where
  config := { buyAmountSol := 1 / 100, slippageBps := 500 }
  number := number
  redisAvailable := true
  parse text := (sampleTexts number).lookup text
  publicKey text := match Pubkey.fromStr text with
    | some key => .ok key
    | none => .error "Invalid public key input"

/-- As it runs. -/
def sampleSetting : Setting := sampleSettingIn .binary64

/-- Were its numbers exact. -/
def sampleExact : Setting := sampleSettingIn (.exact 53)

/-- The price of the newer record, the double next to 0.0006. -/
def samplePrice : ℚ := calculatePriceFromAmounts .binary64 120000000000 200000000000

/-- A server that has the two records. -/
def sampleReads : ReadReplies where
  lrange key start stop :=
    .ok (if key = tradesKey sampleText then KeyValue.range ((sampleTexts .binary64).map Prod.fst) start stop else [])
  keys _ := .ok [tradesKey sampleText]

/-- A node that knows a pool for every mint, with a price of the older record, and an SDK whose orders land. -/
def sampleAnswers : Answers where
  findByMint _ mint := .ok (some (default,
    { baseMint := mint, quoteMint := wsolTokenAccount, poolBaseTokenAccount := default,
      poolQuoteTokenAccount := default, coinCreator := default, isMayhemMode := false, isCashbackCoin := false }))
  getTokenBalances _ _ := .ok (some (200000000000, 100000000000))
  getBalance := .ok 1000000000
  getTokenAccountsByOwner _ := .ok [default]
  getTokenAccountBalance _ := .ok 5000000
  getLatestBlockhash := .ok "4uQeVj5tqViQh7yWWGStvkEG1Zmhx6uasJtWCJziofM"
  buy _ := .ok ⟨true, ["b"], none⟩
  sell _ := .ok ⟨true, ["s"], none⟩
  buyLands := true
  sellLands := true

/-- All of these replies. -/
def sampleReplies : Replies := ⟨sampleReads, sampleReads, sampleReads, sampleAnswers, quietAt 0, quietAt 0⟩

/-- The loop after the mint was bought. -/
def sampleBought : Loop := sampleSetting.run [.step sampleReplies, .step sampleReplies]

theorem sampleBought_signal :
    (sampleBought.bot.sellInfo sampleText).isSome = true ∧
      sampleSetting.getLatestTradePrice sampleReplies.price sampleText = .ok (some samplePrice) ∧
      shouldSell sampleSetting.config (profitPct .binary64 (sampleBought.bot.buyPrice sampleText) samplePrice) = true ∧
      sampleBought.bot.holds sampleText = true := by
  decide +kernel

theorem sampleRestored_signal :
    (sampleSetting.restart sampleBought).bot.tradeRecorder.isHolding sampleText = true ∧
      shouldSell sampleSetting.config
        (profitPct .binary64 ((sampleSetting.restart sampleBought).bot.buyPrice sampleText) samplePrice) = true := by
  decide +kernel

/-- The mint is bought, and the process started again. At a price a fifth above that of the buy the check calls for
a sell, and `executeSell` is not called. -/
theorem restored_never_sold_sample :
    let b := (sampleSetting.monitoringLoop [] (sampleSetting.restart (sampleSetting.run
      [.step sampleReplies, .step sampleReplies]))).bot
    ¬ sampleSetting.CallsExecuteSell sampleReplies sampleText b ∧
      ((sampleSetting.checkSellCondition sampleReplies sampleText).run b).2.trace = .sellSignal sampleText :: b.trace := by
  obtain ⟨-, hprice, -, -⟩ := sampleBought_signal
  obtain ⟨hrestored, hsell⟩ := sampleRestored_signal
  rw [sampleBought] at hrestored hsell
  have hnoting : sampleReplies.noting.active = .done := rfl
  have hsold := restored_never_sold sampleSetting [.step sampleReplies, .step sampleReplies] [] sampleReplies sampleText
    hrestored ⟨samplePrice, hprice, hsell⟩
  exact hsold.imp_right fun hsays => hsays hnoting

/-- Without the restart it is. -/
theorem sold_but_for_restart :
    sampleSetting.CallsExecuteSell sampleReplies sampleText sampleBought.bot ∧
      (sampleSetting.restart sampleBought).bot.tradeRecorder.isHolding sampleText = true ∧
      sampleSetting.SellSignal sampleReplies sampleText (sampleSetting.restart sampleBought).bot ∧
      ¬ sampleSetting.CallsExecuteSell sampleReplies sampleText (sampleSetting.restart sampleBought).bot := by
  obtain ⟨hinfo, hprice, hsell, hheld⟩ := sampleBought_signal
  obtain ⟨hrestored, hsell'⟩ := sampleRestored_signal
  obtain ⟨info, hinfo⟩ := Option.isSome_iff_exists.mp hinfo
  refine ⟨callsExecuteSell_of_sellInfo hheld hinfo ⟨samplePrice, hprice, hsell⟩ rfl, hrestored, ⟨samplePrice, hprice, hsell'⟩, ?_⟩
  exact (restart_stuck hrestored).not_callsExecuteSell sampleSetting sampleReplies

/-! ### The stop loss -/

/-- The stop of a position, `buyPrice * (1 - sellStopLossPct / 100)`. -/
def stopPrice (number : Rounding 53) (config : BotConfig) (buyPrice : ℚ) : ℚ :=
  number.mul buyPrice (number.sub 1 (number.div config.sellStopLossPct 100))

/-- At every price at the stop or below, the gain or the loss on the position is one to sell at. Prices are doubles. -/
def StopKept (number : Rounding 53) (config : BotConfig) (buyPrice : ℚ) : Prop :=
  ∀ price, number.round price = price → price ≤ stopPrice number config buyPrice →
    shouldSell config (profitPct number buyPrice price) = true

/-- Every open position has a buy price, and its stop is kept: a latest price there or below calls for a sell, and the
check says so, once the price is noted. -/
structure Armed (st : Setting) (b : Bot) : Prop where
  position : ∀ mint p, b.positions mint = some p → 0 < p.buyPrice
  active : ∀ mint p, b.tradeRecorder.getActivePosition mint = some p → 0 < p.buyPrice
  kept : ∀ mint, b.holds mint = true → StopKept st.number st.config (b.buyPrice mint)
  stopLoss : ∀ r mint price, b.holds mint = true → st.getLatestTradePrice r.price mint = .ok (some price) →
    st.number.round price = price → price ≤ stopPrice st.number st.config (b.buyPrice mint) →
    st.SellSignal r mint b ∧ (r.noting.active = .done →
      ∃ events, ((st.checkSellCondition r mint).run b).2.trace = events ++ .sellSignal mint :: b.trace)

/-- The buy that a step reaches, if it reaches one, has the funds, and if it is a success, a pool with reserves and with
a price whose stop is kept. -/
def StepArms (st : Setting) (r : Replies) (s : Loop) : Prop :=
  ∀ mint info, s.At mint → st.Buys r mint s.bot info →
    s.bot.trader.Arms st.number (StopKept st.number st.config) r.answers info st.config.buyAmountLamports

section Stop

variable {number : Rounding 53} {config : BotConfig} {buyPrice price price' : ℚ}

/-- The lower the price, the lower the gain. -/
theorem profitPct_mono (hpos : 0 < buyPrice) (h : price ≤ price') :
    profitPct number buyPrice price ≤ profitPct number buyPrice price' := by
  rw [profitPct, profitPct, if_pos hpos, if_pos hpos]
  have hfall : number.sub price buyPrice ≤ number.sub price' buyPrice := number.monotone (by linarith)
  have hratio : number.div (number.sub price buyPrice) buyPrice ≤ number.div (number.sub price' buyPrice) buyPrice :=
    number.monotone (div_le_div_of_nonneg_right hfall hpos.le)
  exact number.monotone (by linarith)

/-- A stop is not above the buy price. -/
theorem stopPrice_le (hpos : 0 ≤ buyPrice) (hround : number.round buyPrice = buyPrice)
    (hloss : 0 ≤ config.sellStopLossPct) : stopPrice number config buyPrice ≤ buyPrice := by
  have hfactor : number.sub 1 (number.div config.sellStopLossPct 100) ≤ 1 := by
    have hshare : 0 ≤ number.div config.sellStopLossPct 100 := Rounding.nonneg_div hloss (by norm_num)
    have hone : number.round 1 = 1 := by simpa using number.round_natCast (n := 1) (by norm_num)
    rw [← hone]
    exact number.monotone (by linarith)
  calc stopPrice number config buyPrice ≤ number.round buyPrice :=
        number.monotone (mul_le_of_le_one_right hpos hfactor)
    _ = buyPrice := hround

/-- Whether a stop is kept shows at the stop itself. -/
theorem stopKept_iff (hpos : 0 < buyPrice) (hround : number.round buyPrice = buyPrice)
    (hloss : 0 ≤ config.sellStopLossPct) (hprofit : 0 < config.sellProfitPct) :
    StopKept number config buyPrice ↔
      profitPct number buyPrice (stopPrice number config buyPrice) ≤ -config.sellStopLossPct := by
  constructor
  · intro hkept
    have hsell := hkept (stopPrice number config buyPrice) (number.idem _) le_rfl
    -- at the stop there is no gain
    have hgain : profitPct number buyPrice (stopPrice number config buyPrice) ≤ 0 := by
      calc profitPct number buyPrice (stopPrice number config buyPrice) ≤ profitPct number buyPrice buyPrice :=
            profitPct_mono hpos (stopPrice_le hpos.le hround hloss)
        _ = 0 := profitPct_self number buyPrice
    have hno : ¬ profitPct number buyPrice (stopPrice number config buyPrice) ≥ config.sellProfitPct := by linarith
    rw [shouldSell, if_neg hno] at hsell
    by_contra hnot
    rw [if_neg hnot] at hsell
    cases hsell
  · intro hle price _ hprice
    have hdown : profitPct number buyPrice price ≤ -config.sellStopLossPct := (profitPct_mono hpos hprice).trans hle
    simp [shouldSell, hdown]

/-- In exact arithmetic every stop is kept. -/
theorem stopKept_exact (config : BotConfig) (hpos : 0 < buyPrice) : StopKept (.exact 53) config buyPrice := by
  intro price _ hle
  have hloss : profitPct (.exact 53) buyPrice price ≤ -config.sellStopLossPct := by
    have hle' : price ≤ buyPrice * (1 - config.sellStopLossPct / 100) := hle
    have hfall : price - buyPrice ≤ -(config.sellStopLossPct / 100) * buyPrice := by linarith
    have hratio : (price - buyPrice) / buyPrice ≤ -(config.sellStopLossPct / 100) := (div_le_iff₀ hpos).mpr hfall
    rw [profitPct, if_pos hpos]
    show (price - buyPrice) / buyPrice * 100 ≤ -config.sellStopLossPct
    linarith
  simp [shouldSell, hloss]

/-- In doubles the one of a buy at 0.0006 is not: 0.00057 is a loss of a little less than the 5 percent. -/
example : ¬ StopKept .binary64 sampleSetting.config samplePrice := by
  intro hkept
  have hsell := hkept (stopPrice .binary64 sampleSetting.config samplePrice) (Rounding.idem _ _) le_rfl
  exact absurd hsell (by decide +kernel)

end Stop

/-- A buy price, and its stop is kept. -/
def Setting.Stops (st : Setting) (buyPrice : ℚ) : Prop := 0 < buyPrice ∧ StopKept st.number st.config buyPrice

section Armed

variable {st : Setting} {r : Replies} {s : Loop} {mint : String} {b b' : Bot} {result : Except Halt Unit}

theorem stops_buyPrice (hposition : ∀ mint p, b.positions mint = some p → st.Stops p.buyPrice)
    (hactive : ∀ mint p, b.tradeRecorder.getActivePosition mint = some p → st.Stops p.buyPrice)
    (hheld : b.holds mint = true) : st.Stops (b.buyPrice mint) := by
  unfold Bot.buyPrice
  rcases hp : b.positions mint with _ | p
  · rcases ha : b.tradeRecorder.getActivePosition mint with _ | p
    · rw [holds_eq_false_iff.mpr ⟨hp, ha⟩] at hheld
      cases hheld
    · exact hactive mint p ha
  · exact hposition mint p hp

/-- The stop loss follows from the buy prices. -/
theorem armed_of_stops (hposition : ∀ mint p, b.positions mint = some p → st.Stops p.buyPrice)
    (hactive : ∀ mint p, b.tradeRecorder.getActivePosition mint = some p → st.Stops p.buyPrice) : Armed st b where
  position mint p hp := (hposition mint p hp).1
  active mint p hp := (hactive mint p hp).1
  kept mint hheld := (stops_buyPrice hposition hactive hheld).2
  stopLoss := by
    intro r mint price hheld hprice hround hle
    have hsignal : st.SellSignal r mint b :=
      ⟨price, hprice, (stops_buyPrice hposition hactive hheld).2 price hround hle⟩
    exact ⟨hsignal, fun hnoting => (checkSellCondition_signals_iff hheld hnoting).mpr hsignal⟩

/-! The recorder's positions, in memory and in the file. -/

/-- All positions of the recorder have a buy price of some kind, and so have those in its file. -/
structure Priced (P : ℚ → Prop) (t : TradeRecorder) : Prop where
  memory : ∀ e ∈ t.activePositions.entries, P e.2.buyPrice
  file : ∀ ps, t.files.active = .content ps → ∀ p ∈ ps, P p.buyPrice

variable {P : ℚ → Prop}

theorem Priced.savedAs {t t' : TradeRecorder} {m : OrderedMap String ActivePosition} (h : Priced P t)
    (hsaved : t.SavedAs m t') (hm : ∀ e ∈ m.entries, P e.2.buyPrice) : Priced P t' where
  memory := hsaved.positions ▸ hm
  file := by
    intro ps hps p hp
    rcases hsaved.file with hfile | hfile | hfile
    · exact h.file ps (hfile ▸ hps) p hp
    · rw [hfile] at hps
      cases hps
      obtain ⟨e, he, rfl⟩ := List.mem_map.mp hp
      exact hm e he
    · rw [hfile] at hps
      cases hps

theorem Priced.recordBuy {t : TradeRecorder} (h : Priced P t) (a : Ambient) (mint : String) {p : ℚ} (hp : P p) (q : ℚ)
    (sig : String) : Priced P ((TradeRecorder.recordBuy a mint p q sig).run t).2 := by
  refine h.savedAs (TradeRecorder.recordBuy_savedAs t a mint p q sig) fun e he => ?_
  rw [OrderedMap.entries_set] at he
  rcases OrderedMap.mem_setEntries he with rfl | he
  · exact hp
  · exact h.memory e he

theorem Priced.updatePrice {t : TradeRecorder} (h : Priced P t) (a : Ambient) (mint : String) (x : ℚ) :
    Priced P ((TradeRecorder.updatePrice a mint x).run t).2 := by
  rcases hp : t.activePositions.get? mint with _ | p
  · rw [TradeRecorder.updatePrice_run_of_none hp]
    exact h
  · refine h.savedAs (TradeRecorder.updatePrice_savedAs hp a x) fun e he => ?_
    rw [OrderedMap.entries_set] at he
    rcases OrderedMap.mem_setEntries he with rfl | he
    · have hbuyPrice : P p.buyPrice := h.memory _ (OrderedMap.mem_of_get? hp)
      rw [TradeRecorder.seen_eq]
      exact hbuyPrice
    · exact h.memory e he

theorem Priced.recordSell {t : TradeRecorder} (h : Priced P t) (a : Ambient) (mint : String) (p q : ℚ) (sig : String) :
    Priced P ((TradeRecorder.recordSell a mint p q sig).run t).2 := by
  rcases hp : t.activePositions.get? mint with _ | position
  · rw [TradeRecorder.recordSell_run_of_none hp]
    exact h
  · refine h.savedAs (TradeRecorder.recordSell_savedAs hp a p q sig) fun e he => ?_
    exact h.memory e (List.mem_of_mem_filter he)

theorem Priced.new {t : TradeRecorder} (h : Priced P t) : Priced P (TradeRecorder.new t.files) where
  memory := by
    intro e he
    have hmem : e.2 ∈ t.files.active.readD [] := OrderedMap.mem_of_mem_ofValues he
    rcases hfile : t.files.active with _ | ps | _
    · rw [hfile] at hmem
      cases hmem
    · rw [hfile] at hmem
      exact h.file ps hfile e.2 hmem
    · rw [hfile] at hmem
      cases hmem
  file := h.file

/-! Along a run. -/

/-- All positions have a buy price whose stop is kept. -/
structure AllPriced (st : Setting) (b : Bot) : Prop where
  position : ∀ mint p, b.positions mint = some p → st.Stops p.buyPrice
  recorder : Priced st.Stops b.tradeRecorder

theorem AllPriced.armed (h : AllPriced st b) : Armed st b :=
  armed_of_stops h.position fun _ _ hp => h.recorder.memory _ (OrderedMap.mem_of_get? hp)

theorem Visit.allPriced (h : Visit st r mint b result b') (hb : AllPriced st b)
    (harms : ∀ info, st.Buys r mint b info →
      b.trader.Arms st.number (StopKept st.number st.config) r.answers info st.config.buyAmountLamports) :
    AllPriced st b' := by
  cases h with
  | passed _ _ _ => exact ⟨hb.position, hb.recorder⟩
  | notBought _ _ _ _ => exact ⟨hb.position, hb.recorder⟩
  | bought info bought hbuys hok hsuccess =>
    have hstops : st.Stops bought.price := Trader.arms_iff.mp (harms info hbuys) bought hok hsuccess
    refine ⟨fun m p hp => ?_, hb.recorder.recordBuy r.recording mint hstops _ _⟩
    dsimp only at hp
    by_cases hm : m = mint
    · subst hm
      rw [Function.update_self] at hp
      cases hp
      exact hstops
    · rw [Function.update_of_ne hm] at hp
      exact hb.position m p hp
  | kept _ recorder _ hrecorder _ =>
    refine ⟨hb.position, ?_⟩
    rcases hrecorder with rfl | ⟨price, rfl⟩
    · exact hb.recorder
    · exact hb.recorder.updatePrice r.noting mint price
  | unsold price _ _ _ => exact ⟨hb.position, hb.recorder.updatePrice r.noting mint price⟩
  | notSold price _ _ _ _ _ _ => exact ⟨hb.position, hb.recorder.updatePrice r.noting mint price⟩
  | sold price info sold amount _ _ _ _ _ _ =>
    refine ⟨fun m p hp => ?_, (hb.recorder.updatePrice r.noting mint price).recordSell r.recording mint _ _ _⟩
    dsimp only at hp
    by_cases hm : m = mint
    · subst hm
      rw [Function.update_self] at hp
      cases hp
    · rw [Function.update_of_ne hm] at hp
      exact hb.position m p hp

theorem step_allPriced (h : AllPriced st s.bot) (harms : StepArms st r s) : AllPriced st (st.step r s).bot := by
  rcases step_cases st r s with ⟨heq, -⟩ | ⟨mint, result, hat, hvisit⟩
  · rw [heq]
    exact h
  · exact hvisit.allPriced h fun info hbuys => harms mint info hat hbuys

theorem restart_allPriced (h : AllPriced st s.bot) : AllPriced st (st.restart s).bot where
  position := by
    intro mint p hp
    cases hp
  recorder := h.recorder.new

theorem start_allPriced (st : Setting) : AllPriced st (st.start .empty []).bot where
  position := by
    intro mint p hp
    cases hp
  recorder := by
    refine ⟨fun e he => ?_, fun ps hps => ?_⟩
    · cases he
    · cases hps

/-- A step that leaves every position armed met the condition: the position of a buy has the price that was reported. -/
theorem stepArms_of_armed (h : Armed st (st.step r s).bot) : StepArms st r s := by
  intro mint info hat hbuys
  refine Trader.arms_iff.mpr fun bought hok hsuccess => ?_
  obtain ⟨mints, hcontrol⟩ := hat
  rcases step_cases st r s with ⟨-, hno⟩ | ⟨mint', result, ⟨mints', hcontrol'⟩, hvisit⟩
  · exact absurd ⟨mints, hcontrol⟩ (hno mint)
  rw [hcontrol] at hcontrol'
  cases hcontrol'
  have hsame : ∀ info', st.Buys r mint s.bot info' → info' = info := by
    intro info' hbuys'
    exact Except.ok.inj (hbuys'.info.symm.trans hbuys.info)
  generalize (st.step r s).bot = b' at h hvisit
  cases hvisit with
  | passed _ _ hno => exact absurd hbuys (hno info)
  | notBought info' _ hbuys' hno =>
    cases hsame info' hbuys'
    rw [hno bought hok] at hsuccess
    cases hsuccess
  | bought info' bought' hbuys' hok' _ =>
    cases hsame info' hbuys'
    cases Except.ok.inj (hok'.symm.trans hok)
    have hself : (Function.update s.bot.positions mint
        (some ⟨mint, bought.price, st.config.buyAmountLamports, info⟩)) mint =
          some ⟨mint, bought.price, st.config.buyAmountLamports, info⟩ := Function.update_self _ _ _
    have hkept := h.kept mint (by simp [Bot.holds, Bot.isHolding])
    simp only [Bot.buyPrice, hself] at hkept
    exact ⟨h.position mint _ hself, hkept⟩
  | kept _ _ hheld _ _ => exact absurd hheld hbuys.not_held
  | unsold _ hheld _ _ => exact absurd hheld hbuys.not_held
  | notSold _ _ _ hheld _ _ _ => exact absurd hheld hbuys.not_held
  | sold _ _ _ _ _ hheld _ _ _ _ => exact absurd hheld hbuys.not_held

/-- **The stop loss is armed exactly as long as every buy leaves a price that arms it.** In every state of a run, with
restarts, every open position has a buy price and sells at its stop loss, if and only if each of its steps that reached
a buy had the funds for it, and if it was reported a success, reserves on both sides of the pool and a price whose stop
is kept. -/
theorem run_armed_iff (st : Setting) (turns : List Turn) :
    (∀ before, before <+: turns → Armed st (st.run before).bot) ↔
      ∀ before r, before ++ [.step r] <+: turns → StepArms st r (st.run before) := by
  have hturns : (∀ before t, before ++ [t] <+: turns → ∀ r, t = .step r → StepArms st r (st.run before)) ↔
      ∀ before r, before ++ [.step r] <+: turns → StepArms st r (st.run before) :=
    ⟨fun h before r hpre => h before _ hpre r rfl, fun h before t hpre r ht => h before r (ht ▸ hpre)⟩
  rw [← hturns]
  refine Prefixes.property_iff_steps (I := fun before => AllPriced st (st.run before).bot) (start_allPriced st)
    (fun before t _ hpriced harms => ?_) (fun before _ hpriced => hpriced.armed) fun before t _ _ harmed r ht => ?_
  · rw [run_snoc]
    cases t with
    | step r => exact step_allPriced hpriced (harms r rfl)
    | restart => exact restart_allPriced hpriced
  · rw [ht, run_snoc] at harmed
    exact stepArms_of_armed harmed

/-- A position without a buy price is not armed. -/
theorem not_armed (h : (b.positions mint).map TokenPosition.buyPrice = some 0) :
    ¬ Armed st b := by
  intro harmed
  obtain ⟨position, hposition, hzero⟩ := Option.map_eq_some_iff.mp h
  have hpos := harmed.position mint position hposition
  rw [hzero] at hpos
  exact lt_irrefl 0 hpos

/-- With an empty wallet the mint is held after one visit, without a buy price. -/
theorem not_armed_unfunded :
    let r := { sampleReplies with answers := { sampleAnswers with getBalance := .ok 0 } }
    ¬ Armed sampleSetting (sampleSetting.run [.step r, .step r]).bot := by
  have hheld : let r := { sampleReplies with answers := { sampleAnswers with getBalance := .ok 0 } }
      ((sampleSetting.run [.step r, .step r]).bot.positions sampleText).map TokenPosition.buyPrice = some 0 := by
    decide +kernel
  exact not_armed hheld

end Armed

/-! ### Buys that land -/

/-- How many buys of a mint landed since a sell of it last landed, the newest events first. -/
def openBuys (mint : String) : List Trace → ℕ
  | [] => 0
  | .buy mint' _ lands :: trace => openBuys mint trace + if mint' = mint ∧ lands = true then 1 else 0
  | .sell mint' _ lands :: trace => if mint' = mint ∧ lands = true then 0 else openBuys mint trace
  | .sellSignal _ :: trace => openBuys mint trace
  | .executeSell _ _ :: trace => openBuys mint trace

/-- Every buy of a mint was ordered while none that had landed was open. -/
def OneAtATime (mint : String) (trace : List Trace) : Prop :=
  ∀ order lands before, .buy mint order lands :: before <:+ trace → openBuys mint before = 0

/-- What the SDK reports in a step is what happens: a buy that is ordered and lands is reported a success, and a
sell that is ordered and reported a success lands. -/
structure StepFaithful (st : Setting) (r : Replies) (s : Loop) : Prop where
  buy : ∀ mint info order, s.At mint → st.Buys r mint s.bot info → (s.bot.buyReport st r info).order = some order →
    r.answers.buyLands = true → Trader.accepted (r.answers.buy order) = true
  sell : ∀ mint info order, s.At mint → st.SellSignal r mint s.bot → s.bot.sellInfo mint = some info →
    (s.bot.trader.sell st.number r.answers info).order = some order → Trader.accepted (r.answers.sell order) = true →
    r.answers.sellLands = true

section Landing

variable {st : Setting} {r : Replies} {s : Loop} {mint m : String} {b b' : Bot} {result : Except Halt Unit}
  {trace : List Trace} {info : TradeInfo}

theorem OneAtATime.cons {t : Trace} (h : OneAtATime mint trace)
    (ht : ∀ order lands, t = .buy mint order lands → openBuys mint trace = 0) : OneAtATime mint (t :: trace) := by
  intro order lands before hsuffix
  rcases List.suffix_cons_iff.mp hsuffix with heq | hsuffix
  · cases heq
    exact ht order lands rfl
  · exact h order lands before hsuffix

/-- Buys that are ordered one at a time are open one at a time. -/
theorem OneAtATime.openBuys_le (h : OneAtATime mint trace) : openBuys mint trace ≤ 1 := by
  induction trace with
  | nil => exact Nat.zero_le 1
  | cons t trace ih =>
    have htail : OneAtATime mint trace := fun order lands before hsuffix =>
      h order lands before (hsuffix.trans (List.suffix_cons t trace))
    cases t with
    | sellSignal _ => exact ih htail
    | executeSell _ _ => exact ih htail
    | sell mint' order lands =>
      rw [openBuys]
      split_ifs
      · exact Nat.zero_le 1
      · exact ih htail
    | buy mint' order lands =>
      rw [openBuys]
      split_ifs with hbuy
      · rw [hbuy.1] at h
        rw [h order lands trace (List.suffix_refl _)]
      · exact ih htail

/-- Buys are ordered one at a time, and a mint with an open one is held. -/
structure Covered (b : Bot) : Prop where
  orders : ∀ mint, OneAtATime mint b.trace
  held : ∀ mint, openBuys mint b.trace ≠ 0 → b.holds mint = true

theorem Covered.openBuys_eq_zero (h : Covered b) (hfree : b.holds mint = false) : openBuys mint b.trace = 0 := by
  by_contra hne
  rw [h.held mint hne] at hfree
  cases hfree

/-- An order of a buy that is given while none is open. -/
theorem Covered.buyTrace (h : Covered b) (hfree : b.holds m = false) (st : Setting) (r : Replies) (info : TradeInfo)
    (mint : String) : OneAtATime mint (b.buyTrace st r m info) := by
  unfold Bot.buyTrace
  rcases (b.buyReport st r info).order with _ | order
  · exact h.orders mint
  · refine (h.orders mint).cons fun order' lands heq => ?_
    cases heq
    exact h.openBuys_eq_zero hfree

theorem Covered.sellTrace (h : Covered b) (st : Setting) (r : Replies) (info : TradeInfo) (m mint : String) :
    OneAtATime mint (b.sellTrace st r m info) := by
  have hcalled : OneAtATime mint (.executeSell m info :: .sellSignal m :: b.trace) :=
    ((h.orders mint).cons (by simp)).cons (by simp)
  unfold Bot.sellTrace
  rcases (b.trader.sell st.number r.answers info).order with _ | order
  · exact hcalled
  · exact hcalled.cons (by simp)

theorem openBuys_buyTrace (h : m = mint → ∀ order, (b.buyReport st r info).order = some order →
    r.answers.buyLands = false) : openBuys mint (b.buyTrace st r m info) = openBuys mint b.trace := by
  unfold Bot.buyTrace
  rcases horder : (b.buyReport st r info).order with _ | order
  · rfl
  · show openBuys mint b.trace + (if m = mint ∧ r.answers.buyLands = true then 1 else 0) = _
    have hnot : ¬ (m = mint ∧ r.answers.buyLands = true) := by
      rintro ⟨hm, hlands⟩
      rw [h hm order horder] at hlands
      cases hlands
    rw [if_neg hnot, Nat.add_zero]

theorem openBuys_of_sellTrace (h : openBuys mint (b.sellTrace st r m info) ≠ 0) : openBuys mint b.trace ≠ 0 := by
  intro hzero
  apply h
  unfold Bot.sellTrace
  rcases (b.trader.sell st.number r.answers info).order with _ | order
  · exact hzero
  · show (if m = mint ∧ r.answers.sellLands = true then 0 else openBuys mint b.trace) = 0
    rw [hzero, ite_self]

/-- After a sell that lands, no buy is open. -/
theorem openBuys_sellTrace_self {order : TradeSellParams} (horder : (b.trader.sell st.number r.answers info).order = some order)
    (hlands : r.answers.sellLands = true) : openBuys m (b.sellTrace st r m info) = 0 := by
  unfold Bot.sellTrace
  rw [horder]
  exact if_pos ⟨rfl, hlands⟩

/-- A visit keeps the open buys covered, if what it is told of its orders is what happens. -/
theorem Visit.covered (h : Visit st r m b result b') (hb : Covered b)
    (hbuy : ∀ info order, st.Buys r m b info → (b.buyReport st r info).order = some order →
      r.answers.buyLands = true → Trader.accepted (r.answers.buy order) = true)
    (hsell : ∀ info order, st.SellSignal r m b → b.sellInfo m = some info →
      (b.trader.sell st.number r.answers info).order = some order → Trader.accepted (r.answers.sell order) = true →
      r.answers.sellLands = true) : Covered b' := by
  have hothers : ∀ mint, mint ≠ m → b'.holds mint = b.holds mint := fun mint hm => (h.same hm).holds
  cases h with
  | passed _ _ _ => exact ⟨hb.orders, hb.held⟩
  | notBought info _ hbuys hno =>
    -- The buy was not reported a success, so it did not land.
    have hlost : ∀ order, (b.buyReport st r info).order = some order → r.answers.buyLands = false := by
      intro order horder
      by_contra hlands
      obtain ⟨bought, hok, hsuccess⟩ := Trader.buy_order horder
      rw [hno bought hok, hbuy info order hbuys horder (Bool.not_eq_false _ ▸ hlands)] at hsuccess
      cases hsuccess
    refine ⟨hb.buyTrace hbuys.free st r info, fun mint hopen => ?_⟩
    rw [openBuys_buyTrace fun _ => hlost] at hopen
    exact hb.held mint hopen
  | bought info bought hbuys hok hsuccess =>
    refine ⟨hb.buyTrace hbuys.free st r info, fun mint hopen => ?_⟩
    by_cases hm : mint = m
    · subst hm
      simp [Bot.holds, Bot.isHolding]
    · rw [openBuys_buyTrace fun heq => absurd heq.symm hm] at hopen
      exact (hothers mint hm).trans (hb.held mint hopen)
  | kept _ recorder _ hrecorder _ =>
    refine ⟨hb.orders, fun mint hopen => ?_⟩
    rcases hrecorder with rfl | ⟨price, rfl⟩
    · exact hb.held mint hopen
    · exact (same_noted b r m price _ b.trace).holds.trans (hb.held mint hopen)
  | unsold price _ _ _ =>
    refine ⟨fun mint => (hb.orders mint).cons (by simp), fun mint hopen => ?_⟩
    exact (same_noted b r m price _ _).holds.trans (hb.held mint hopen)
  | notSold price info _ _ _ _ _ =>
    refine ⟨hb.sellTrace st r info m, fun mint hopen => ?_⟩
    exact (same_noted b r m price _ _).holds.trans (hb.held mint (openBuys_of_sellTrace hopen))
  | sold price info sold amount _ _ hsignal hinfo hok hsuccess =>
    refine ⟨hb.sellTrace st r info m, fun mint hopen => ?_⟩
    have hm : mint ≠ m := by
      rintro rfl
      obtain ⟨order, horder, haccepted⟩ := Trader.sell_outcome hok
      refine hopen (openBuys_sellTrace_self horder (hsell info order hsignal hinfo horder ?_))
      rw [← haccepted, hsuccess]
    exact (hothers mint hm).trans (hb.held mint (openBuys_of_sellTrace hopen))

theorem step_covered (h : Covered s.bot) (hfaithful : StepFaithful st r s) : Covered (st.step r s).bot := by
  rcases step_cases st r s with ⟨heq, -⟩ | ⟨mint, result, hat, hvisit⟩
  · rw [heq]
    exact h
  · exact hvisit.covered h (fun info order hbuys => hfaithful.buy mint info order hat hbuys)
      fun info order hsignal hinfo => hfaithful.sell mint info order hat hsignal hinfo

theorem monitoringLoop_snoc (st : Setting) (replies : List Replies) (r : Replies) (s : Loop) :
    st.monitoringLoop (replies ++ [r]) s = st.step r (st.monitoringLoop replies s) := by
  simp [Setting.monitoringLoop]

/-- **A mint is not bought again while a buy of it is open.** In every state of a run of the loop, if in each step
what the SDK reports is what happens: of every mint at most one buy that landed is not followed by a sell that
landed, and no buy was ordered while there was one. -/
theorem monitoringLoop_single (st : Setting) (files : RecordFiles) (replies : List Replies)
    (h : ∀ before r, before ++ [r] <+: replies → StepFaithful st r (st.monitoringLoop before (st.start files []))) :
    ∀ before, before <+: replies → ∀ mint,
      openBuys mint (st.monitoringLoop before (st.start files [])).bot.trace ≤ 1 ∧
        OneAtATime mint (st.monitoringLoop before (st.start files [])).bot.trace := by
  have hcovered : ∀ before, before <+: replies → Covered (st.monitoringLoop before (st.start files [])).bot := by
    refine Prefixes.invariant_of_steps (C := fun before r => StepFaithful st r (st.monitoringLoop before (st.start files [])))
      ?_ (fun before r _ hbefore hfaithful => ?_) fun before r hpre _ => h before r hpre
    · exact ⟨fun mint order lands before hsuffix => by simp [Setting.start, Setting.monitoringLoop] at hsuffix,
        fun mint hopen => absurd rfl hopen⟩
    · rw [monitoringLoop_snoc]
      exact step_covered hbefore hfaithful
  intro before hpre mint
  have horders := (hcovered before hpre).orders mint
  exact ⟨horders.openBuys_le, horders⟩

end Landing

/-- The sample, whose orders all land and are reported successes: it is bought once. -/
theorem monitoringLoop_single_sample :
    let trace := (sampleSetting.monitoringLoop [sampleReplies, sampleReplies] (sampleSetting.start .empty [])).bot.trace
    openBuys sampleText trace = 1 ∧ OneAtATime sampleText trace := by
  have hsingle := monitoringLoop_single sampleSetting .empty [sampleReplies, sampleReplies] (fun before r hpre => by
    have hr : r = sampleReplies := by
      have hmem : r ∈ [sampleReplies, sampleReplies] := hpre.subset (by simp)
      simpa using hmem
    subst hr
    exact ⟨fun _ _ _ _ _ _ _ => rfl, fun _ _ _ _ _ _ _ _ => rfl⟩) _ (List.prefix_refl _) sampleText
  exact ⟨by decide +kernel, hsingle.2⟩

/-- The sample, with buys that land and are reported failures: it is bought in every round. -/
theorem bought_twice :
    let r := { sampleReplies with answers := { sampleAnswers with
      buy := fun _ => .ok ⟨false, [], some "Transaction confirmation timed out"⟩ } }
    openBuys sampleText
      (sampleSetting.monitoringLoop [r, r, r, r] (sampleSetting.start .empty [])).bot.trace = 2 := by
  decide +kernel

end PumpSwapBot.Node
