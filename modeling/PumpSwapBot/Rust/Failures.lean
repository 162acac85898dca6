import PumpSwapBot.Rust.Freshness

/-!
# Operations that fail

`execute_buy` and `execute_sell` of `strategy.rs` can fail at about ten places: the trade data, the balances, the
block hash, the SDK. Three pieces of state are changed on the way, at different moments: the cache of trade data, what
the trader remembers of its latest buy, and the positions.

## What is proved

* `executeBuy_error`, `executeSell_error` — an operation that fails leaves everything but the cache as it was
  (`Intact`), and the cache gains at most what was read for the mint.
* `operations_intact` — the same of both, with what an operation that succeeds leaves of the other mints.
* `monitoringLoop_ended` — so a run that ends with a failure ends with the positions it had before its last step.
-/

namespace PumpSwapBot.Rust

open PumpSwapBot.Sdk PumpSwapBot.Library

/-- What an operation on a mint that failed leaves of the bot. -/
structure Intact (st : Setting) (a : Answers) (mint : String) (b b' : Bot) : Prop where
  positions : b'.positions = b.positions
  buyPrice : b'.trader.buyPrice = b.trader.buyPrice
  buySolAmount : b'.trader.buySolAmount = b.trader.buySolAmount
  /-- The cache is as it was, or has gained what was read for the mint. -/
  cache : b'.tradeInfoCache = b.tradeInfoCache ∨ ∃ info, b.tradeInfoCache mint = none ∧
    st.fetchTradeInfo b.trader a mint = .ok info ∧
    b'.tradeInfoCache = Function.update b.tradeInfoCache mint (some info)

/-- An operation on a mint that succeeded leaves the positions of the others. -/
def OthersKept (mint : String) (b b' : Bot) : Prop := ∀ m, m ≠ mint → b'.positions m = b.positions m

section Operations

variable {st : Setting} {a : Answers} {mint : String} {b b' : Bot} {info : TradeInfo} {f : Failure}

/-- The trader remembers a buy only if the buy succeeded. -/
theorem Trader.buy_eq_self {t : Trader} {solAmount : UInt64}
    (h : (t.buy a info solAmount).1.outcome = .error f) : (t.buy a info solAmount).2 = t := by
  simp only [Trader.buy] at h ⊢
  generalize Trader.buyPreflight a solAmount = preflight at h ⊢
  rcases preflight with _ | _ | hash
  · rfl
  · rfl
  · refine if_neg fun hsucceeded => ?_
    dsimp only at h
    rw [Trader.conclude_eq_ok (u := ()) |>.mpr (Trader.succeeded_iff.mp hsucceeded)] at h
    cases h

/-- Trade data that were got changed the cache alone, by what was read. -/
theorem getOrFetchTradeInfo_intact (h : (st.getOrFetchTradeInfo a mint).run b = (.ok info, b')) :
    Intact st a mint b b' ∧ b'.trader = b.trader := by
  have hframe : b' = { b with tradeInfoCache := b'.tradeInfoCache } := by
    rcases getOrFetchTradeInfo_run st a mint b with ⟨f, herror⟩ | ⟨info', cache, hok⟩
    · rw [herror] at h
      cases h
    · rw [hok] at h
      cases h
      rfl
  refine ⟨⟨by rw [hframe], by rw [hframe], by rw [hframe], ?_⟩, by rw [hframe]⟩
  obtain ⟨hcache, ⟨hthere, -⟩ | ⟨hnone, -, hfetch⟩⟩ := getOrFetchTradeInfo_cases h
  · left
    rw [hcache, ← hthere, Function.update_eq_self]
  · exact Or.inr ⟨info, hnone, hfetch, hcache⟩

/-- The exits of a buy: the mint is held, there are no trade data, the trader failed, or it did not. -/
inductive BuyExit (st : Setting) (a : Answers) (mint : String) (b : Bot) : Result Unit × Bot → Prop where
  | held : BuyExit st a mint b (.ok (), b)
  | unknown (f : Failure) : BuyExit st a mint b (.error f, b)
  | failed (info : TradeInfo) (b' : Bot) (f : Failure)
      (hinfo : (st.getOrFetchTradeInfo a mint).run b = (.ok info, b'))
      (hfail : (b'.trader.buy a info st.config.buyAmountLamports).1.outcome = .error f) :
      BuyExit st a mint b (.error f, { b' with
        trader := (b'.trader.buy a info st.config.buyAmountLamports).2
        trace := .buy mint info (b'.trader.buy a info st.config.buyAmountLamports).1 :: b'.trace })
  | done (info : TradeInfo) (b' : Bot)
      (hinfo : (st.getOrFetchTradeInfo a mint).run b = (.ok info, b')) :
      BuyExit st a mint b (.ok (), { b' with
        trader := (b'.trader.buy a info st.config.buyAmountLamports).2
        positions := Function.update b'.positions mint (some (st.opened mint info))
        trace := .buy mint info (b'.trader.buy a info st.config.buyAmountLamports).1 :: b'.trace })

theorem executeBuy_exit (st : Setting) (a : Answers) (mint : String) (b : Bot) :
    BuyExit st a mint b ((st.executeBuy a mint).run b) := by
  simp only [Setting.executeBuy]
  rw [Proc.bind_run_ok (isHolding_run mint b)]
  rcases b.positions mint with _ | position
  swap
  · exact .held
  rw [Option.isSome_none, if_neg Bool.false_ne_true]
  rcases hinfo : (st.getOrFetchTradeInfo a mint).run b with ⟨f | info, b'⟩
  · rw [Proc.bind_run_error hinfo]
    rcases getOrFetchTradeInfo_run st a mint b with ⟨f', herror⟩ | ⟨info', cache, hok⟩
    · rw [herror] at hinfo
      cases hinfo
      exact .unknown _
    · rw [hok] at hinfo
      cases hinfo
  rw [Proc.bind_run_ok hinfo]
  have hbuy := traderBuy_run a mint info st.config.buyAmountLamports b'
  rcases ho : (b'.trader.buy a info st.config.buyAmountLamports).1.outcome with f | u
  · rw [ho] at hbuy
    rw [Proc.bind_run_error hbuy]
    exact .failed info b' f hinfo ho
  · rw [ho] at hbuy
    rw [Proc.bind_run_ok hbuy]
    exact .done info b' hinfo

/-- A buy that failed. -/
theorem executeBuy_error (h : (st.executeBuy a mint).run b = (.error f, b')) : Intact st a mint b b' := by
  have hexit := executeBuy_exit st a mint b
  rw [h] at hexit
  cases hexit with
  | unknown f => exact ⟨rfl, rfl, rfl, Or.inl rfl⟩
  | failed info b₁ f hinfo hfail =>
    obtain ⟨hintact, htrader⟩ := getOrFetchTradeInfo_intact hinfo
    have hsame : (b₁.trader.buy a info st.config.buyAmountLamports).2 = b.trader := by
      rw [Trader.buy_eq_self hfail, htrader]
    exact ⟨hintact.positions, congrArg Trader.buyPrice hsame, congrArg Trader.buySolAmount hsame, hintact.cache⟩

/-- A buy that succeeded. -/
theorem executeBuy_ok {u : Unit} (h : (st.executeBuy a mint).run b = (.ok u, b')) : OthersKept mint b b' := by
  have hexit := executeBuy_exit st a mint b
  rw [h] at hexit
  cases hexit with
  | held => exact fun _ _ => rfl
  | done info b₁ hinfo =>
    intro m hm
    obtain ⟨hintact, -⟩ := getOrFetchTradeInfo_intact hinfo
    exact (Function.update_of_ne hm _ _).trans (congrFun hintact.positions m)

/-- The exits of a sell: the trader failed, and nothing changed, or it did not, and the position is gone. -/
theorem executeSell_exit (st : Setting) (a : Answers) (mint : String) (info : TradeInfo) (b : Bot) :
    ∃ trace, (∃ f, (st.executeSell a mint info).run b = (.error f, { b with trace })) ∨
      (st.executeSell a mint info).run b =
        (.ok (), { b with positions := Function.update b.positions mint none, trace }) := by
  refine ⟨.sell mint info (b.trader.sell st.env a info) :: b.trace, ?_⟩
  simp only [Setting.executeSell]
  have hsell := traderSell_run st a mint info b
  rcases ho : (b.trader.sell st.env a info).outcome with f | u
  · rw [ho] at hsell
    exact Or.inl ⟨f, Proc.bind_run_error hsell⟩
  · rw [ho] at hsell
    rw [Proc.bind_run_ok hsell]
    exact Or.inr rfl

/-- A sell that failed. -/
theorem executeSell_error (h : (st.executeSell a mint info).run b = (.error f, b')) : Intact st a mint b b' := by
  obtain ⟨trace, ⟨f', hexit⟩ | hexit⟩ := executeSell_exit st a mint info b
  · rw [hexit] at h
    cases h
    exact ⟨rfl, rfl, rfl, Or.inl rfl⟩
  · rw [hexit] at h
    cases h

/-- A sell that succeeded. -/
theorem executeSell_ok {u : Unit} (h : (st.executeSell a mint info).run b = (.ok u, b')) : OthersKept mint b b' := by
  obtain ⟨trace, ⟨f', hexit⟩ | hexit⟩ := executeSell_exit st a mint info b
  · rw [hexit] at h
    cases h
  · rw [hexit] at h
    cases h
    exact fun m hm => Function.update_of_ne hm _ _

/-- **Operations that fail leave the bot as it was.** Of every bot, whatever is answered: a buy or a sell of a mint that
fails leaves the positions and what the trader remembers, and the cache but for what was read for the mint; one that
succeeds leaves the positions of all other mints. -/
theorem operations_intact (st : Setting) (a : Answers) (mint : String) (info : TradeInfo) (b : Bot) :
    (∀ f b', (st.executeBuy a mint).run b = (.error f, b') ∨ (st.executeSell a mint info).run b = (.error f, b') →
      Intact st a mint b b') ∧
    ∀ u b', (st.executeBuy a mint).run b = (.ok u, b') ∨ (st.executeSell a mint info).run b = (.ok u, b') →
      OthersKept mint b b' := by
  constructor
  · rintro f b' (h | h)
    · exact executeBuy_error h
    · exact executeSell_error h
  · rintro u b' (h | h)
    · exact executeBuy_ok h
    · exact executeSell_ok h

end Operations

/-! ### Runs -/

section Runs

variable {st : Setting} {r : Replies} {mint : String} {b b' : Bot} {f : Failure}

/-- A visit that failed. -/
theorem Visit.intact (h : Visit st r mint b (.error f) b') : Intact st r.answers mint b b' := by
  cases h with
  | passed _ _ _ => exact ⟨rfl, rfl, rfl, Or.inl rfl⟩
  | buyFailed info cache f _ _ hinfo hfail =>
    obtain ⟨hintact, -⟩ := getOrFetchTradeInfo_intact hinfo
    have hsame := Trader.buy_eq_self hfail
    exact ⟨rfl, congrArg Trader.buyPrice hsame, congrArg Trader.buySolAmount hsame, hintact.cache⟩
  | kept _ _ _ _ => exact ⟨rfl, rfl, rfl, Or.inl rfl⟩
  | sellFailed _ _ _ _ _ => exact ⟨rfl, rfl, rfl, Or.inl rfl⟩

/-- **The end of a run.** A step after which the loop has ended leaves the positions and what the trader remembers, and the cache but
for what was read for one mint. -/
theorem monitoringLoop_ended (replies : List Replies) {s : Loop}
    (hafter : (st.monitoringLoop (replies ++ [r]) s).control = .stopped f) :
    ∃ mint, Intact st r.answers mint (st.monitoringLoop replies s).bot (st.monitoringLoop (replies ++ [r]) s).bot := by
  rw [monitoringLoop_concat] at hafter ⊢
  rcases step_cases st r (st.monitoringLoop replies s) with ⟨hbot, -⟩ | ⟨mint, mints, result, -, hv, hcontrol⟩
  · exact ⟨"", by rw [hbot]; exact ⟨rfl, rfl, rfl, Or.inl rfl⟩⟩
  · rw [hcontrol] at hafter
    rcases result with f' | u
    · exact ⟨mint, hv.intact⟩
    · cases hafter

end Runs

end PumpSwapBot.Rust
