import PumpSwapBot.Rust.Runs

/-!
# The price of an entry

A position is opened at the price of the pool, and the order of its buy carries the reserves of the pool.
Both come from `get_or_fetch_trade_info` of `strategy.rs`, which reads the pool when a mint is bought for the
first time and answers from its cache ever after.

## The model

* `getOrFetchTracked` is that function with the trade data it read from the chain beside its result; without
  them it is the function itself (`getOrFetchTracked_erase`).
* A step is fresh (`FreshStep`) if the position it opens has the price, and the order of the buy the reserves, of
  trade data read in the step.

## What is proved

`Remembers` — in every state of every run the cache has an entry for a mint exactly if the trader was asked to buy
it before. From it `monitoringLoop_fresh_iff`: the steps of a run are all fresh exactly if no mint is bought again.
-/

namespace PumpSwapBot.Rust

open PumpSwapBot.Sdk PumpSwapBot.Library

/-! ### What is read in a step -/

/-- The trade data of a mint, with those that were read from the chain for them. -/
def Setting.getOrFetchTracked (st : Setting) (a : Answers) (mint : String) :
    Proc Bot Failure (TradeInfo × List TradeInfo) := do
  let b ← Proc.get
  match b.tradeInfoCache mint with
  | some info => return (info, [])
  | none => do
    let info ← Proc.ofExcept (st.fetchTradeInfo b.trader a mint)
    Proc.modify fun b => { b with tradeInfoCache := Function.update b.tradeInfoCache mint (some info) }
    return (info, [info])

/-- A step opens a position of a mint. -/
def Opens (st : Setting) (r : Replies) (s : Loop) (mint : String) (position : TokenPosition) : Prop :=
  s.bot.positions mint = none ∧ (st.step r s).bot.positions mint = some position

/-- The position that a step opens has the price of trade data that were read from the chain in the step, and the
order of its buy has their reserves. -/
structure FreshEntry (st : Setting) (r : Replies) (s : Loop) (mint : String) (position : TokenPosition)
    (info : TradeInfo) : Prop where
  read : ((st.getOrFetchTracked r.answers mint).run s.bot).1 = .ok (info, [info])
  fetched : st.fetchTradeInfo s.bot.trader r.answers mint = .ok info
  buyPrice : position.buyPrice = calculatePriceFromPool info
  order : ∃ report, (st.step r s).bot.trace = .buy mint info report :: s.bot.trace ∧
    ∀ params result, report.call = some (params, result) →
      params.extensionParams.poolBaseTokenReserves = info.poolBaseTokenReserves ∧
        params.extensionParams.poolQuoteTokenReserves = info.poolQuoteTokenReserves

/-- Every position that a step opens is fresh. -/
def FreshStep (st : Setting) (r : Replies) (s : Loop) : Prop :=
  ∀ mint position, Opens st r s mint position → ∃ info, FreshEntry st r s mint position info

/-- Every position that a step opens is the first of its mint: the trader was not asked to buy it before. -/
def FirstStep (st : Setting) (r : Replies) (s : Loop) : Prop :=
  ∀ mint position, Opens st r s mint position → ∀ info report, .buy mint info report ∉ s.bot.trace

section Step

variable {st : Setting} {r : Replies} {s : Loop} {a : Answers} {mint : String} {b b' : Bot} {info : TradeInfo}

/-- Without what was read it is the function of the source. -/
theorem getOrFetchTracked_erase (st : Setting) (a : Answers) (mint : String) (b : Bot) :
    (st.getOrFetchTradeInfo a mint).run b =
      (((st.getOrFetchTracked a mint).run b).1.map Prod.fst, ((st.getOrFetchTracked a mint).run b).2) := by
  simp only [Setting.getOrFetchTradeInfo, Setting.getOrFetchTracked]
  rw [Proc.bind_run_ok (Proc.get_run b), Proc.bind_run_ok (Proc.get_run b)]
  rcases b.tradeInfoCache mint with _ | info
  · dsimp only
    rcases st.fetchTradeInfo b.trader a mint with f | info <;> rfl
  · rfl

/-- The trade data of a mint are the entry of the cache, or there is none and they are read. -/
theorem getOrFetchTradeInfo_cases (h : (st.getOrFetchTradeInfo a mint).run b = (.ok info, b')) :
    b'.tradeInfoCache = Function.update b.tradeInfoCache mint (some info) ∧
      (b.tradeInfoCache mint = some info ∧ ((st.getOrFetchTracked a mint).run b).1 = .ok (info, []) ∨
        b.tradeInfoCache mint = none ∧ ((st.getOrFetchTracked a mint).run b).1 = .ok (info, [info]) ∧
          st.fetchTradeInfo b.trader a mint = .ok info) := by
  simp only [Setting.getOrFetchTradeInfo] at h
  simp only [Setting.getOrFetchTracked]
  rw [Proc.bind_run_ok (Proc.get_run b)] at h ⊢
  rcases hcache : b.tradeInfoCache mint with _ | info'
  · rw [hcache] at h
    dsimp only at h ⊢
    rcases hfetch : st.fetchTradeInfo b.trader a mint with f | info'
    · rw [hfetch] at h
      cases h
    · rw [hfetch] at h
      cases h
      exact ⟨rfl, Or.inr ⟨rfl, rfl, rfl⟩⟩
  · rw [hcache] at h
    cases h
    refine ⟨?_, Or.inl ⟨rfl, rfl⟩⟩
    rw [← hcache, Function.update_eq_self]

/-- A step that opens a position buys its mint, with the trade data that the position keeps. -/
theorem Opens.buys {position : TokenPosition} (h : Opens st r s mint position) :
    ∃ info b', (st.getOrFetchTradeInfo r.answers mint).run s.bot = (.ok info, b') ∧ position = st.opened mint info ∧
      (st.step r s).bot.trace =
        .buy mint info (s.bot.trader.buy r.answers info st.config.buyAmountLamports).1 :: s.bot.trace := by
  obtain ⟨hfree, hopen⟩ := h
  rcases step_cases st r s with ⟨hbot, -⟩ | ⟨mint', mints, result, -, hv, -⟩
  · rw [hbot, hfree] at hopen
    cases hopen
  -- the step visits the mint itself, since it leaves the positions of the others
  by_cases hmint : mint = mint'
  swap
  · rw [hv.positions_of_ne hmint, hfree] at hopen
    cases hopen
  subst hmint
  generalize (st.step r s).bot = b' at hv hopen ⊢
  have hunopened : s.bot.positions mint ≠ some position := by
    rw [hfree]
    simp
  cases hv with
  | passed _ _ _ => exact absurd hopen hunopened
  | bought info cache _ _ hinfo _ =>
    dsimp only at hopen
    rw [Function.update_self] at hopen
    exact ⟨info, _, hinfo, (Option.some.inj hopen).symm, rfl⟩
  | buyFailed _ _ _ _ _ _ _ => exact absurd hopen hunopened
  | kept _ _ _ _ => exact absurd hopen hunopened
  | sold _ _ _ _ =>
    dsimp only at hopen
    rw [Function.update_self] at hopen
    cases hopen
  | sellFailed _ _ _ _ _ => exact absurd hopen hunopened

/-- **A position is fresh exactly if the cache had no entry for its mint.** -/
theorem Opens.fresh_iff {position : TokenPosition} (h : Opens st r s mint position) :
    (∃ info, FreshEntry st r s mint position info) ↔ s.bot.tradeInfoCache mint = none := by
  obtain ⟨info, b', hinfo, rfl, htrace⟩ := h.buys
  obtain ⟨-, ⟨hcache, htracked⟩ | ⟨hcache, htracked, hfetch⟩⟩ := getOrFetchTradeInfo_cases hinfo
  · -- nothing was read
    refine iff_of_false ?_ (by simp [hcache])
    rintro ⟨info', hfresh⟩
    have hread := hfresh.read
    rw [htracked] at hread
    cases hread
  · refine iff_of_true ⟨info, htracked, hfetch, rfl, _, htrace, ?_⟩ hcache
    intro params result hcall
    obtain ⟨hash, rfl⟩ := Trader.buy_call_eq hcall
    exact ⟨rfl, rfl⟩

end Step

/-! ### The cache along a run -/

/-- The cache has an entry for a mint exactly if the trader was asked to buy it. -/
def Remembers (b : Bot) : Prop :=
  ∀ mint, b.tradeInfoCache mint = none ↔ ∀ info report, .buy mint info report ∉ b.trace

section Cache

variable {st : Setting} {r : Replies} {mint : String} {b b' : Bot} {result : Result Unit}

/-- A buy leaves its trade data in the cache. -/
theorem Remembers.buy {info : TradeInfo} {report : Trader.Report TradeBuyParams} (h : Remembers b)
    (hcache : b'.tradeInfoCache = Function.update b.tradeInfoCache mint (some info))
    (htrace : b'.trace = .buy mint info report :: b.trace) : Remembers b' := by
  intro m
  rw [hcache, htrace]
  by_cases hm : m = mint
  · subst hm
    rw [Function.update_self]
    exact iff_of_false (by simp) fun hno => hno info report List.mem_cons_self
  · rw [Function.update_of_ne hm, h m]
    simp [hm]

/-- Any other event leaves the cache, and is no buy. -/
theorem Remembers.other (events : List Trace) (h : Remembers b) (hcache : b'.tradeInfoCache = b.tradeInfoCache)
    (htrace : b'.trace = events ++ b.trace) (hevents : ∀ m info report, .buy m info report ∉ events) :
    Remembers b' := by
  intro m
  rw [hcache, htrace, h m]
  simp [hevents]

theorem Visit.remembers (h : Visit st r mint b result b') (hb : Remembers b) : Remembers b' := by
  cases h with
  | passed _ _ _ => exact hb
  | bought info cache _ _ hinfo _ => exact hb.buy (getOrFetchTradeInfo_cases hinfo).1 rfl
  | buyFailed info cache _ _ _ hinfo _ => exact hb.buy (getOrFetchTradeInfo_cases hinfo).1 rfl
  | kept _ _ _ _ => exact hb.other [_] rfl rfl (by simp)
  | sold _ _ _ _ => exact hb.other [_, _] rfl rfl (by simp)
  | sellFailed _ _ _ _ _ => exact hb.other [_, _] rfl rfl (by simp)

/-- **The cache remembers every mint that was bought**, in every state of every run. -/
theorem monitoringLoop_remembers (st : Setting) (t : Trader) (replies : List Replies) :
    Remembers (st.monitoringLoop replies (Loop.start t)).bot :=
  monitoringLoop_keeps (fun _ _ _ _ _ hv hb => hv.remembers hb) replies fun _ => iff_of_true rfl fun _ _ h => by cases h

theorem freshStep_iff {s : Loop} (hs : Remembers s.bot) : FreshStep st r s ↔ FirstStep st r s := by
  simp only [FreshStep, FirstStep]
  refine forall_congr' fun mint => forall_congr' fun position => imp_congr_right fun hopens => ?_
  rw [hopens.fresh_iff]
  exact hs mint

end Cache

/-- **When the entries of a run are fresh.** Every position that a run opens has the price, and the order of its buy the
reserves, of trade data read from the chain in the same step, exactly if it is in each case the first of its mint. -/
theorem monitoringLoop_fresh_iff (st : Setting) (t : Trader) (replies : List Replies) :
    (∀ before r, before ++ [r] <+: replies → FreshStep st r (st.monitoringLoop before (Loop.start t))) ↔
      ∀ before r, before ++ [r] <+: replies → FirstStep st r (st.monitoringLoop before (Loop.start t)) := by
  refine forall_congr' fun before => forall_congr' fun r => imp_congr_right fun _ => ?_
  exact freshStep_iff (monitoringLoop_remembers st t before)

/-- The node when somebody has sold into the pool. -/
def sampleMovedNode : Rpc :=
  { sampleCanonicalNode with
    getTokenAccountBalance := fun account =>
      .ok (if account = sampleInfo.poolBaseTokenAccount then "250000000000" else "80000000000") }

/-- The replies of that node. -/
def sampleMovedReplies : Replies :=
  let replies := sampleReplies [sampleText] 1000000000
  { replies with answers := { replies.answers with rpc := fun _ => sampleMovedNode } }

/-- The loop when the sample has been bought and sold. -/
def sampleRound : Loop :=
  sampleSetting.monitoringLoop (List.replicate 7 (sampleReplies [sampleText] 1000000000))
    (Loop.start (sampleTrader false))

theorem sampleRound_moved :
    (sampleRound.bot.positions sampleText).isNone = true ∧ (sampleRound.bot.tradeInfoCache sampleText).isSome = true ∧
      ((sampleSetting.step sampleMovedReplies sampleRound).bot.positions sampleText).map TokenPosition.buyPrice =
        some (1 / 2) ∧
      (sampleSetting.fetchTradeInfo sampleRound.bot.trader sampleMovedReplies.answers sampleText).map
        calculatePriceFromPool = .ok (8 / 25) := by
  decide +kernel

/-- The sample is bought, sold and bought again after the reserves have moved, at the price it was first bought at. -/
theorem monitoringLoop_stale :
    ∃ position info, Opens sampleSetting sampleMovedReplies sampleRound sampleText position ∧
      sampleSetting.fetchTradeInfo sampleRound.bot.trader sampleMovedReplies.answers sampleText = .ok info ∧
      position.buyPrice = 1 / 2 ∧ calculatePriceFromPool info = 8 / 25 ∧
      ¬ FreshStep sampleSetting sampleMovedReplies sampleRound := by
  obtain ⟨hfree, hcached, hprice, hnow⟩ := sampleRound_moved
  obtain ⟨position, hposition, hbuyPrice⟩ := Option.map_eq_some_iff.mp hprice
  obtain ⟨info, hinfo, hcurrent⟩ := exists_of_map_eq_ok hnow
  have hopens : Opens sampleSetting sampleMovedReplies sampleRound sampleText position :=
    ⟨Option.isNone_iff_eq_none.mp hfree, hposition⟩
  refine ⟨position, info, hopens, hinfo, hbuyPrice, hcurrent, fun hfresh => ?_⟩
  have hnone := hopens.fresh_iff.mp (hfresh sampleText position hopens)
  rw [hnone] at hcached
  cases hcached

end PumpSwapBot.Rust
