import PumpSwapBot.Rust.Runs

/-!
# One mint among others

The loop goes through all mints with one state for all of them: a map of positions, a cache of trade data
and a trader with one slot for its latest buy. Here a run over several mints is compared with the run over
one of them alone.

## What is proved

* `Agree` — two states are the same as far as a mint can tell. A visit to the mint has the same outcome
  from both and leaves states that agree (`visit_relates`), and a visit to another mint leaves a state that
  agrees with the one before (`Visit.agree`).
* `monitoringLoop_isolated` — so after every iteration the position and the cached data of a mint are those
  of the run in which it is the only one.
-/

namespace PumpSwapBot.Rust

open PumpSwapBot.Sdk PumpSwapBot.Library

/-! ### What a mint can tell -/

/-- The trader without its memory of the latest buy. -/
def Trader.settings (t : Trader) : Trader := { t with buyPrice := none, buySolAmount := 0 }

/-- Two states agree on a mint: its position, its cached data, and the trader's settings. -/
structure Agree (mint : String) (b b' : Bot) : Prop where
  positions : b.positions mint = b'.positions mint
  tradeInfoCache : b.tradeInfoCache mint = b'.tradeInfoCache mint
  trader : b.trader.settings = b'.trader.settings

section Trader

variable {t t' : Trader} {st : Setting}

theorem fetchFrom_settings (e : Env) (t : Trader) (rpc : ℕ → Rpc) (mint : Pubkey) (remaining attempt : ℕ)
    (lastError : Option Error) :
    Trader.fetchFrom e t rpc mint remaining attempt lastError =
      Trader.fetchFrom e t.settings rpc mint remaining attempt lastError := by
  induction remaining generalizing attempt lastError with
  | zero => rfl
  | succ remaining ih =>
    simp only [Trader.fetchFrom, ih]
    rfl

theorem fetchTradeInfo_settings (st : Setting) (t : Trader) (a : Answers) (mint : String) :
    st.fetchTradeInfo t a mint = st.fetchTradeInfo t.settings a mint := by
  simp only [Setting.fetchTradeInfo, Trader.fetchTradeInfoWithRetry, fetchFrom_settings st.env t]
  rfl

theorem buy_settings (t : Trader) (a : Answers) (info : TradeInfo) (solAmount : UInt64) :
    (t.buy a info solAmount).1 = (t.settings.buy a info solAmount).1 ∧
      (t.buy a info solAmount).2.settings = t.settings := by
  simp only [Trader.buy]
  rcases Trader.buyPreflight a solAmount with f | _ | hash
  · exact ⟨rfl, rfl⟩
  · exact ⟨rfl, rfl⟩
  · dsimp only
    refine ⟨rfl, ?_⟩
    split_ifs <;> rfl

theorem sell_settings (st : Setting) (t : Trader) (a : Answers) (info : TradeInfo) :
    t.sell st.env a info = t.settings.sell st.env a info := rfl

end Trader

/-! ### A visit to the mint -/

section Same

variable {st : Setting} {mint : String} {b b' : Bot}

theorem Agree.refl (mint : String) (b : Bot) : Agree mint b b := ⟨rfl, rfl, rfl⟩

theorem Agree.trans {b'' : Bot} (h : Agree mint b b') (h' : Agree mint b' b'') : Agree mint b b'' :=
  ⟨h.positions.trans h'.positions, h.tradeInfoCache.trans h'.tradeInfoCache, h.trader.trans h'.trader⟩

theorem Agree.symm (h : Agree mint b b') : Agree mint b' b :=
  ⟨h.positions.symm, h.tradeInfoCache.symm, h.trader.symm⟩

theorem isHolding_relates (mint : String) : Proc.Relates (Agree mint) (Setting.isHolding mint) :=
  Proc.relates_get (fun _ _ h => by rw [h.positions]) fun _ => Proc.relates_pure _

theorem getOrFetchTradeInfo_relates (st : Setting) (a : Answers) (mint : String) :
    Proc.Relates (Agree mint) (st.getOrFetchTradeInfo a mint) := by
  refine Proc.relates_get (fun s s' h => ?_) fun s => ?_
  · rw [h.tradeInfoCache, fetchTradeInfo_settings st s.trader, h.trader, ← fetchTradeInfo_settings]
  · rcases s.tradeInfoCache mint with _ | info
    · refine (Proc.relates_ofExcept _).bind fun info => (Proc.relates_modify fun s s' h => ?_).bind fun _ =>
        Proc.relates_pure info
      exact ⟨h.positions, by simp only [Function.update_self], h.trader⟩
    · exact Proc.relates_pure info

theorem traderBuy_relates (a : Answers) (mint : String) (info : TradeInfo) (solAmount : UInt64) :
    Proc.Relates (Agree mint) (Setting.traderBuy a mint info solAmount) := by
  intro b b' h
  obtain ⟨hreport, hsettings⟩ := buy_settings b.trader a info solAmount
  obtain ⟨hreport', hsettings'⟩ := buy_settings b'.trader a info solAmount
  rw [traderBuy_run, traderBuy_run]
  refine ⟨?_, h.positions, h.tradeInfoCache, ?_⟩
  · rw [hreport, hreport', h.trader]
  · rw [hsettings, hsettings', h.trader]

theorem traderSell_relates (st : Setting) (a : Answers) (mint : String) (info : TradeInfo) :
    Proc.Relates (Agree mint) (st.traderSell a mint info) := by
  intro b b' h
  rw [traderSell_run, traderSell_run]
  refine ⟨?_, h.positions, h.tradeInfoCache, h.trader⟩
  rw [sell_settings st b.trader, sell_settings st b'.trader, h.trader]

theorem executeBuy_relates (st : Setting) (a : Answers) (mint : String) :
    Proc.Relates (Agree mint) (st.executeBuy a mint) := by
  refine (isHolding_relates mint).bind fun holding => ?_
  split_ifs
  · exact Proc.relates_pure ()
  · refine (getOrFetchTradeInfo_relates st a mint).bind fun info => (traderBuy_relates a mint info _).bind fun _ =>
      Proc.relates_modify fun s s' h => ?_
    exact ⟨by simp only [Function.update_self], h.tradeInfoCache, h.trader⟩

theorem executeSell_relates (st : Setting) (a : Answers) (mint : String) (info : TradeInfo) :
    Proc.Relates (Agree mint) (st.executeSell a mint info) := by
  refine (traderSell_relates st a mint info).bind fun _ => Proc.relates_modify fun s s' h => ?_
  exact ⟨by simp only [Function.update_self], h.tradeInfoCache, h.trader⟩

theorem checkBuyCondition_relates (st : Setting) (r : Replies) (mint : String) :
    Proc.Relates (Agree mint) (st.checkBuyCondition r mint) := by
  refine (isHolding_relates mint).bind fun holding => ?_
  split_ifs
  · exact Proc.relates_pure ()
  · refine (Proc.relates_ofExcept _).bind fun currentPrice => ?_
    rcases currentPrice with _ | price
    · exact Proc.relates_pure ()
    · refine (Proc.relates_ofExcept _).bind fun shouldBuy => ?_
      split_ifs
      · exact executeBuy_relates st r.answers mint
      · exact Proc.relates_pure ()

theorem checkSellCondition_relates (st : Setting) (r : Replies) (mint : String) :
    Proc.Relates (Agree mint) (st.checkSellCondition r mint) := by
  refine (Proc.relates_modify fun s s' h => ⟨h.positions, h.tradeInfoCache, h.trader⟩).bind fun _ => ?_
  refine Proc.relates_get (fun s s' h => by rw [h.positions]) fun s => ?_
  rcases s.positions mint with _ | position
  · exact Proc.relates_pure ()
  · refine (Proc.relates_ofExcept _).bind fun currentPrice => ?_
    rcases currentPrice with _ | price
    · exact Proc.relates_pure ()
    · dsimp only
      split_ifs
      · exact executeSell_relates st r.answers mint position.tradeInfo
      · exact Proc.relates_pure ()

/-- **A visit to the mint** depends on nothing but what the mint can tell. -/
theorem visit_relates (st : Setting) (r : Replies) (mint : String) :
    Proc.Relates (Agree mint) (st.visit r mint) := by
  refine (isHolding_relates mint).bind fun holding => ?_
  split_ifs
  · exact checkSellCondition_relates st r mint
  · exact checkBuyCondition_relates st r mint

end Same

/-! ### A visit to another mint -/

section Other

variable {st : Setting} {r : Replies} {mint m : String} {b b' : Bot}

theorem getOrFetchTradeInfo_cache {a : Answers} {info : TradeInfo} {cache : String → Option TradeInfo}
    (h : (st.getOrFetchTradeInfo a mint).run b = (.ok info, { b with tradeInfoCache := cache })) (hm : m ≠ mint) :
    cache m = b.tradeInfoCache m := by
  simp only [Setting.getOrFetchTradeInfo] at h
  rw [Proc.bind_run_ok (Proc.get_run b)] at h
  rcases hc : b.tradeInfoCache mint with _ | cached
  · simp only [hc] at h
    rcases hf : st.fetchTradeInfo b.trader a mint with f | fetched
    · rw [hf, Proc.bind_run_error (Proc.ofExcept_run _ _)] at h
      cases h
    · rw [hf, Proc.bind_run_ok (Proc.ofExcept_run _ _), Proc.bind_run_ok (Proc.modify_run _ _), Proc.pure_run] at h
      have hcache := congrArg (fun o => o.2.tradeInfoCache m) h
      dsimp only at hcache
      rw [← hcache, Function.update_of_ne hm]
  · simp only [hc, Proc.pure_run] at h
    exact (congrArg (fun o => o.2.tradeInfoCache m) h).symm

/-- **A visit to another mint** changes nothing the mint can tell. -/
theorem Visit.agree {result : Result Unit} (h : Visit st r mint b result b') (hm : m ≠ mint) : Agree m b' b := by
  refine ⟨h.positions_of_ne hm, ?_, ?_⟩
  · cases h with
    | passed _ _ _ => rfl
    | bought _ _ _ _ hinfo _ => exact getOrFetchTradeInfo_cache hinfo hm
    | buyFailed _ _ _ _ _ hinfo _ => exact getOrFetchTradeInfo_cache hinfo hm
    | kept _ _ _ _ => rfl
    | sold _ _ _ _ => rfl
    | sellFailed _ _ _ _ _ => rfl
  · cases h with
    | passed _ _ _ => rfl
    | bought info _ _ _ _ _ => exact (buy_settings b.trader r.answers info _).2
    | buyFailed info _ _ _ _ _ _ => exact (buy_settings b.trader r.answers info _).2
    | kept _ _ _ _ => rfl
    | sold _ _ _ _ => rfl
    | sellFailed _ _ _ _ _ => rfl

end Other

/-! ### The loop -/

/-- The replies of one iteration: to the call for the mints, to a visit of each, and at its end. -/
def iteration (keys : Replies) (oracle : String → Replies) (mints : List String) : List Replies :=
  keys :: mints.map oracle ++ [keys]

/-- The replies of some iterations. -/
def iterations (keys : ℕ → Replies) (oracle : ℕ → String → Replies) (mints : ℕ → List String) : ℕ → List Replies
  | 0 => []
  | n + 1 => iterations keys oracle mints n ++ iteration (keys n) (oracle n) (mints n)

section Loop

variable {st : Setting} {m : String}

theorem monitoringLoop_append (st : Setting) (before after : List Replies) (s : Loop) :
    st.monitoringLoop (before ++ after) s = st.monitoringLoop after (st.monitoringLoop before s) :=
  List.foldl_append

/-- A loop that has ended stays so. -/
theorem monitoringLoop_stopped (st : Setting) (replies : List Replies) (b : Bot) (f : Failure) :
    st.monitoringLoop replies ⟨b, .stopped f⟩ = ⟨b, .stopped f⟩ := by
  induction replies with
  | nil => rfl
  | cons r replies ih => exact ih

/-- A visit that succeeds leads on to the other mints. -/
theorem monitoringLoop_visit {r : Replies} {mint : String} {b b₁ : Bot} {u : Unit}
    (hrun : (st.visit r mint).run b = (.ok u, b₁)) (replies : List Replies) (mints : List String) :
    st.monitoringLoop (r :: replies) ⟨b, .visiting (mint :: mints)⟩ = st.monitoringLoop replies ⟨b₁, .visiting mints⟩ := by
  have hstep : st.step r ⟨b, .visiting (mint :: mints)⟩ = ⟨b₁, .visiting mints⟩ := by
    simp only [Setting.step, hrun, Except.map, Setting.next]
  simp only [Setting.monitoringLoop, List.foldl_cons, hstep]

/-- One that fails ends the loop. -/
theorem monitoringLoop_visit_error {r : Replies} {mint : String} {b b₁ : Bot} {f : Failure}
    (hrun : (st.visit r mint).run b = (.error f, b₁)) (replies : List Replies) (mints : List String) :
    st.monitoringLoop (r :: replies) ⟨b, .visiting (mint :: mints)⟩ = ⟨b₁, .stopped f⟩ := by
  have hstep : st.step r ⟨b, .visiting (mint :: mints)⟩ = ⟨b₁, .stopped f⟩ := by
    simp only [Setting.step, hrun, Except.map, Setting.next]
  simp only [Setting.monitoringLoop, List.foldl_cons, hstep]
  exact monitoringLoop_stopped st replies b₁ f

/-- The visits of an iteration, to all mints and to one of them alone. -/
theorem monitoringLoop_visits_agree {oracle : String → Replies} {mints : List String} {b b' : Bot} (h : Agree m b b')
    (hgo : ∀ f, (st.monitoringLoop (mints.map oracle) ⟨b, .visiting mints⟩).control ≠ .stopped f) :
    let alone := mints.filter (· = m)
    (st.monitoringLoop (mints.map oracle) ⟨b, .visiting mints⟩).control = .visiting [] ∧
      (st.monitoringLoop (alone.map oracle) ⟨b', .visiting alone⟩).control = .visiting [] ∧
      Agree m (st.monitoringLoop (mints.map oracle) ⟨b, .visiting mints⟩).bot
        (st.monitoringLoop (alone.map oracle) ⟨b', .visiting alone⟩).bot := by
  induction mints generalizing b b' with
  | nil => exact ⟨rfl, rfl, h⟩
  | cons mint mints ih =>
    rcases hrun : (st.visit (oracle mint) mint).run b with ⟨f | u, b₁⟩
    · -- The visit failed, and the loop with it.
      refine absurd ?_ (hgo f)
      rw [List.map_cons, monitoringLoop_visit_error hrun]
    rw [List.map_cons, monitoringLoop_visit hrun] at hgo ⊢
    by_cases hmint : mint = m
    · subst hmint
      obtain ⟨hout, hagree⟩ := visit_relates st (oracle mint) mint b b' h
      rcases hrun' : (st.visit (oracle mint) mint).run b' with ⟨o, b₁'⟩
      rw [hrun, hrun'] at hout hagree
      have hok : o = .ok u := hout.symm
      rw [hok] at hrun'
      have hfilter : (mint :: mints).filter (fun x => decide (x = mint)) = mint :: mints.filter (· = mint) := by simp
      rw [hfilter]
      dsimp only
      rw [List.map_cons, monitoringLoop_visit hrun']
      exact ih hagree hgo
    · have hfilter : (mint :: mints).filter (fun x => decide (x = m)) = mints.filter (· = m) := by simp [hmint]
      rw [hfilter]
      have hvisit := visit_cases st (oracle mint) mint b
      rw [hrun] at hvisit
      exact ih ((hvisit.agree (Ne.symm hmint)).trans h) hgo

/-- One iteration, with all mints and with one of them alone. -/
theorem iteration_agree {keys alone : Replies} {oracle : String → Replies} {mints : List String} {b b' : Bot}
    (h : Agree m b b') (hkeys : st.getActiveMints keys.keys = .ok mints)
    (halone : st.getActiveMints alone.keys = .ok (mints.filter (· = m)))
    (hgo : ∀ f, (st.monitoringLoop (iteration keys oracle mints) ⟨b, .top⟩).control ≠ .stopped f) :
    (st.monitoringLoop (iteration keys oracle mints) ⟨b, .top⟩).control = .top ∧
      (st.monitoringLoop (iteration alone oracle (mints.filter (· = m))) ⟨b', .top⟩).control = .top ∧
      Agree m (st.monitoringLoop (iteration keys oracle mints) ⟨b, .top⟩).bot
        (st.monitoringLoop (iteration alone oracle (mints.filter (· = m))) ⟨b', .top⟩).bot := by
  have hstart : ∀ (k : Replies) (ms : List String) (b : Bot), st.getActiveMints k.keys = .ok ms →
      st.monitoringLoop (iteration k oracle ms) ⟨b, .top⟩ =
        st.step k (st.monitoringLoop (ms.map oracle) ⟨b, .visiting ms⟩) := by
    intro k ms b hk
    rw [iteration, monitoringLoop_concat]
    simp only [Setting.monitoringLoop, List.foldl_cons, Setting.step, hk, Except.map, Setting.next]
  rw [hstart keys mints b hkeys] at hgo ⊢
  rw [hstart alone _ b' halone]
  have hend : ∀ f, (st.monitoringLoop (mints.map oracle) ⟨b, .visiting mints⟩).control ≠ .stopped f := by
    intro f hf
    refine hgo f ?_
    rw [Setting.step, hf]
    exact hf
  obtain ⟨hcontrol, hcontrol', hagree⟩ := monitoringLoop_visits_agree h hend
  have htop : ∀ (k : Replies) (s : Loop), s.control = .visiting [] → st.step k s = ⟨s.bot, .top⟩ := by
    intro k s hs
    rw [Setting.step, hs]
  rw [htop _ _ hcontrol, htop _ _ hcontrol']
  exact ⟨rfl, rfl, hagree⟩

theorem iterations_agree {t : Trader} {keys alone : ℕ → Replies} {oracle : ℕ → String → Replies} {mints : ℕ → List String}
    (hkeys : ∀ i, st.getActiveMints (keys i).keys = .ok (mints i))
    (halone : ∀ i, st.getActiveMints (alone i).keys = .ok ((mints i).filter (· = m))) (n : ℕ)
    (hgo : ∀ f, (st.monitoringLoop (iterations keys oracle mints n) (Loop.start t)).control ≠ .stopped f) :
    let all := st.monitoringLoop (iterations keys oracle mints n) (Loop.start t)
    let one := st.monitoringLoop (iterations alone oracle (fun i => (mints i).filter (· = m)) n) (Loop.start t)
    all.control = .top ∧ one.control = .top ∧ Agree m all.bot one.bot := by
  induction n with
  | zero => exact ⟨rfl, rfl, Agree.refl m _⟩
  | succ n ih =>
    simp only [iterations, monitoringLoop_append] at hgo ⊢
    have hbefore : ∀ f, (st.monitoringLoop (iterations keys oracle mints n) (Loop.start t)).control ≠ .stopped f := by
      intro f hf
      refine hgo f ?_
      generalize st.monitoringLoop (iterations keys oracle mints n) (Loop.start t) = s at hf
      obtain ⟨b, c⟩ := s
      dsimp only at hf
      rw [hf, monitoringLoop_stopped]
    obtain ⟨hall, hone, hagree⟩ := ih hbefore
    generalize st.monitoringLoop (iterations keys oracle mints n) (Loop.start t) = all at *
    generalize st.monitoringLoop (iterations alone oracle (fun i => (mints i).filter (· = m)) n) (Loop.start t) = one at *
    obtain ⟨b, c⟩ := all
    obtain ⟨b', c'⟩ := one
    dsimp only at hall hone
    subst hall hone
    exact iteration_agree hagree (hkeys n) (halone n) hgo

theorem iterations_congr {keys : ℕ → Replies} {oracle oracle' : ℕ → String → Replies} {mints : ℕ → List String}
    (h : ∀ i, ∀ mint ∈ mints i, oracle i mint = oracle' i mint) (n : ℕ) :
    iterations keys oracle mints n = iterations keys oracle' mints n := by
  induction n with
  | zero => rfl
  | succ n ih => rw [iterations, iterations, ih, iteration, iteration, List.map_congr_left (h n)]

/-- **Mints do not interfere.** In every run in which no operation fails, after every iteration the position and the
cached data of a mint are those of the run in which the mint, with the same replies, is the only one.
They are also those of every other such run in which the mint is listed in the same iterations and gets
the same replies, whatever else is listed there and in whatever order. -/
theorem monitoringLoop_isolated {t : Trader} {keys alone : ℕ → Replies} {oracle : ℕ → String → Replies}
    {mints : ℕ → List String} (hkeys : ∀ i, st.getActiveMints (keys i).keys = .ok (mints i))
    (halone : ∀ i, st.getActiveMints (alone i).keys = .ok ((mints i).filter (· = m))) (n : ℕ)
    (hgo : ∀ f, (st.monitoringLoop (iterations keys oracle mints n) (Loop.start t)).control ≠ .stopped f) :
    let b := (st.monitoringLoop (iterations keys oracle mints n) (Loop.start t)).bot
    let one := (st.monitoringLoop (iterations alone oracle (fun i => (mints i).filter (· = m)) n) (Loop.start t)).bot
    (b.positions m = one.positions m ∧ b.tradeInfoCache m = one.tradeInfoCache m) ∧
    ∀ (keys' : ℕ → Replies) (oracle' : ℕ → String → Replies) (mints' : ℕ → List String),
      (∀ i, st.getActiveMints (keys' i).keys = .ok (mints' i)) →
      (∀ i, (mints' i).filter (· = m) = (mints i).filter (· = m)) → (∀ i, oracle' i m = oracle i m) →
      (∀ f, (st.monitoringLoop (iterations keys' oracle' mints' n) (Loop.start t)).control ≠ .stopped f) →
      let b' := (st.monitoringLoop (iterations keys' oracle' mints' n) (Loop.start t)).bot
      b.positions m = b'.positions m ∧ b.tradeInfoCache m = b'.tradeInfoCache m := by
  intro b one
  obtain ⟨-, -, hagree⟩ := iterations_agree hkeys halone n hgo
  refine ⟨⟨hagree.positions, hagree.tradeInfoCache⟩, fun keys' oracle' mints' hkeys' hmints horacle hgo' => ?_⟩
  have halone' : ∀ i, st.getActiveMints (alone i).keys = .ok ((mints' i).filter (· = m)) := fun i => by
    rw [halone, hmints]
  obtain ⟨-, -, hagree'⟩ := iterations_agree hkeys' halone' n hgo'
  -- The run with the mint alone is the same for both.
  have hsame : iterations alone oracle' (fun i => (mints' i).filter (· = m)) n =
      iterations alone oracle (fun i => (mints i).filter (· = m)) n := by
    simp only [hmints]
    refine iterations_congr (fun i mint hmint => ?_) n
    rw [of_decide_eq_true (List.mem_filter.mp hmint).2, horacle]
  rw [hsame] at hagree'
  have hboth := hagree.trans hagree'.symm
  exact ⟨hboth.positions, hboth.tradeInfoCache⟩

end Loop

/-- A store that lists some mints and holds nothing. -/
def sampleEmptyStore : ReadReplies where
  connect := .ok ()
  lrange _ _ _ := .ok []
  keys _ := .ok []
  now := 0

/-- The replies for a mint of the sample: those for the sample itself, and for another mint those of an empty store. -/
def sampleOracle (mint : String) : Replies :=
  if mint = sampleText then sampleReplies [] 1000000000
  else { sampleReplies [] 1000000000 with price := sampleEmptyStore, change := sampleEmptyStore }

/-- The sample's mints: in every iteration another one and the sample itself. -/
def sampleMints (_ : ℕ) : List String := ["mint", sampleText]

/-- The replies that list them. -/
def sampleKeys (_ : ℕ) : Replies := sampleReplies ["mint", sampleText] 1000000000

/-- The replies that list the sample alone. -/
def sampleAlone (_ : ℕ) : Replies := sampleReplies [sampleText] 1000000000

/-- The sample is bought in its first iteration, next to another mint as well as alone. -/
theorem monitoringLoop_isolated_sample :
    let b := (sampleSetting.monitoringLoop (iterations sampleKeys (fun _ => sampleOracle) sampleMints 1)
      (Loop.start (sampleTrader false))).bot
    let one := (sampleSetting.monitoringLoop (iterations sampleAlone (fun _ => sampleOracle)
      (fun i => (sampleMints i).filter (· = sampleText)) 1) (Loop.start (sampleTrader false))).bot
    (b.positions sampleText).isSome = true ∧ b.positions sampleText = one.positions sampleText ∧
      b.tradeInfoCache sampleText = one.tradeInfoCache sampleText := by
  dsimp only
  have hkeys : ∀ i, sampleSetting.getActiveMints (sampleKeys i).keys = .ok (sampleMints i) := by
    simp only [sampleKeys, sampleMints]
    exact fun _ => by decide +kernel
  have halone : ∀ i, sampleSetting.getActiveMints (sampleAlone i).keys =
      .ok ((sampleMints i).filter (· = sampleText)) := by
    simp only [sampleAlone, sampleMints]
    exact fun _ => by decide +kernel
  obtain ⟨hheld, htop⟩ : ((sampleSetting.monitoringLoop (iterations sampleKeys (fun _ => sampleOracle) sampleMints 1)
        (Loop.start (sampleTrader false))).bot.positions sampleText).isSome = true ∧
      (sampleSetting.monitoringLoop (iterations sampleKeys (fun _ => sampleOracle) sampleMints 1)
        (Loop.start (sampleTrader false))).control = .top := by
    decide +kernel
  have hgo : ∀ f, (sampleSetting.monitoringLoop (iterations sampleKeys (fun _ => sampleOracle) sampleMints 1)
      (Loop.start (sampleTrader false))).control ≠ .stopped f := by
    intro f hf
    rw [htop] at hf
    cases hf
  exact ⟨hheld, (monitoringLoop_isolated hkeys halone 1 hgo).1⟩

end PumpSwapBot.Rust
