import PumpSwapBot.Node.Runs

/-!
# What the Node bot holds

A mint that is held is in two places: in the positions of the process, with the trade data it was bought with, and in
those of the recorder, which outlive the process. The guards of the loop ask both.

## What is proved

* `Visit.agrees`, `Visit.alone` — what one visit keeps of the two, and `run_agrees` what any run keeps.
* `holdings_agree` — every position of the process is one of the recorder, at the same price and amount; a mint that
  only the recorder holds was restored; and no mint that is held in either place is bought.
* `closedTrade_matches_iff` — a trade is recorded at the price that called for the sell exactly if that is the price of
  the buy.
-/

namespace PumpSwapBot.Node

open PumpSwapBot.Library

/-! ### What a call of the recorder leaves -/

namespace TradeRecorder

/-- The price and the amount a mint was recorded to be bought at. -/
def booked (s : TradeRecorder) (mint : String) : Option (ℚ × ℚ) :=
  (s.getActivePosition mint).map fun position => (position.buyPrice, position.buySolAmount)

variable {mint m : String}

theorem isHolding_eq_isSome_booked (s : TradeRecorder) (mint : String) : s.isHolding mint = (s.booked mint).isSome := by
  rw [isHolding_eq, booked, Option.isSome_map]
  rfl

theorem booked_eq_some {s : TradeRecorder} {price amount : ℚ} (h : s.booked mint = some (price, amount)) :
    ∃ active, s.getActivePosition mint = some active ∧ active.buyPrice = price ∧ active.buySolAmount = amount := by
  obtain ⟨active, hactive, hbooked⟩ := Option.map_eq_some_iff.mp h
  obtain ⟨rfl, rfl⟩ := Prod.mk.inj hbooked
  exact ⟨active, hactive, rfl, rfl⟩

theorem booked_recordBuy_self (s : TradeRecorder) (a : Ambient) (mint : String) (price amount : ℚ) (sig : String) :
    ((recordBuy a mint price amount sig).run s).2.booked mint = some (price, amount) := by
  rw [booked, getActivePosition, (recordBuy_savedAs s a mint price amount sig).positions, OrderedMap.get?_set_self]
  rfl

theorem booked_recordBuy_of_ne (hm : mint ≠ m) (s : TradeRecorder) (a : Ambient) (price amount : ℚ) (sig : String) :
    ((recordBuy a m price amount sig).run s).2.booked mint = s.booked mint := by
  rw [booked, getActivePosition, (recordBuy_savedAs s a m price amount sig).positions, OrderedMap.get?_set_of_ne hm]
  rfl

/-- A price that is noted does not change what was recorded of the buy. -/
theorem booked_updatePrice (s : TradeRecorder) (a : Ambient) (m : String) (x : ℚ) (mint : String) :
    ((updatePrice a m x).run s).2.booked mint = s.booked mint := by
  rcases h : s.activePositions.get? m with _ | position
  · rw [updatePrice_run_of_none h]
  · rw [booked, getActivePosition, (updatePrice_savedAs h a x).positions]
    by_cases hm : mint = m
    · subst hm
      rw [OrderedMap.get?_set_self, booked, getActivePosition, h, seen_eq]
      rfl
    · rw [OrderedMap.get?_set_of_ne hm]
      rfl

theorem booked_recordSell_self (s : TradeRecorder) (a : Ambient) (mint : String) (price amount : ℚ) (sig : String) :
    ((recordSell a mint price amount sig).run s).2.booked mint = none := by
  rcases h : s.activePositions.get? mint with _ | position
  · rw [recordSell_run_of_none h, booked, getActivePosition, h]
    rfl
  · rw [booked, getActivePosition, (recordSell_savedAs h a price amount sig).positions, OrderedMap.get?_delete_self]
    rfl

theorem booked_recordSell_of_ne (hm : mint ≠ m) (s : TradeRecorder) (a : Ambient) (price amount : ℚ) (sig : String) :
    ((recordSell a m price amount sig).run s).2.booked mint = s.booked mint := by
  rcases h : s.activePositions.get? m with _ | position
  · rw [recordSell_run_of_none h]
  · rw [booked, getActivePosition, (recordSell_savedAs h a price amount sig).positions,
      OrderedMap.get?_delete_of_ne hm]
    rfl

end TradeRecorder

/-! ### Both places -/

/-- Every position of the process was recorded as it is. -/
def Agrees (b : Bot) : Prop :=
  ∀ mint position, b.positions mint = some position →
    b.tradeRecorder.booked mint = some (position.buyPrice, (position.buySolAmount : ℚ))

/-- The mint is held by the recorder alone. -/
def Alone (mint : String) (b : Bot) : Prop := b.positions mint = none ∧ b.tradeRecorder.isHolding mint = true

section Visits

variable {st : Setting} {r : Replies} {mint m : String} {b b' : Bot} {result : Except Halt Unit}

theorem Agrees.noted (h : Agrees b) (r : Replies) (m : String) (price : ℚ) (c : Check) (trace : List Trace) :
    Agrees { b.begun c with tradeRecorder := b.noted r m price, trace := trace } := by
  intro mint position hposition
  exact (TradeRecorder.booked_updatePrice _ _ _ _ _).trans (h mint position hposition)

theorem Visit.agrees (h : Visit st r m b result b') (hb : Agrees b) : Agrees b' := by
  cases h with
  | passed _ _ _ => exact hb
  | notBought _ _ _ _ => exact hb
  | bought info bought _ _ _ =>
    intro mint position hposition
    dsimp only at hposition
    by_cases hm : mint = m
    · subst hm
      rw [Function.update_self] at hposition
      cases hposition
      exact TradeRecorder.booked_recordBuy_self _ _ _ _ _ _
    · rw [Function.update_of_ne hm] at hposition
      exact (TradeRecorder.booked_recordBuy_of_ne hm _ _ _ _ _).trans (hb mint position hposition)
  | kept _ recorder _ hrecorder _ =>
    obtain rfl | ⟨price, rfl⟩ := hrecorder
    · exact hb
    · exact hb.noted r m price _ b.trace
  | unsold price _ _ _ => exact hb.noted r m price _ _
  | notSold price _ _ _ _ _ _ => exact hb.noted r m price _ _
  | sold price _ _ _ _ _ _ _ _ _ =>
    intro mint position hposition
    dsimp only at hposition
    by_cases hm : mint = m
    · subst hm
      rw [Function.update_self] at hposition
      cases hposition
    · rw [Function.update_of_ne hm] at hposition
      exact (TradeRecorder.booked_recordSell_of_ne hm _ _ _ _ _).trans
        (hb.noted r m price (.sell m) b.trace mint position hposition)

/-- What only the recorder holds after a visit, only the recorder held before it. -/
theorem Visit.alone (h : Visit st r m b result b') (hb : Alone mint b') : Alone mint b := by
  by_cases hm : mint = m
  swap
  · have hsame := h.same hm
    exact ⟨hsame.position.symm.trans hb.1, hsame.active.symm.trans hb.2⟩
  subst hm
  have hnoted : ∀ price, (b.noted r mint price).isHolding mint = b.tradeRecorder.isHolding mint :=
    fun price => TradeRecorder.isHolding_updatePrice _ _ _ _ _
  cases h with
  | passed _ _ _ => exact hb
  | notBought _ _ _ _ => exact hb
  | bought _ _ _ _ _ =>
    have hposition := hb.1
    dsimp only at hposition
    rw [Function.update_self] at hposition
    cases hposition
  | kept _ recorder _ hrecorder _ =>
    obtain rfl | ⟨price, rfl⟩ := hrecorder
    · exact hb
    · exact ⟨hb.1, (hnoted price).symm.trans hb.2⟩
  | unsold price _ _ _ => exact ⟨hb.1, (hnoted price).symm.trans hb.2⟩
  | notSold price _ _ _ _ _ _ => exact ⟨hb.1, (hnoted price).symm.trans hb.2⟩
  | sold price info sold amount _ _ _ _ _ _ =>
    have hheld := hb.2
    dsimp only at hheld
    rw [TradeRecorder.isHolding_eq_isSome_booked, TradeRecorder.booked_recordSell_self] at hheld
    cases hheld

end Visits

/-! ### Runs -/

/-- The loop after some turns, begun on any directory. -/
def Setting.runFrom (st : Setting) (files : RecordFiles) (turns : List Turn) : Loop :=
  turns.foldl st.turn (st.start files [])

section Runs

variable {st : Setting} {files : RecordFiles} {mint : String}

theorem runFrom_snoc (st : Setting) (files : RecordFiles) (turns : List Turn) (t : Turn) :
    st.runFrom files (turns ++ [t]) = st.turn (st.runFrom files turns) t := by
  simp [Setting.runFrom]

theorem runFrom_steps (st : Setting) (files : RecordFiles) (turns : List Turn) (replies : List Replies) :
    st.runFrom files (turns ++ replies.map .step) = st.monitoringLoop replies (st.runFrom files turns) := by
  simp only [Setting.runFrom, Setting.monitoringLoop, List.foldl_append, List.foldl_map]
  rfl

/-- What holds of a bot that has just been started, and is kept by every visit, holds in every state of every run. -/
theorem runFrom_invariant {P : Bot → Prop} (hstart : ∀ files trace, P (st.start files trace).bot)
    (hvisit : ∀ {r m b result b'}, Visit st r m b result b' → P b → P b') (files : RecordFiles) (turns : List Turn) :
    P (st.runFrom files turns).bot := by
  induction turns using List.reverseRecOn with
  | nil => exact hstart _ _
  | append_singleton turns t ih =>
    rw [runFrom_snoc]
    cases t with
    | step r =>
      show P (st.step r (st.runFrom files turns)).bot
      obtain ⟨heq, -⟩ | ⟨m, result, -, hstep⟩ := step_cases st r (st.runFrom files turns)
      · rw [heq]
        exact ih
      · exact hvisit hstep ih
    | restart => exact hstart _ _

/-- In every state of every run the two places agree. -/
theorem run_agrees (st : Setting) (files : RecordFiles) (turns : List Turn) : Agrees (st.runFrom files turns).bot := by
  apply runFrom_invariant
  · intro files trace mint position hposition
    cases hposition
  · exact fun hvisit => hvisit.agrees

theorem step_alone {r : Replies} {s : Loop} (h : Alone mint (st.step r s).bot) : Alone mint s.bot := by
  obtain ⟨heq, -⟩ | ⟨m, result, -, hvisit⟩ := step_cases st r s
  · rwa [heq] at h
  · exact hvisit.alone h

/-- What only the recorder holds, only the recorder held when the process was started. -/
theorem monitoringLoop_alone {replies : List Replies} {s : Loop} (h : Alone mint (st.monitoringLoop replies s).bot) :
    Alone mint s.bot := by
  induction replies generalizing s with
  | nil => exact h
  | cons r replies ih => exact step_alone (ih h)

/-- The beginning of a process: the first one, or one after a restart. -/
def Begins (turns : List Turn) : Prop := turns = [] ∨ ∃ earlier, turns = earlier ++ [.restart]

/-- Every run is some process after others. -/
theorem exists_process (turns : List Turn) :
    ∃ before, ∃ replies : List Replies, turns = before ++ replies.map .step ∧ Begins before := by
  induction turns using List.reverseRecOn with
  | nil => exact ⟨[], [], rfl, Or.inl rfl⟩
  | append_singleton turns t ih =>
    cases t with
    | step r =>
      obtain ⟨before, replies, rfl, hbegins⟩ := ih
      exact ⟨before, replies ++ [r], by simp, hbegins⟩
    | restart => exact ⟨turns ++ [.restart], [], by simp, Or.inr ⟨turns, rfl⟩⟩

/-- A process begins without positions of its own and without trade data. -/
theorem Begins.stuck {turns : List Turn} (h : Begins turns) (hheld : Alone mint (st.runFrom files turns).bot) :
    Stuck mint (st.runFrom files turns).bot := by
  obtain rfl | ⟨earlier, rfl⟩ := h
  · exact ⟨hheld.2, rfl, rfl⟩
  · rw [runFrom_snoc] at hheld ⊢
    exact ⟨hheld.2, rfl, rfl⟩

/-! What the trace says of sells. -/

/-- Only the mint that is visited is sold, and only with trade data. -/
theorem Visit.trace {r : Replies} {m : String} {b b' : Bot} {result : Except Halt Unit}
    (h : Visit st r m b result b') :
    ∃ events, b'.trace = events ++ b.trace ∧
      ∀ mint info, Trace.executeSell mint info ∈ events → mint = m ∧ b.sellInfo m = some info := by
  have hnone : ∃ events, b.trace = events ++ b.trace ∧
      ∀ mint info, Trace.executeSell mint info ∈ events → mint = m ∧ b.sellInfo m = some info :=
    ⟨[], rfl, by simp⟩
  have hbuy : ∀ info, ∃ events, b.buyTrace st r m info = events ++ b.trace ∧
      ∀ mint info', Trace.executeSell mint info' ∈ events → mint = m ∧ b.sellInfo m = some info' :=
    fun info => ⟨_, rfl, by simp⟩
  have hsell : ∀ info, b.sellInfo m = some info → ∃ events, b.sellTrace st r m info = events ++ b.trace ∧
      ∀ mint info', Trace.executeSell mint info' ∈ events → mint = m ∧ b.sellInfo m = some info' := by
    intro info hinfo
    refine ⟨_, List.append_cons _ _ _ |>.trans (List.append_cons _ _ _), ?_⟩
    simp [hinfo]
  cases h with
  | passed _ _ _ => exact hnone
  | notBought info _ _ _ => exact hbuy info
  | bought info _ _ _ _ => exact hbuy info
  | kept _ _ _ _ _ => exact hnone
  | unsold _ _ _ _ => exact ⟨[.sellSignal m], rfl, by simp⟩
  | notSold _ info _ _ _ hinfo _ => exact hsell info hinfo
  | sold _ info _ _ _ _ _ hinfo _ _ => exact hsell info hinfo

/-- Of a mint that is stuck no sell is tried. -/
theorem monitoringLoop_stuck_trace (replies : List Replies) {s : Loop} (h : Stuck mint s.bot) :
    ∃ events, (st.monitoringLoop replies s).bot.trace = events ++ s.bot.trace ∧
      ∀ info, Trace.executeSell mint info ∉ events := by
  induction replies generalizing s with
  | nil => exact ⟨[], rfl, by simp⟩
  | cons r replies ih =>
    obtain ⟨events, htrace, hno⟩ := ih (step_stuck h)
    have hstep : ∃ events, (st.step r s).bot.trace = events ++ s.bot.trace ∧
        ∀ info, Trace.executeSell mint info ∉ events := by
      obtain ⟨heq, -⟩ | ⟨m, result, -, hvisit⟩ := step_cases st r s
      · exact ⟨[], by rw [heq]; rfl, by simp⟩
      · obtain ⟨events, htrace, hsells⟩ := hvisit.trace
        refine ⟨events, htrace, fun info hmem => ?_⟩
        obtain ⟨hm, hinfo⟩ := hsells mint info hmem
        exact h.ne_of_sellInfo hinfo hm
    obtain ⟨events', htrace', hno'⟩ := hstep
    refine ⟨events ++ events', ?_, fun info hmem => ?_⟩
    · show (st.monitoringLoop replies (st.step r s)).bot.trace = _
      rw [htrace, htrace', List.append_assoc]
    · obtain hmem | hmem := List.mem_append.mp hmem
      · exact hno info hmem
      · exact hno' info hmem

end Runs

/-! ### Buys -/

/-- The replies, with the balance of the wallet not to be read. -/
def Replies.withoutBalance (r : Replies) (e : String) : Replies :=
  { r with answers := { r.answers with getBalance := .error e } }

/-- A visit calls `trader.buy`, which is the only one to read the balance of the wallet, and reads it first: if that
throws, whatever it is, so does the visit. -/
def Setting.CallsTraderBuy (st : Setting) (r : Replies) (mint : String) (b : Bot) : Prop :=
  ∀ e, ((st.visit (r.withoutBalance e) mint).run b).1 = .error (.thrown e)

section Buys

variable {st : Setting} {r : Replies} {mint : String} {b : Bot}

/-- Without a buy the balance is not read. -/
theorem visit_withoutBalance_of_held (h : b.holds mint = true) (e e' : String) :
    (st.visit (r.withoutBalance e) mint).run b = (st.visit (r.withoutBalance e') mint).run b := by
  have hvisit : ∀ r, (st.visit r mint).run b = (st.checkSellCondition r mint).run b := by
    intro r
    simp only [Setting.visit]
    rw [Proc.bind_run_ok (Proc.get_run b), if_pos h]
  rw [hvisit, hvisit]
  rfl

/-- `trader.buy` is not called for a mint that is held. -/
theorem Setting.CallsTraderBuy.free (h : st.CallsTraderBuy r mint b) : b.holds mint = false := by
  by_contra hheld
  have hsame := h "a"
  rw [visit_withoutBalance_of_held (Bool.eq_true_of_not_eq_false hheld) "a" "b", h "b"] at hsame
  simp at hsame

/-- With a reason to buy, a visit to a mint that is not held is `executeBuy`. -/
theorem visit_run_of_signal (hfree : b.holds mint = false) (hsignal : st.BuySignal r mint) :
    (st.visit r mint).run b = (st.executeBuy r mint).run (b.begun (.buy mint)) := by
  obtain ⟨⟨price, hprice⟩, hchange⟩ := hsignal
  have hfree' : ¬ b.holds mint = true := ne_true_of_eq_false hfree
  simp only [Setting.visit, Setting.checkBuyCondition]
  rw [Proc.bind_run_ok (Proc.get_run b), if_neg hfree', Proc.bind_run_ok (Proc.modify_run _ b),
    Proc.bind_run_ok (Proc.get_run _), b.begun_holds, if_neg hfree', hprice, Proc.bind_run_ok (throwing_run_ok _ _),
    hchange]
  exact Proc.bind_run_ok (throwing_run_ok _ _)

/-- Without one it does not read the balance. -/
theorem visit_withoutBalance_of_not_signal (hfree : b.holds mint = false) (hsignal : ¬ st.BuySignal r mint)
    (e e' : String) :
    (st.visit (r.withoutBalance e) mint).run b = (st.visit (r.withoutBalance e') mint).run b := by
  have hfree' : ¬ b.holds mint = true := ne_true_of_eq_false hfree
  simp only [Setting.visit, Setting.checkBuyCondition]
  simp only [Proc.bind_run_ok (Proc.get_run b), hfree', Replies.withoutBalance]
  rcases hprice : st.getLatestTradePrice r.price mint with msg | _ | price
  · rfl
  · rfl
  rcases hchange : st.checkPriceIncrease r.change mint with msg | _ | _
  · rfl
  · rfl
  · exact absurd ⟨⟨price, hprice⟩, hchange⟩ hsignal

/-- Trade data are fetched without the balance. -/
theorem fetchTradeInfoWithRetry_withoutBalance (t : Trader) (a : Answers) (x : Except String ℕ) (key : Sdk.Pubkey) :
    t.fetchTradeInfoWithRetry { a with getBalance := x } key = t.fetchTradeInfoWithRetry a key := by
  have hfrom : ∀ remaining attempt lastError,
      t.fetchFrom { a with getBalance := x } key remaining attempt lastError =
        t.fetchFrom a key remaining attempt lastError := by
    intro remaining
    induction remaining with
    | zero => exact fun _ _ => rfl
    | succ remaining ih =>
      intro attempt lastError
      have hattempt : Trader.attemptFetch { a with getBalance := x } attempt key = Trader.attemptFetch a attempt key :=
        rfl
      rw [Trader.fetchFrom, Trader.fetchFrom, hattempt]
      rcases Trader.attemptFetch a attempt key with e | tradeInfo
      · exact ih _ _
      · rfl
  exact hfrom _ _ _

/-- `executeBuy` reads it once it has the trade data. -/
theorem executeBuy_withoutBalance (st : Setting) (r : Replies) (hfree : b.holds mint = false) (e : String) :
    ((st.executeBuy (r.withoutBalance e) mint).run b).1 =
      ((st.getOrFetchTradeInfo r.answers mint).run b).1.bind fun _ => .error (.thrown e) := by
  have hfetch : (st.getOrFetchTradeInfo (r.withoutBalance e).answers mint).run b =
      (st.getOrFetchTradeInfo r.answers mint).run b := by
    have hfetch : ∀ t, st.fetchTradeInfo t (r.withoutBalance e).answers mint = st.fetchTradeInfo t r.answers mint := by
      intro t
      simp only [Setting.fetchTradeInfo]
      simp only [Replies.withoutBalance, fetchTradeInfoWithRetry_withoutBalance]
    simp only [Setting.getOrFetchTradeInfo, hfetch]
  simp only [Setting.executeBuy]
  rw [Proc.bind_run_ok (Proc.get_run b), hfree, if_neg Bool.false_ne_true]
  obtain ⟨msg, hinfo⟩ | ⟨info, hinfo⟩ := getOrFetchTradeInfo_run st r.answers mint b
  · rw [Proc.bind_run_error (hfetch.trans hinfo), hinfo]
    rfl
  · rw [Proc.bind_run_ok (hfetch.trans hinfo), hinfo]
    rfl

/-- `trader.buy` is called where the mint is not held, there is a reason to buy, and there are trade data. -/
theorem callsTraderBuy_iff : st.CallsTraderBuy r mint b ↔ ∃ info, st.Buys r mint b info := by
  constructor
  · intro h
    have hfree := h.free
    have hsignal : st.BuySignal r mint := by
      by_contra hno
      have hsame := h "a"
      rw [visit_withoutBalance_of_not_signal hfree hno "a" "b", h "b"] at hsame
      simp at hsame
    have hfetch := getOrFetchTradeInfo_begun st r.answers mint b (.buy mint)
    have hresult : ∀ e, ((st.getOrFetchTradeInfo r.answers mint).run b).1.bind (fun _ => .error (.thrown e)) =
        (.error (.thrown e) : Except Halt Unit) := by
      intro e
      have hbuy := executeBuy_withoutBalance st r (b := b.begun (.buy mint)) hfree e
      rw [hfetch, ← visit_run_of_signal (r := r.withoutBalance e) hfree hsignal, h e] at hbuy
      exact hbuy.symm
    rcases hinfo : ((st.getOrFetchTradeInfo r.answers mint).run b).1 with halt | info
    · rw [hinfo] at hresult
      have hsame := (hresult "a").symm.trans (hresult "b")
      simp at hsame
    · exact ⟨info, hfree, hsignal, hinfo⟩
  · rintro ⟨info, hfree, hsignal, hinfo⟩ e
    rw [visit_run_of_signal (r := r.withoutBalance e) hfree hsignal,
      executeBuy_withoutBalance st r (b := b.begun (.buy mint)) hfree, getOrFetchTradeInfo_begun, hinfo]
    rfl

end Buys

/-- **The two places agree.** In every state of every run, whatever the answers and with restarts anywhere: a position
of the process is one of the recorder, at the same price and amount; a mint that only the recorder holds was restored
when the process was started, and since then it was held and no sell of it was tried; and `trader.buy` is not called for
a mint that is held in either place. -/
theorem holdings_agree (st : Setting) (files : RecordFiles) (turns : List Turn) (mint : String) :
    let b := (st.runFrom files turns).bot
    (∀ position, b.positions mint = some position → ∃ active, b.tradeRecorder.getActivePosition mint = some active ∧
      active.buyPrice = position.buyPrice ∧ active.buySolAmount = position.buySolAmount) ∧
    (b.positions mint = none → b.tradeRecorder.isHolding mint = true →
      ∃ before, ∃ replies : List Replies, turns = before ++ replies.map .step ∧ Begins before ∧
        (∀ k, (st.runFrom files (before ++ (replies.take k).map .step)).bot.tradeRecorder.isHolding mint = true) ∧
        ∃ events, b.trace = events ++ (st.runFrom files before).bot.trace ∧
          ∀ info, Trace.executeSell mint info ∉ events) ∧
    (∀ r, st.CallsTraderBuy r mint b → b.positions mint = none ∧ b.tradeRecorder.getActivePosition mint = none) := by
  intro b
  refine ⟨?_, ?_, ?_⟩
  · intro position hposition
    exact TradeRecorder.booked_eq_some (run_agrees st files turns mint position hposition)
  · intro hposition hactive
    obtain ⟨before, replies, rfl, hbegins⟩ := exists_process turns
    have halone : Alone mint b := ⟨hposition, hactive⟩
    have hloop : b = (st.monitoringLoop replies (st.runFrom files before)).bot := by rw [← runFrom_steps]
    rw [hloop] at halone
    have hstuck := hbegins.stuck (monitoringLoop_alone halone)
    refine ⟨before, replies, rfl, hbegins, ?_, ?_⟩
    · intro k
      rw [runFrom_steps]
      exact (monitoringLoop_stuck (replies.take k) hstuck).active
    · rw [hloop]
      exact monitoringLoop_stuck_trace replies hstuck
  · intro r hcalls
    exact holds_eq_false_iff.mp hcalls.free

/-! ### Closed trades -/

/-- A position was bought at the price of its trade data, unless the buy was skipped. -/
def PricedAtPool (number : Rounding 53) (b : Bot) : Prop :=
  ∀ mint position, b.positions mint = some position →
    position.buyPrice = 0 ∨ position.buyPrice = calculatePriceFromPool number position.tradeInfo

section Prices

variable {st : Setting} {r : Replies} {mint m : String} {b b' : Bot} {result : Except Halt Unit}

/-- A buy is reported at the price of the trade data, or at none. -/
theorem Trader.buy_price {number : Rounding 53} {t : Trader} {a : Answers} {info : TradeInfo} {amount : ℤ}
    {bought : OrderResult} (h : (t.buy number a info amount).1.outcome = .ok bought) :
    bought.price = 0 ∨ bought.price = calculatePriceFromPool number info := by
  unfold Trader.buy at h
  split at h
  · cases h
  split_ifs at h
  · cases h
    exact Or.inl rfl
  · dsimp only at h
    split at h
    · cases h
    · cases h
      exact Or.inr (orderResult_price _ _ _)

/-- A sell is reported at the price of the trade data. -/
theorem Trader.sell_price {number : Rounding 53} {t : Trader} {a : Answers} {info : TradeInfo} {sold : OrderResult}
    (h : (t.sell number a info).outcome = .ok sold) : sold.price = calculatePriceFromPool number info := by
  unfold Trader.sell at h
  dsimp only at h
  split_ifs at h
  split at h
  · cases h
  · cases h
    exact orderResult_price _ _ _

theorem Visit.pricedAtPool (h : Visit st r m b result b') (hb : PricedAtPool st.number b) :
    PricedAtPool st.number b' := by
  cases h with
  | passed _ _ _ => exact hb
  | notBought _ _ _ _ => exact hb
  | bought info bought _ hok _ =>
    intro mint position hposition
    dsimp only at hposition
    by_cases hm : mint = m
    · subst hm
      rw [Function.update_self] at hposition
      cases hposition
      exact Trader.buy_price hok
    · rw [Function.update_of_ne hm] at hposition
      exact hb mint position hposition
  | kept _ _ _ _ _ => exact hb
  | unsold _ _ _ _ => exact hb
  | notSold _ _ _ _ _ _ _ => exact hb
  | sold _ _ _ _ _ _ _ _ _ _ =>
    intro mint position hposition
    dsimp only at hposition
    by_cases hm : mint = m
    · subst hm
      rw [Function.update_self] at hposition
      cases hposition
    · rw [Function.update_of_ne hm] at hposition
      exact hb mint position hposition

/-- Every position of every run has the price of its trade data, or none. -/
theorem run_pricedAtPool (st : Setting) (files : RecordFiles) (turns : List Turn) :
    PricedAtPool st.number (st.runFrom files turns).bot := by
  apply runFrom_invariant
  · intro files trace mint position hposition
    cases hposition
  · exact fun hvisit => hvisit.pricedAtPool

end Prices

/-! What is added to the closed trades. -/

namespace TradeRecorder

theorem getClosedTrades_updatePrice (s : TradeRecorder) (a : Ambient) (mint : String) (x : ℚ) :
    ((updatePrice a mint x).run s).2.getClosedTrades = s.getClosedTrades := by
  rcases h : s.activePositions.get? mint with _ | position
  · rw [updatePrice_run_of_none h]
  · rw [updatePrice_run h]
    rfl

/-- The closed trades are as before, with one more, or cannot be read. -/
theorem getClosedTrades_append (a : Ambient) (record : CompleteTradeRecord) (s : TradeRecorder) :
    ((appendClosedTrade a record).run s).2.getClosedTrades = s.getClosedTrades ++ [record] ∨
      ((appendClosedTrade a record).run s).2.getClosedTrades = s.getClosedTrades ∨
      ((appendClosedTrade a record).run s).2.getClosedTrades = [] := by
  rcases a with ⟨now, today, active, closed, daily⟩
  cases closed with
  | done | stopAfter => exact Or.inl rfl
  | refused _ | stopBefore => exact Or.inr (Or.inl rfl)
  | torn _ | stopTorn => exact Or.inr (Or.inr rfl)

/-- So are they after a sell, the one more being the trade of the open position. -/
theorem getClosedTrades_recordSell {s : TradeRecorder} {mint : String} {position : ActivePosition}
    (h : s.activePositions.get? mint = some position) (a : Ambient) (p q : ℚ) (sig : String) :
    ((recordSell a mint p q sig).run s).2.getClosedTrades = s.getClosedTrades ++ [closing a mint position p q sig] ∨
      ((recordSell a mint p q sig).run s).2.getClosedTrades = s.getClosedTrades ∨
      ((recordSell a mint p q sig).run s).2.getClosedTrades = [] := by
  have hsaved :
      ((saveActivePositions a).run { s with activePositions := s.activePositions.delete mint }).2.getClosedTrades =
        s.getClosedTrades := rfl
  rw [recordSell, Proc.bind_run_ok (Proc.get_run s)]
  simp only [h]
  rw [Proc.bind_run_ok (Proc.modify_run _ s)]
  rcases hsave : (saveActivePositions a).run { s with activePositions := s.activePositions.delete mint } with
    ⟨e | u, s₁⟩
  · rw [hsave] at hsaved
    rw [Proc.bind_run_error hsave]
    exact Or.inr (Or.inl hsaved)
  · rw [hsave] at hsaved
    rw [Proc.bind_run_ok hsave, Proc.bind_run, ← hsaved]
    have hafter := getClosedTrades_append a (closing a mint position p q sig) s₁
    rcases happend : (appendClosedTrade a (closing a mint position p q sig)).run s₁ with ⟨e | v, s₂⟩ <;>
      rw [happend] at hafter <;> exact hafter

/-- A trade that a sell adds is that of the open position. -/
theorem eq_closing_of_recordSell {s : TradeRecorder} {a : Ambient} {mint : String} {p q : ℚ} {sig : String}
    {c : CompleteTradeRecord}
    (h : ((recordSell a mint p q sig).run s).2.getClosedTrades = s.getClosedTrades ++ [c]) :
    ∃ position, s.getActivePosition mint = some position ∧ c = closing a mint position p q sig := by
  rcases hactive : s.activePositions.get? mint with _ | position
  · rw [recordSell_run_of_none hactive] at h
    simp at h
  · refine ⟨position, hactive, ?_⟩
    obtain hone | hsame | hnone := getClosedTrades_recordSell hactive a p q sig
    · rw [h] at hone
      simpa using hone
    · rw [h] at hsame
      simp at hsame
    · rw [h] at hnone
      simp at hnone

end TradeRecorder

/-- A visit that adds a closed trade sells the mint at the price of its trade data. -/
theorem Visit.closedTrade {st : Setting} {r : Replies} {m : String} {b b' : Bot} {result : Except Halt Unit}
    {c : CompleteTradeRecord} (h : Visit st r m b result b')
    (hc : b'.tradeRecorder.getClosedTrades = b.tradeRecorder.getClosedTrades ++ [c]) :
    b.holds m = true ∧ st.SellSignal r m b ∧ ∃ info, b.sellInfo m = some info ∧
      ∃ buyPrice buySolAmount, b.tradeRecorder.booked m = some (buyPrice, buySolAmount) ∧
        c.sellPrice = some (calculatePriceFromPool st.number info) ∧
        c.profitLossPercent =
          if buyPrice > 0 then some ((calculatePriceFromPool st.number info - buyPrice) / buyPrice * 100) else none := by
  have hnoted : ∀ price, (b.noted r m price).getClosedTrades = b.tradeRecorder.getClosedTrades :=
    fun price => TradeRecorder.getClosedTrades_updatePrice _ _ _ _
  have hsame : b.tradeRecorder.getClosedTrades ≠ b.tradeRecorder.getClosedTrades ++ [c] := by simp
  cases h with
  | passed _ _ _ => exact absurd hc hsame
  | notBought _ _ _ _ => exact absurd hc hsame
  | bought _ _ _ _ _ => exact absurd hc hsame
  | kept _ recorder _ hrecorder _ =>
    obtain rfl | ⟨price, rfl⟩ := hrecorder
    · exact absurd hc hsame
    · exact absurd ((hnoted price).symm.trans hc) hsame
  | unsold price _ _ _ => exact absurd ((hnoted price).symm.trans hc) hsame
  | notSold price _ _ _ _ _ _ => exact absurd ((hnoted price).symm.trans hc) hsame
  | sold price info sold amount _ hheld hsignal hinfo hok _ =>
    dsimp only at hc
    rw [← hnoted price] at hc
    obtain ⟨position, hposition, rfl⟩ := TradeRecorder.eq_closing_of_recordSell hc
    refine ⟨hheld, hsignal, info, hinfo, position.buyPrice, position.buySolAmount, ?_, ?_, ?_⟩
    · rw [← TradeRecorder.booked_updatePrice b.tradeRecorder r.noting m price m]
      exact Option.map_eq_some_iff.mpr ⟨position, hposition, rfl⟩
    · rw [TradeRecorder.closing, Trader.sell_price hok]
    · rw [TradeRecorder.closing, Trader.sell_price hok]

/-- In a run, trade data for a mint that is held are those of its position. -/
theorem run_sellInfo {st : Setting} {files : RecordFiles} {turns : List Turn} {mint : String} {info : TradeInfo}
    (hheld : (st.runFrom files turns).bot.holds mint = true)
    (hinfo : (st.runFrom files turns).bot.sellInfo mint = some info) :
    ∃ position, (st.runFrom files turns).bot.positions mint = some position ∧ position.tradeInfo = info := by
  rcases hposition : (st.runFrom files turns).bot.positions mint with _ | position
  · -- held by the recorder alone, the mint has no trade data
    have hactive : (st.runFrom files turns).bot.tradeRecorder.isHolding mint = true := by
      simpa [Bot.holds, Bot.isHolding, hposition] using hheld
    obtain ⟨before, replies, rfl, hbegins⟩ := exists_process turns
    have halone : Alone mint (st.runFrom files (before ++ replies.map .step)).bot := ⟨hposition, hactive⟩
    rw [runFrom_steps] at halone hinfo
    have hstuck : Stuck mint (st.monitoringLoop replies (st.runFrom files before)).bot :=
      monitoringLoop_stuck replies (hbegins.stuck (monitoringLoop_alone halone))
    exact absurd rfl (hstuck.ne_of_sellInfo hinfo)
  · refine ⟨position, rfl, ?_⟩
    rw [Bot.sellInfo, hposition] at hinfo
    simpa using hinfo

/-- A trade that a check adds to the closed ones is recorded at the price of the buy, whatever the price was at which the
check called for the sell. -/
theorem run_closedTrade {st : Setting} {files : RecordFiles} {turns : List Turn} {r : Replies} {mint : String} {p : ℚ}
    {c : CompleteTradeRecord} (hat : (st.runFrom files turns).At mint)
    (hprice : st.getLatestTradePrice r.price mint = .ok (some p))
    (hbuyPrice : 0 < (st.runFrom files turns).bot.buyPrice mint)
    (hc : (st.step r (st.runFrom files turns)).bot.tradeRecorder.getClosedTrades =
      (st.runFrom files turns).bot.tradeRecorder.getClosedTrades ++ [c]) :
    let b := (st.runFrom files turns).bot.buyPrice mint
    c.sellPrice = some b ∧ c.profitLossPercent = some ((b - b) / b * 100) ∧
      shouldSell st.config (profitPct st.number b p) = true := by
  intro b
  obtain ⟨-, hno⟩ | ⟨m, result, ⟨mints, hm⟩, hvisit⟩ := step_cases st r (st.runFrom files turns)
  · exact absurd hat (hno mint)
  obtain ⟨mints', hmint⟩ := hat
  rw [hm] at hmint
  cases hmint
  obtain ⟨hheld, ⟨p', hp', hshould⟩, info, hinfo, buyPrice, amount, hbooked, hsellPrice, hpct⟩ := hvisit.closedTrade hc
  obtain ⟨position, hposition, rfl⟩ := run_sellInfo hheld hinfo
  rw [hprice] at hp'
  cases hp'
  have hb : b = position.buyPrice := by simp only [b, Bot.buyPrice, hposition]
  have hpool : calculatePriceFromPool st.number position.tradeInfo = b := by
    obtain hzero | hpool := run_pricedAtPool st files turns mint position hposition
    · exact absurd (hb.trans hzero) hbuyPrice.ne'
    · rw [hb, hpool]
  have hbook : buyPrice = b := by
    have hsame := run_agrees st files turns mint position hposition
    rw [hbooked] at hsame
    rw [hb]
    exact (Prod.mk.inj (Option.some.inj hsame)).1
  have hpositive : b > 0 := hbuyPrice
  rw [hpool] at hsellPrice hpct
  rw [hbook, if_pos hpositive] at hpct
  exact ⟨hsellPrice, hpct, hshould⟩

/-- **The price that is recorded is that of the buy.** In every state of every run: of a trade that a check adds to the
closed ones, having called for a sell at one price against another, the recorded results are those of the two prices
exactly if they are the same. -/
theorem closedTrade_matches_iff (st : Setting) (files : RecordFiles) (turns : List Turn) (r : Replies) {mint : String}
    {p : ℚ} {c : CompleteTradeRecord} (hat : (st.runFrom files turns).At mint)
    (hprice : st.getLatestTradePrice r.price mint = .ok (some p))
    (hbuyPrice : 0 < (st.runFrom files turns).bot.buyPrice mint)
    (hc : (st.step r (st.runFrom files turns)).bot.tradeRecorder.getClosedTrades =
      (st.runFrom files turns).bot.tradeRecorder.getClosedTrades ++ [c]) :
    let b := (st.runFrom files turns).bot.buyPrice mint
    (c.sellPrice = some p ∧ c.profitLossPercent = some ((p - b) / b * 100) ∧
      ∃ pct, c.profitLossPercent = some pct ∧ (pct ≥ st.config.sellProfitPct ∨ pct ≤ -st.config.sellStopLossPct)) ↔
      p = b := by
  intro b
  obtain ⟨hsellPrice, hpct, hshould⟩ := run_closedTrade hat hprice hbuyPrice hc
  constructor
  · rintro ⟨hsell, -, -⟩
    rw [hsellPrice] at hsell
    exact (Option.some.inj hsell).symm
  · rintro rfl
    refine ⟨hsellPrice, hpct, _, hpct, ?_⟩
    rw [profitPct_self] at hshould
    rw [sub_self, zero_div, zero_mul]
    simp only [shouldSell] at hshould
    split_ifs at hshould with hgain hloss
    · exact Or.inl hgain
    · exact Or.inr hloss

/-- The mint is bought, and the loop has come back to it. -/
def sampleTurns : List Turn := [.step sampleReplies, .step sampleReplies, .step sampleReplies, .step sampleReplies]

/-- The trade that is recorded when it is sold. -/
def sampleClosed : CompleteTradeRecord :=
  TradeRecorder.closing (quietAt 0) sampleText
    { TradeRecorder.bought (quietAt 0) sampleText (1 / 2000) 10000000 "b" with highestPrice := 3 / 5000 } (1 / 2000)
    10000000 "s"

theorem sampleTurns_sold :
    sampleExact.getLatestTradePrice sampleReplies.price sampleText = .ok (some (3 / 5000)) ∧
    (sampleExact.runFrom .empty sampleTurns).control = .visiting [sampleText] ∧
      (sampleExact.runFrom .empty sampleTurns).bot.buyPrice sampleText = 1 / 2000 ∧
      (sampleExact.runFrom .empty sampleTurns).bot.tradeRecorder.getClosedTrades = [] ∧
      (sampleExact.step sampleReplies (sampleExact.runFrom .empty sampleTurns)).bot.tradeRecorder.getClosedTrades =
        [sampleClosed] := by
  decide +kernel

/-- The mint is sold at a price a fifth above that of the buy, and recorded as sold without a gain. -/
theorem closedTrade_matches_sample :
    ¬ (sampleClosed.sellPrice = some (3 / 5000) ∧
      sampleClosed.profitLossPercent = some ((3 / 5000 - 1 / 2000) / (1 / 2000) * 100) ∧
      ∃ pct, sampleClosed.profitLossPercent = some pct ∧
        (pct ≥ sampleExact.config.sellProfitPct ∨ pct ≤ -sampleExact.config.sellStopLossPct)) := by
  obtain ⟨hlatest, hat, hprice, hbefore, hafter⟩ := sampleTurns_sold
  have hiff := closedTrade_matches_iff sampleExact .empty sampleTurns sampleReplies ⟨[], hat⟩ hlatest
    (by rw [hprice]; norm_num) (by rw [hbefore, hafter]; rfl)
  rw [hprice] at hiff
  exact fun h => absurd (hiff.mp h) (by norm_num)

/-- The check called for that sell at a gain of a fifth, and the recorded one would not call for it. -/
theorem closedTrade_at_buyPrice :
    sampleExact.getLatestTradePrice sampleReplies.price sampleText = .ok (some (3 / 5000)) ∧
      (sampleExact.runFrom .empty sampleTurns).bot.buyPrice sampleText = 1 / 2000 ∧
      (sampleExact.step sampleReplies (sampleExact.runFrom .empty sampleTurns)).bot.tradeRecorder.getClosedTrades =
        [sampleClosed] ∧
      sampleClosed.sellPrice = some (1 / 2000) ∧ sampleClosed.profitLossPercent = some 0 ∧
      ¬ ((0 : ℚ) ≥ sampleExact.config.sellProfitPct ∨ (0 : ℚ) ≤ -sampleExact.config.sellStopLossPct) := by
  obtain ⟨hlatest, -, hprice, -, hafter⟩ := sampleTurns_sold
  exact ⟨hlatest, hprice, hafter, by decide +kernel, by decide +kernel, by decide +kernel⟩

end PumpSwapBot.Node
