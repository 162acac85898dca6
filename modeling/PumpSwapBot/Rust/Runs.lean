import PumpSwapBot.Library.Ledger
import PumpSwapBot.Library.Prefixes
import PumpSwapBot.Rust.Orders
import PumpSwapBot.Rust.Strategy

/-!
# Runs of the monitoring loop

What holds of the bot along every run of the loop, for any answers in any order.

## What is proved

* `Settled` — the trader's invocations for a mint that returned `Ok` are the ledger of its position. It
  holds in every state of every run (`monitoringLoop_settled`), and it is what the other results
  rest on.
* `monitoringLoop_alternates` — the invocations for a mint alternate between buy and sell, and every
  sell gets the data of the buy before it.
* `monitoringLoop_positions_iff` — positions are what the SDK has filled exactly as long as no buy is
  skipped for want of funds and none is filled for another mint than the strategy's.
* `monitoringLoop_evaluates` — which held mints have their sell condition checked in an iteration.
-/

namespace PumpSwapBot.Rust

open PumpSwapBot.Sdk PumpSwapBot.Library PumpSwapBot.Library.Ledger

/-! ### The ledger of a mint -/

namespace Trace

/-- What an invocation of the trader for a mint does to its position. -/
def move (mint : String) : Trace → Option (Move TradeInfo)
  | .sellCheck _ => none
  | .buy mint' info _ => if mint' = mint then some (.opened info) else none
  | .sell mint' info _ => if mint' = mint then some (.closed info) else none

/-- What an invocation of the trader returned. -/
def outcome : Trace → Option (Result Unit)
  | .sellCheck _ => none
  | .buy _ _ report => some report.outcome
  | .sell _ _ report => some report.outcome

/-- No invocation, or one that returned `Ok`. -/
def returnedOk (t : Trace) : Bool :=
  match t.outcome with
  | some (.error _) => false
  | _ => true

/-- An SDK buy whose order is for a mint, and which returned `Ok` with `success = true`. -/
def bought (mint : String) : Trace → Bool
  | .buy _ _ report => report.succeeded && report.call.any fun call => call.1.mint.toText = mint
  | _ => false

/-- An SDK sell whose order is for a mint, and which returned `Ok` with `success = true`. -/
def sold (mint : String) : Trace → Bool
  | .sell _ _ report => report.succeeded && report.call.any fun call => call.1.mint.toText = mint
  | _ => false

end Trace

/-- The trader's invocations for a mint, newest first. -/
def moves (mint : String) (trace : List Trace) : List (Move TradeInfo) := trace.filterMap (Trace.move mint)

/-- Those that returned `Ok`. -/
def settledMoves (mint : String) (trace : List Trace) : List (Move TradeInfo) :=
  moves mint (trace.filter Trace.returnedOk)

/-- The position of a mint is what the invocations that returned `Ok` come to. -/
def Settled (b : Bot) : Prop :=
  ∀ mint, Books (settledMoves mint b.trace) ((b.positions mint).map TokenPosition.tradeInfo)

section Ledger

variable {mint mint' : String} {trace : List Trace}

@[simp] theorem settledMoves_sellCheck :
    settledMoves mint (.sellCheck mint' :: trace) = settledMoves mint trace := rfl

theorem settledMoves_of_error {t : Trace} {f : Failure} (h : t.outcome = some (.error f)) :
    settledMoves mint (t :: trace) = settledMoves mint trace := by
  simp [settledMoves, Trace.returnedOk, h]

theorem settledMoves_of_ok {t : Trace} (h : t.outcome = some (.ok ())) :
    settledMoves mint (t :: trace) = (t.move mint).toList ++ settledMoves mint trace := by
  have hok : t.returnedOk = true := by simp [Trace.returnedOk, h]
  rw [settledMoves, List.filter_cons_of_pos hok]
  rcases hm : t.move mint with _ | m <;> simp [moves, hm, settledMoves]

end Ledger

/-- An invocation for a mint that returned `Ok` goes into the ledger of the mint with its new position. -/
theorem Settled.books_cons {b : Bot} {mint : String} {t : Trace} {move : Move TradeInfo} {position : Option TokenPosition}
    (hb : Settled b) (hok : t.outcome = some (.ok ())) (hmove : ∀ m, t.move m = if mint = m then some move else none)
    (hbooks : Books (move :: settledMoves mint b.trace) (position.map TokenPosition.tradeInfo)) (m : String) :
    Books (settledMoves m (t :: b.trace)) ((Function.update b.positions mint position m).map TokenPosition.tradeInfo) := by
  rw [settledMoves_of_ok hok, hmove]
  by_cases hm : mint = m
  · subst hm
    rw [if_pos rfl, Function.update_self]
    exact hbooks
  · rw [if_neg hm, Function.update_of_ne (Ne.symm hm)]
    exact hb m

/-- A visit keeps the ledgers: a position opens and closes with an invocation that returned `Ok`. -/
theorem Visit.settled {st : Setting} {r : Replies} {mint : String} {b b' : Bot} {result : Result Unit}
    (h : Visit st r mint b result b') (hb : Settled b) : Settled b' := by
  intro m
  cases h with
  | passed _ _ _ => exact hb m
  | bought info cache hfree _ _ hok =>
    have hbooks := hb mint
    rw [hfree] at hbooks
    have hout : (Trace.buy mint info (b.trader.buy r.answers info st.config.buyAmountLamports).1).outcome =
        some (.ok ()) := congrArg some hok
    refine hb.books_cons hout (fun _ => rfl) ?_ m
    exact .opened info hbooks
  | buyFailed info cache f _ _ _ hfail =>
    have herror : (Trace.buy mint info (b.trader.buy r.answers info st.config.buyAmountLamports).1).outcome =
        some (.error f) := congrArg some hfail
    dsimp only
    rw [settledMoves_of_error herror]
    exact hb m
  | kept _ _ _ _ => exact hb m
  | sold position hheld _ hok =>
    have hbooks := hb mint
    rw [hheld] at hbooks
    have hout : (Trace.sell mint position.tradeInfo
        (b.trader.sell st.env r.answers position.tradeInfo)).outcome = some (.ok ()) := congrArg some hok
    have hchecked : Settled { b with trace := .sellCheck mint :: b.trace } := hb
    refine hchecked.books_cons hout (fun _ => rfl) ?_ m
    exact .closed hbooks
  | sellFailed position f _ _ hfail =>
    have herror : (Trace.sell mint position.tradeInfo
        (b.trader.sell st.env r.answers position.tradeInfo)).outcome = some (.error f) := congrArg some hfail
    dsimp only
    rw [settledMoves_of_error herror, settledMoves_sellCheck]
    exact hb m

/-! ### Alternation -/

/-- What the trader's invocations returned, newest first. -/
def outcomes (trace : List Trace) : List (Result Unit) := trace.filterMap Trace.outcome

/-- Every invocation returned `Ok`. -/
def AllOk (b : Bot) : Prop := ∀ o ∈ outcomes b.trace, o = .ok ()

/-- Every invocation but the newest returned `Ok`, and the ledgers are those of slots all the same. -/
structure Ended (b : Bot) : Prop where
  books : ∀ mint, ∃ held, Books (moves mint b.trace) held
  ok : ∀ o ∈ (outcomes b.trace).tail, o = .ok ()

theorem AllOk.settledMoves_eq {b : Bot} (h : AllOk b) (mint : String) :
    settledMoves mint b.trace = moves mint b.trace := by
  have hfilter : b.trace.filter Trace.returnedOk = b.trace := by
    refine List.filter_eq_self.mpr fun t ht => ?_
    simp only [Trace.returnedOk]
    rcases ho : t.outcome with _ | o
    · rfl
    · rw [h o (List.mem_filterMap.mpr ⟨t, ht, ho⟩)]
  rw [settledMoves, hfilter]

theorem AllOk.books {b : Bot} (h : AllOk b) (hb : Settled b) (mint : String) :
    Books (moves mint b.trace) ((b.positions mint).map TokenPosition.tradeInfo) := by
  rw [← h.settledMoves_eq mint]
  exact hb mint

theorem AllOk.ended {b : Bot} (h : AllOk b) (hb : Settled b) : Ended b where
  books mint := ⟨_, h.books hb mint⟩
  ok o ho := h o (List.mem_of_mem_tail ho)

/-- A visit after which the loop goes on leaves `Ok`s, and any other at most one failure at the end. -/
theorem Visit.allOk_or_ended {st : Setting} {r : Replies} {mint : String} {b b' : Bot} {result : Result Unit}
    (h : Visit st r mint b result b') (hok : AllOk b) (hb : Settled b) :
    AllOk b' ∨ Ended b' ∧ ∃ f, result = .error f := by
  cases h with
  | passed _ _ _ => exact Or.inl hok
  | kept _ _ _ _ => exact Or.inl hok
  | bought info cache _ _ _ hout => exact Or.inl (List.forall_mem_cons.mpr ⟨hout, hok⟩)
  | sold position _ _ hout => exact Or.inl (List.forall_mem_cons.mpr ⟨hout, hok⟩)
  | buyFailed info cache f hfree _ _ _ =>
    refine Or.inr ⟨⟨fun m => ?_, hok⟩, f, rfl⟩
    have hbooks := hok.books hb m
    by_cases hm : mint = m
    · subst hm
      rw [hfree] at hbooks
      exact ⟨_, by simpa [moves, Trace.move] using hbooks.opened info⟩
    · exact ⟨_, by simpa [moves, Trace.move, hm] using hbooks⟩
  | sellFailed position f hheld _ _ =>
    refine Or.inr ⟨⟨fun m => ?_, hok⟩, f, rfl⟩
    have hbooks := hok.books hb m
    by_cases hm : mint = m
    · subst hm
      rw [hheld] at hbooks
      exact ⟨_, by simpa [moves, Trace.move, List.filterMap_cons] using hbooks.closed⟩
    · exact ⟨_, by simpa [moves, Trace.move, List.filterMap_cons, hm] using hbooks⟩

/-! ### Runs -/

/-- A step leaves the bot as it is, or visits a mint. -/
theorem step_cases (st : Setting) (r : Replies) (s : Loop) :
    ((st.step r s).bot = s.bot ∧ ∀ mint mints, s.control ≠ .visiting (mint :: mints)) ∨
      ∃ mint mints result, s.control = .visiting (mint :: mints) ∧
        Visit st r mint s.bot result (st.step r s).bot ∧
        (st.step r s).control = Setting.next (result.map fun _ => .visiting mints) := by
  obtain ⟨b, _ | (_ | ⟨mint, mints⟩) | f⟩ := s
  · exact Or.inl ⟨rfl, fun _ _ h => by cases h⟩
  · exact Or.inl ⟨rfl, fun _ _ h => by cases h⟩
  · exact Or.inr ⟨mint, mints, _, rfl, visit_cases st r mint b, rfl⟩
  · exact Or.inl ⟨rfl, fun _ _ h => by cases h⟩

/-- What every visit keeps, every run keeps. -/
theorem monitoringLoop_keeps {st : Setting} {P : Bot → Prop}
    (hvisit : ∀ r mint b result b', Visit st r mint b result b' → P b → P b') (replies : List Replies) {s : Loop}
    (hs : P s.bot) : P (st.monitoringLoop replies s).bot := by
  induction replies generalizing s with
  | nil => exact hs
  | cons r replies ih =>
    refine ih ?_
    rcases step_cases st r s with ⟨hbot, -⟩ | ⟨mint, mints, result, -, hv, -⟩
    · rw [hbot]
      exact hs
    · exact hvisit r mint _ result _ hv hs

/-- The loop of a bot that has just been started. -/
def Loop.start (t : Trader) : Loop := ⟨Bot.new t, .top⟩

theorem settled_new (t : Trader) : Settled (Bot.new t) := fun _ => .empty

/-- **Positions are ledgers**, in every state of every run. -/
theorem monitoringLoop_settled (st : Setting) (t : Trader) (replies : List Replies) :
    Settled (st.monitoringLoop replies (Loop.start t)).bot :=
  monitoringLoop_keeps (fun _ _ _ _ _ hv hb => hv.settled hb) replies (settled_new t)

/-- As long as the loop goes on, every invocation returned `Ok`. -/
def InOrder (s : Loop) : Prop := AllOk s.bot ∨ Ended s.bot ∧ ∃ f, s.control = .stopped f

theorem step_inOrder {st : Setting} {r : Replies} {s : Loop} (hs : InOrder s) (hb : Settled s.bot) :
    InOrder (st.step r s) := by
  rcases hs with hok | ⟨hend, f, hstop⟩
  · rcases step_cases st r s with ⟨hbot, -⟩ | ⟨mint, mints, result, -, hv, hcontrol⟩
    · exact Or.inl (by rwa [AllOk, hbot])
    · rcases hv.allOk_or_ended hok hb with h | ⟨h, f, rfl⟩
      · exact Or.inl h
      · exact Or.inr ⟨h, f, hcontrol⟩
  · have hstay : st.step r s = s := by rw [Setting.step, hstop]
    rw [hstay]
    exact Or.inr ⟨hend, f, hstop⟩

theorem monitoringLoop_inOrder (st : Setting) (replies : List Replies) {s : Loop} (hs : InOrder s)
    (hb : Settled s.bot) : InOrder (st.monitoringLoop replies s) := by
  induction replies generalizing s with
  | nil => exact hs
  | cons r replies ih =>
    exact ih (step_inOrder hs hb) (monitoringLoop_keeps (fun _ _ _ _ _ hv hb => hv.settled hb) [r] hb)

/-- **Buys and sells of a mint alternate.** In every run, the trader's invocations for a mint are, from the
oldest, rounds of a buy and a sell with the same data, and last perhaps a buy; and every
invocation of the run but the newest returned `Ok`. -/
theorem monitoringLoop_alternates (st : Setting) (t : Trader) (replies : List Replies) (mint : String) :
    let trace := (st.monitoringLoop replies (Loop.start t)).bot.trace
    (∃ infos, ∃ held : Option TradeInfo,
        (moves mint trace).reverse = rounds infos ++ held.toList.map Move.opened) ∧
      ∀ o ∈ (outcomes trace).tail, o = .ok () := by
  intro trace
  have hb := monitoringLoop_settled st t replies
  have hend : Ended (st.monitoringLoop replies (Loop.start t)).bot := by
    have hstart : InOrder (Loop.start t) := Or.inl (by simp [AllOk, outcomes, Loop.start, Bot.new])
    rcases monitoringLoop_inOrder st replies hstart (settled_new t) with h | ⟨h, -⟩
    · exact h.ended hb
    · exact h
  obtain ⟨held, hbooks⟩ := hend.books mint
  obtain ⟨infos, hinfos⟩ := hbooks.reverse_eq
  exact ⟨⟨infos, held, hinfos⟩, hend.ok⟩

/-! ### Positions and fills -/

/-- A mint is held exactly when the SDK filled more buys of it than sells. -/
def PositionsMatch (b : Bot) : Prop :=
  ∀ mint, (b.positions mint).isSome = true ↔ b.trace.countP (Trace.sold mint) < b.trace.countP (Trace.bought mint)

/-- An invocation that counts in the ledger of each mint exactly when the SDK filled an order for it. -/
def Trace.Exact (t : Trace) : Prop :=
  ∀ mint, ((((t.move mint).map Move.isOpened).getD false && t.returnedOk) = true ↔ t.bought mint = true) ∧
    ((((t.move mint).map Move.isClosed).getD false && t.returnedOk) = true ↔ t.sold mint = true)

theorem Trace.returnedOk_iff {t : Trace} {o : Result Unit} (h : t.outcome = some o) :
    t.returnedOk = true ↔ o = .ok () := by
  rw [Trace.returnedOk, h]
  rcases o with _ | _ <;> simp

theorem Trace.exact_sellCheck (mint : String) : (Trace.sellCheck mint).Exact := by
  simp [Trace.Exact, Trace.move, Trace.bought, Trace.sold]

/-- A buy that returned `Ok` exactly when the SDK filled it, and then for the strategy's mint. -/
theorem Trace.exact_buy {mint : String} {info : TradeInfo} {report : Trader.Report TradeBuyParams}
    (hok : report.outcome = .ok () ↔ report.succeeded = true)
    (hmint : report.succeeded = true → ∃ params result, report.call = some (params, result) ∧ params.mint.toText = mint) :
    (Trace.buy mint info report).Exact := by
  have hfill : (Trace.buy mint info report).returnedOk = report.succeeded :=
    Bool.eq_iff_iff.mpr ((Trace.returnedOk_iff rfl).trans hok)
  intro mint'
  rw [hfill]
  rcases hs : report.succeeded with _ | _
  · simp [Trace.bought, Trace.sold, hs]
  · obtain ⟨params, result, hcall, rfl⟩ := hmint hs
    by_cases hm : params.mint.toText = mint' <;> simp [Trace.move, Trace.bought, Trace.sold, hs, hcall, hm]

/-- A sell that returned `Ok` exactly when the SDK filled it, and then for the strategy's mint. -/
theorem Trace.exact_sell {mint : String} {info : TradeInfo} {report : Trader.Report TradeSellParams}
    (hok : report.outcome = .ok () ↔ report.succeeded = true)
    (hmint : report.succeeded = true → ∃ params result, report.call = some (params, result) ∧ params.mint.toText = mint) :
    (Trace.sell mint info report).Exact := by
  have hfill : (Trace.sell mint info report).returnedOk = report.succeeded :=
    Bool.eq_iff_iff.mpr ((Trace.returnedOk_iff rfl).trans hok)
  intro mint'
  rw [hfill]
  rcases hs : report.succeeded with _ | _
  · simp [Trace.bought, Trace.sold, hs]
  · obtain ⟨params, result, hcall, rfl⟩ := hmint hs
    by_cases hm : params.mint.toText = mint' <;> simp [Trace.move, Trace.bought, Trace.sold, hs, hcall, hm]

/-- Where every invocation is exact, the fills are the moves of the ledger. -/
theorem countP_settledMoves {trace : List Trace} (h : ∀ t ∈ trace, t.Exact) (mint : String) :
    (settledMoves mint trace).countP Move.isOpened = trace.countP (Trace.bought mint) ∧
      (settledMoves mint trace).countP Move.isClosed = trace.countP (Trace.sold mint) := by
  simp only [settledMoves, moves]
  simp only [List.countP_filterMap, List.countP_filter]
  exact ⟨List.countP_congr fun t ht => (h t ht mint).1, List.countP_congr fun t ht => (h t ht mint).2⟩

theorem positionsMatch_of_exact {b : Bot} (hb : Settled b) (h : ∀ t ∈ b.trace, t.Exact) : PositionsMatch b := by
  intro mint
  obtain ⟨hopened, hclosed⟩ := countP_settledMoves h mint
  rw [← hopened, ← hclosed, ← (hb mint).isSome_iff, Option.isSome_map]

/-- The trader's buy with some trade data is a buy of a mint: the wallet holds enough for it, and if the
SDK, once it is called, answers that it is filled, the order was for the mint. -/
structure BuysOf (st : Setting) (a : Answers) (t : Trader) (mint : String) (info : TradeInfo) : Prop where
  funded : Trader.Funded a st.config.buyAmountLamports
  mint_eq : ∀ balance hash rest, a.walletBalance = .ok balance → a.blockhash = .ok hash →
    a.buy (t.buyParams info st.config.buyAmountLamports hash) = .ok (true, rest) → info.baseMint.toText = mint

/-- If a step reaches the trader's buy, it is one of the mint. -/
def StepBuysMint (st : Setting) (r : Replies) (s : Loop) : Prop :=
  ∀ mint mints info b', s.control = .visiting (mint :: mints) → s.bot.positions mint = none → st.BuySignal r mint →
    (st.getOrFetchTradeInfo r.answers mint).run s.bot = (.ok info, b') →
    BuysOf st r.answers s.bot.trader mint info

/-- Every invocation is exact, and what is held is sold as what it was bought. -/
structure Sound (b : Bot) : Prop where
  exact : ∀ t ∈ b.trace, t.Exact
  mint_eq : ∀ mint position, b.positions mint = some position → position.tradeInfo.baseMint.toText = mint

theorem sound_new (t : Trader) : Sound (Bot.new t) where
  exact t ht := by cases ht
  mint_eq mint position h := by cases h

/-- A buy of the mint is exact. -/
theorem BuysOf.exact {st : Setting} {a : Answers} {t : Trader} {mint : String} {info : TradeInfo}
    (h : BuysOf st a t mint info) : (Trace.buy mint info (t.buy a info st.config.buyAmountLamports).1).Exact := by
  refine Trace.exact_buy (Trader.buy_outcome_of_funded h.funded) fun hs => ?_
  obtain ⟨balance, hash, rest, hb, hh, hcall, hfill⟩ := Trader.buy_succeeded hs
  exact ⟨_, _, hcall, h.mint_eq balance hash rest hb hh hfill⟩

theorem BuysOf.mint_of_ok {st : Setting} {a : Answers} {t : Trader} {mint : String} {info : TradeInfo}
    (h : BuysOf st a t mint info) (hok : (t.buy a info st.config.buyAmountLamports).1.outcome = .ok ()) :
    info.baseMint.toText = mint := by
  obtain ⟨balance, hash, rest, hb, hh, -, hfill⟩ :=
    Trader.buy_succeeded ((Trader.buy_outcome_of_funded h.funded).mp hok)
  exact h.mint_eq balance hash rest hb hh hfill

/-- A sell of what was bought as the mint is exact. -/
theorem exact_sell_of_mint {e : Env} {a : Answers} {t : Trader} {mint : String} {info : TradeInfo}
    (h : info.baseMint.toText = mint) : (Trace.sell mint info (t.sell e a info)).Exact := by
  refine Trace.exact_sell Trader.sell_outcome_eq_ok fun hs => ?_
  rcases hcall : (t.sell e a info).call with _ | ⟨params, result⟩
  · simp [Trader.Report.succeeded, hcall] at hs
  · obtain ⟨hash, rfl⟩ := Trader.sell_call_eq hcall
    exact ⟨_, _, rfl, h⟩

theorem step_sound {st : Setting} {r : Replies} {s : Loop} (hs : Sound s.bot) (hf : StepBuysMint st r s) :
    Sound (st.step r s).bot := by
  rcases step_cases st r s with ⟨hbot, -⟩ | ⟨mint, mints, result, hc, hv, -⟩
  · rwa [hbot]
  generalize (st.step r s).bot = b' at hv ⊢
  have hchecked : ∀ t ∈ Trace.sellCheck mint :: s.bot.trace, t.Exact :=
    List.forall_mem_cons.mpr ⟨Trace.exact_sellCheck mint, hs.exact⟩
  cases hv with
  | passed _ _ _ => exact hs
  | bought info cache hfree hsignal hinfo hok =>
    have hbuy := hf mint mints info _ hc hfree hsignal hinfo
    refine ⟨List.forall_mem_cons.mpr ⟨hbuy.exact, hs.exact⟩, fun m position hm => ?_⟩
    dsimp only at hm
    by_cases hmint : m = mint
    · subst hmint
      rw [Function.update_self] at hm
      cases hm
      exact hbuy.mint_of_ok hok
    · rw [Function.update_of_ne hmint] at hm
      exact hs.mint_eq m position hm
  | buyFailed info cache f hfree hsignal hinfo _ =>
    have hbuy := hf mint mints info _ hc hfree hsignal hinfo
    exact ⟨List.forall_mem_cons.mpr ⟨hbuy.exact, hs.exact⟩, hs.mint_eq⟩
  | kept _ _ _ _ => exact ⟨hchecked, hs.mint_eq⟩
  | sold position hheld _ _ =>
    have hsell := exact_sell_of_mint (e := st.env) (a := r.answers) (t := s.bot.trader) (hs.mint_eq mint position hheld)
    refine ⟨List.forall_mem_cons.mpr ⟨hsell, hchecked⟩, fun m position' hm => ?_⟩
    dsimp only at hm
    by_cases hmint : m = mint
    · subst hmint
      rw [Function.update_self] at hm
      cases hm
    · rw [Function.update_of_ne hmint] at hm
      exact hs.mint_eq m position' hm
  | sellFailed position f hheld _ _ =>
    exact ⟨List.forall_mem_cons.mpr ⟨exact_sell_of_mint (hs.mint_eq mint position hheld), hchecked⟩, hs.mint_eq⟩

/-- A mint that a step buys without an order for it that was filled is held without having been bought. -/
theorem not_positionsMatch_of_bought {b : Bot} {mint : String} {t : Trace} {position : TokenPosition}
    {trader : Trader} {cache : String → Option TradeInfo} (hb : PositionsMatch b) (hfree : b.positions mint = none)
    (hbought : t.bought mint = false) :
    ¬ PositionsMatch ⟨trader, Function.update b.positions mint (some position), cache, t :: b.trace⟩ := by
  intro h
  have hbefore := hb mint
  have hafter := h mint
  simp only [hfree, Option.isSome_none, Bool.false_eq_true, false_iff, Function.update_self, Option.isSome_some,
    true_iff, List.countP_cons, hbought, if_false] at hbefore hafter
  omega

/-- A buy that is skipped, or filled for another mint, leaves a position that was never bought. -/
theorem stepBuysMint_of_positionsMatch {st : Setting} {r : Replies} {s : Loop} (hb : Settled s.bot)
    (hs : Sound s.bot) (h : PositionsMatch (st.step r s).bot) : StepBuysMint st r s := by
  intro mint mints info b' hc hfree hsignal hinfo
  have hbefore := positionsMatch_of_exact hb hs.exact
  rcases step_cases st r s with ⟨-, hno⟩ | ⟨mint', mints', result, hc', hv, -⟩
  · exact absurd hc (hno mint mints)
  cases hc.symm.trans hc'
  generalize (st.step r s).bot = after at hv h
  cases hv with
  | passed _ _ hno => exact absurd ⟨hfree, hsignal, info, b', hinfo⟩ hno
  | bought info' cache _ _ hinfo' hok =>
    cases hinfo.symm.trans hinfo'
    refine ⟨fun balance hbal => ?_, fun balance hash rest hbal hh hfill => ?_⟩
    · by_contra hlt
      have hskip := Trader.buy_skipped s.bot.trader info hbal (UInt64.not_le.mp hlt)
      exact not_positionsMatch_of_bought hbefore hfree (by simp [hskip, Trace.bought, Trader.Report.succeeded]) h
    · by_contra hne
      refine not_positionsMatch_of_bought hbefore hfree ?_ h
      rw [Trace.bought]
      rcases hcall : (s.bot.trader.buy r.answers info st.config.buyAmountLamports).1.call with _ | ⟨params, result⟩
      · simp
      · obtain ⟨hash', rfl⟩ := Trader.buy_call_eq hcall
        simpa [Trader.buyParams] using fun _ => hne
  | buyFailed info' cache f _ _ hinfo' hfail =>
    cases hinfo.symm.trans hinfo'
    refine ⟨fun balance hbal => ?_, fun balance hash rest hbal hh hfill => ?_⟩
    · by_contra hlt
      rw [Trader.buy_skipped s.bot.trader info hbal (UInt64.not_le.mp hlt)] at hfail
      cases hfail
    · by_cases hle : Trader.requiredBalance st.config.buyAmountLamports ≤ balance
      · have hcall := Trader.buy_call s.bot.trader info hbal hle hh
        have hok := (Trader.buy_outcome_eq_ok (u := ())).mpr (Or.inl (by rw [Trader.Report.succeeded, hcall, hfill]))
        rw [hfail] at hok
        cases hok
      · rw [Trader.buy_skipped s.bot.trader info hbal (UInt64.not_le.mp hle)] at hfail
        cases hfail
  | kept _ _ hheld _ => exact absurd (hfree.symm.trans hheld) (by simp)
  | sold _ hheld _ _ => exact absurd (hfree.symm.trans hheld) (by simp)
  | sellFailed _ _ hheld _ _ => exact absurd (hfree.symm.trans hheld) (by simp)

theorem monitoringLoop_concat (st : Setting) (replies : List Replies) (r : Replies) (s : Loop) :
    st.monitoringLoop (replies ++ [r]) s = st.step r (st.monitoringLoop replies s) := by
  simp [Setting.monitoringLoop]

/-- **Positions are what the SDK has filled exactly as long as every buy is one of its mint.** A mint is
held exactly when more orders to buy it than to sell it were filled, in every state of a run, if and only
if in each step that reached the trader's buy the wallet held enough for it, and the SDK did not fill
it with trade data of another base mint. -/
theorem monitoringLoop_positions_iff (st : Setting) (t : Trader) (replies : List Replies) :
    (∀ before, before <+: replies → PositionsMatch (st.monitoringLoop before (Loop.start t)).bot) ↔
      ∀ before r, before ++ [r] <+: replies → StepBuysMint st r (st.monitoringLoop before (Loop.start t)) := by
  refine Prefixes.property_iff_steps
    (I := fun before => Sound (st.monitoringLoop before (Loop.start t)).bot)
    (sound_new t) (fun before r _ hsound hbuys => ?_)
    (fun before _ hsound => positionsMatch_of_exact (monitoringLoop_settled st t before) hsound.exact)
    fun before r _ hsound hmatch => ?_
  · rw [monitoringLoop_concat]
    exact step_sound hsound hbuys
  · rw [monitoringLoop_concat] at hmatch
    exact stepBuysMint_of_positionsMatch (monitoringLoop_settled st t before) hsound hmatch

/-- The text of the sample's mint. -/
def sampleText : String := "2b1kV6DkPAnxd5ixfnxCpjxmKwqjjaYmCZfHsFu24GXo"

/-- Two stored records of the sample's mint, the newer one at a price a fifth higher. -/
def sampleTexts : List (String × TokenTradeRecord) :=
  [("\x7b\"mint\":\"2b1kV6DkPAnxd5ixfnxCpjxmKwqjjaYmCZfHsFu24GXo\",\"token_amount\":200000000000,\"sol_amount\":120000000000,\"price\":0.0006,\"blocktime_us\":1700000001000000,\"is_buy\":true,\"signature\":\"b\"\x7d",
    .fromTransaction sampleText 200000000000 120000000000 true "b" 1700000001000000),
   ("\x7b\"mint\":\"2b1kV6DkPAnxd5ixfnxCpjxmKwqjjaYmCZfHsFu24GXo\",\"token_amount\":200000000000,\"sol_amount\":100000000000,\"price\":0.0005,\"blocktime_us\":1700000000000000,\"is_buy\":true,\"signature\":\"a\"\x7d",
    .fromTransaction sampleText 200000000000 100000000000 true "a" 1700000000000000)]

/-- `serde_json` on these texts. -/
def sampleSerde : SerdeJson where
  toText _ := ""
  parse text := (sampleTexts.lookup text).map TokenTradeRecord.toJson
  error _ := anyhow "expected value at line 1 column 1"

/-- A store that lists some mints and holds the two records, and beside them a text that is no record. -/
def sampleStore (mints : List String) : ReadReplies where
  connect := .ok ()
  lrange key _ stop :=
    if key = tradesKey sampleText then .ok ((sampleTexts.map Prod.fst).take (stop + 1).toNat)
    else .ok ["not a record"]
  keys _ := .ok (mints.map tradesKey)
  now := 0

/-- The replies of that store, of a node that knows the sample's pool, and of a wallet. -/
def sampleReplies (mints : List String) (walletBalance : UInt64) : Replies where
  keys := sampleStore mints
  price := sampleStore mints
  change := sampleStore mints
  answers := { sampleAnswers with
    rpc := fun _ => sampleCanonicalNode
    walletBalance := .ok walletBalance }

/-- The sample's setting. -/
def sampleSetting : Setting := ⟨sampleEnv, sampleSerde, sampleConfig false, true⟩

/-- A mint that is held without having been bought does not match. -/
theorem not_positionsMatch {b : Bot} {mint : String} (hheld : (b.positions mint).isSome = true)
    (hbought : b.trace.countP (Trace.bought mint) = 0) : ¬ PositionsMatch b := by
  intro hmatch
  have hlt := (hmatch mint).mp hheld
  omega

/-- With an empty wallet the sample is held after one visit, and the SDK was never called. -/
theorem monitoringLoop_phantom :
    let replies := sampleReplies [sampleText] 0
    let b := (sampleSetting.monitoringLoop [replies, replies] (Loop.start (sampleTrader false))).bot
    (b.positions sampleText).isSome = true ∧ b.trace.countP (Trace.bought sampleText) = 0 ∧
      b.trace.countP (Trace.sold sampleText) = 0 ∧ ¬ PositionsMatch b := by
  have hrun : let replies := sampleReplies [sampleText] 0
      let b := (sampleSetting.monitoringLoop [replies, replies] (Loop.start (sampleTrader false))).bot
      (b.positions sampleText).isSome = true ∧ b.trace.countP (Trace.bought sampleText) = 0 ∧
        b.trace.countP (Trace.sold sampleText) = 0 := by
    decide +kernel
  exact ⟨hrun.1, hrun.2.1, hrun.2.2, not_positionsMatch hrun.1 hrun.2.1⟩

/-! ### One iteration -/

/-- The sell condition of a mint was checked between two points of the trace. -/
def Evaluated (mint : String) (before after : List Trace) : Prop :=
  ∃ events, after = events ++ before ∧ .sellCheck mint ∈ events

theorem Evaluated.extend {mint : String} {before after : List Trace} (h : Evaluated mint before after)
    (events : List Trace) : Evaluated mint before (events ++ after) := by
  obtain ⟨events', rfl, hmem⟩ := h
  exact ⟨events ++ events', (List.append_assoc _ _ _).symm, List.mem_append_right _ hmem⟩

section Visit

variable {st : Setting} {r : Replies} {mint : String} {b b' : Bot} {result : Result Unit}

theorem Visit.trace_extends (h : Visit st r mint b result b') : ∃ events, b'.trace = events ++ b.trace := by
  cases h with
  | passed _ _ _ => exact ⟨[], rfl⟩
  | bought _ _ _ _ _ _ => exact ⟨[_], rfl⟩
  | buyFailed _ _ _ _ _ _ _ => exact ⟨[_], rfl⟩
  | kept _ _ _ _ => exact ⟨[_], rfl⟩
  | sold _ _ _ _ => exact ⟨[_, _], rfl⟩
  | sellFailed _ _ _ _ _ => exact ⟨[_, _], rfl⟩

/-- A visit changes the position of no other mint. -/
theorem Visit.positions_of_ne {m : String} (h : Visit st r mint b result b') (hm : m ≠ mint) :
    b'.positions m = b.positions m := by
  cases h with
  | passed _ _ _ => rfl
  | bought _ _ _ _ _ _ => exact Function.update_of_ne hm _ _
  | buyFailed _ _ _ _ _ _ _ => rfl
  | kept _ _ _ _ => rfl
  | sold _ _ _ _ => exact Function.update_of_ne hm _ _
  | sellFailed _ _ _ _ _ => rfl

/-- A visit to a held mint checks its sell condition. -/
theorem Visit.evaluated (h : Visit st r mint b result b') (hheld : (b.positions mint).isSome = true) :
    Evaluated mint b.trace b'.trace := by
  cases h with
  | passed _ hfree _ => simp [hfree] at hheld
  | bought _ _ hfree _ _ _ => simp [hfree] at hheld
  | buyFailed _ _ _ hfree _ _ _ => simp [hfree] at hheld
  | kept _ _ _ _ => exact ⟨[_], rfl, List.mem_cons_self⟩
  | sold _ _ _ _ => exact ⟨[_, _], rfl, List.mem_cons_of_mem _ List.mem_cons_self⟩
  | sellFailed _ _ _ _ _ => exact ⟨[_, _], rfl, List.mem_cons_of_mem _ List.mem_cons_self⟩

end Visit

/-- After `n` visits of an iteration that began with `b`: the mints that were held have been checked, or
they are still to come and still held. -/
structure Visited (mints : List String) (b : Bot) (n : ℕ) (b' : Bot) : Prop where
  extends_ : ∃ events, b'.trace = events ++ b.trace
  checked : ∀ m, (b.positions m).isSome = true →
    Evaluated m b.trace b'.trace ∨ m ∉ mints.take n ∧ b'.positions m = b.positions m

/-- A visit checks the mint it is for, and leaves the others. -/
theorem Visited.next {st : Setting} {r : Replies} {mints : List String} {mint : String} {b b₁ b₂ : Bot} {n : ℕ}
    {result : Result Unit} (h : Visited mints b n b₁) (hn : mints[n]? = some mint)
    (hv : Visit st r mint b₁ result b₂) : Visited mints b (n + 1) b₂ := by
  obtain ⟨events, hevents⟩ := h.extends_
  obtain ⟨new, hnew⟩ := hv.trace_extends
  refine ⟨⟨new ++ events, by rw [hnew, hevents, List.append_assoc]⟩, fun m hm => ?_⟩
  rcases h.checked m hm with hdone | ⟨hlater, hsame⟩
  · exact Or.inl (hnew ▸ hdone.extend new)
  by_cases hmint : m = mint
  · subst hmint
    obtain ⟨new', hnew', hmem⟩ := hv.evaluated (by rw [hsame]; exact hm)
    exact Or.inl ⟨new' ++ events, by rw [hnew', hevents, List.append_assoc], List.mem_append_left _ hmem⟩
  · refine Or.inr ⟨?_, (hv.positions_of_ne hmint).trans hsame⟩
    rw [List.take_add_one, hn, Option.toList_some, List.mem_append, List.mem_singleton, not_or]
    exact ⟨hlater, hmint⟩

theorem Visited.start (mints : List String) (b : Bot) : Visited mints b 0 b where
  extends_ := ⟨[], rfl⟩
  checked m _ := Or.inr ⟨by simp, rfl⟩

/-- A step from the next mint of an iteration. -/
theorem Visited.step (st : Setting) {mints : List String} {b : Bot} {n : ℕ} {s : Loop} (h : Visited mints b n s.bot)
    (hc : s.control = .visiting (mints.drop n)) (hn : n < mints.length) (r : Replies) :
    Visited mints b (n + 1) (st.step r s).bot ∧
      ((∃ f, (st.step r s).control = .stopped f) ∨ (st.step r s).control = .visiting (mints.drop (n + 1))) := by
  rw [List.drop_eq_getElem_cons hn] at hc
  rcases step_cases st r s with ⟨-, hno⟩ | ⟨mint, rest, result, hc', hv, hcontrol⟩
  · exact absurd hc (hno _ _)
  · rw [hc] at hc'
    cases hc'
    refine ⟨h.next (List.getElem?_eq_getElem hn) hv, ?_⟩
    rcases result with f | u
    · exact Or.inl ⟨f, hcontrol⟩
    · exact Or.inr hcontrol

/-- As long as the visits return `Ok`, the loop goes through the mints in order. -/
theorem monitoringLoop_visits {st : Setting} {b : Bot} {mints : List String} {visits : List Replies}
    (hlen : visits.length ≤ mints.length)
    (hgo : ∀ f, (st.monitoringLoop visits ⟨b, .visiting mints⟩).control ≠ .stopped f) :
    Visited mints b visits.length (st.monitoringLoop visits ⟨b, .visiting mints⟩).bot ∧
      (st.monitoringLoop visits ⟨b, .visiting mints⟩).control = .visiting (mints.drop visits.length) := by
  induction visits using List.reverseRecOn with
  | nil => exact ⟨.start mints b, rfl⟩
  | append_singleton visits r ih =>
    rw [List.length_append, List.length_singleton] at hlen ⊢
    rw [monitoringLoop_concat] at hgo ⊢
    have hbefore : ∀ f, (st.monitoringLoop visits ⟨b, .visiting mints⟩).control ≠ .stopped f := by
      intro f hf
      -- A loop that has ended stays so.
      refine hgo f ?_
      rw [Setting.step, hf]
      exact hf
    obtain ⟨hvisited, hcontrol⟩ := ih (by omega) hbefore
    obtain ⟨hnext, ⟨f, hf⟩ | hc⟩ := hvisited.step st hcontrol (by omega) r
    · exact absurd hf (hgo f)
    · exact ⟨hnext, hc⟩

/-- The mints of a reply whose `KEYS` failed are none. -/
theorem getActiveMints_of_keys_error {st : Setting} {k : ReadReplies} {e : Error} (hc : k.connect = .ok ())
    (hk : k.keys "trades:*" = .error e) : st.getActiveMints k = .ok [] := by
  simp only [Setting.getActiveMints, getActiveMints]
  rw [hc, hk]
  split_ifs <;> rfl

/-- **Which held mints are checked in an iteration.** The loop goes through the mints of the `KEYS` reply in
order. As long as the visits return `Ok`, every mint visited that was held when the iteration began
has had its sell condition checked, and so has the one visited next, whatever its visit comes to; after
the last mint the loop goes on to the next iteration. A `KEYS` that fails counts as an empty reply. -/
theorem monitoringLoop_evaluates {st : Setting} {b : Bot} {k : Replies} {mints : List String}
    {visits : List Replies} (hk : st.getActiveMints k.keys = .ok mints) (hlen : visits.length ≤ mints.length)
    (hgo : ∀ f, (st.monitoringLoop (k :: visits) ⟨b, .top⟩).control ≠ .stopped f) :
    let s := st.monitoringLoop (k :: visits) ⟨b, .top⟩
    (∀ m ∈ mints.take visits.length, (b.positions m).isSome = true → Evaluated m b.trace s.bot.trace) ∧
      (∀ r m, mints[visits.length]? = some m → (b.positions m).isSome = true →
        Evaluated m b.trace (st.step r s).bot.trace) ∧
      (visits.length = mints.length → ∀ r, (st.step r s).control = .top) ∧
      ∀ k' e, k'.keys.connect = .ok () → k'.keys.keys "trades:*" = .error e →
        (st.step k' ⟨b, .top⟩) = ⟨b, .visiting []⟩ := by
  have hs : st.monitoringLoop (k :: visits) ⟨b, .top⟩ = st.monitoringLoop visits ⟨b, .visiting mints⟩ := by
    simp only [Setting.monitoringLoop, List.foldl_cons, Setting.step, hk, Except.map, Setting.next]
  rw [hs] at hgo ⊢
  obtain ⟨hvisited, hcontrol⟩ := monitoringLoop_visits hlen hgo
  refine ⟨fun m hm hheld => ?_, fun r m hm hheld => ?_, fun hend r => ?_, fun k' e hc hkeys => ?_⟩
  · rcases hvisited.checked m hheld with h | ⟨h, -⟩
    · exact h
    · exact absurd hm h
  · obtain ⟨hn, hget⟩ := List.getElem?_eq_some_iff.mp hm
    have hnext := (hvisited.step st hcontrol hn r).1
    rcases hnext.checked m hheld with h | ⟨h, -⟩
    · exact h
    · refine absurd ?_ h
      rw [List.take_add_one, hm]
      exact List.mem_append_right _ (List.mem_singleton.mpr rfl)
  · rw [hend, List.drop_length] at hcontrol
    rw [Setting.step, hcontrol]
  · rw [Setting.step, getActiveMints_of_keys_error hc hkeys]
    rfl

/-- A bot that holds the sample. -/
def sampleHolder : Bot where
  trader := sampleTrader false
  positions := Function.update (fun _ => none) sampleText (some (sampleSetting.opened sampleText sampleInfo))
  tradeInfoCache := fun _ => none
  trace := []

/-- The sample, held and listed alone, is checked, and the loop goes on. -/
theorem monitoringLoop_evaluates_sample :
    let replies := sampleReplies [sampleText] 1000000000
    Evaluated sampleText []
        (sampleSetting.monitoringLoop [replies, replies] ⟨sampleHolder, .top⟩).bot.trace ∧
      (sampleSetting.monitoringLoop [replies, replies, replies] ⟨sampleHolder, .top⟩).control = .top := by
  intro replies
  have hk : sampleSetting.getActiveMints replies.keys = .ok [sampleText] := by decide +kernel
  have hcontrol : (sampleSetting.monitoringLoop [replies, replies] ⟨sampleHolder, .top⟩).control = .visiting [] := by
    decide +kernel
  have hheld : (sampleHolder.positions sampleText).isSome = true := by decide +kernel
  have hgo : ∀ f, (sampleSetting.monitoringLoop (replies :: [replies]) ⟨sampleHolder, .top⟩).control ≠ .stopped f := by
    intro f hf
    rw [hcontrol] at hf
    cases hf
  obtain ⟨hchecked, -, htop, -⟩ := monitoringLoop_evaluates hk (by simp) hgo
  have hthree := monitoringLoop_concat sampleSetting [replies, replies] replies ⟨sampleHolder, .top⟩
  rw [List.cons_append, List.singleton_append] at hthree
  rw [hthree]
  exact ⟨hchecked _ (List.mem_singleton.mpr rfl) hheld, htop (by simp) replies⟩

/-- The sample is held and not checked: once because `KEYS` fails, and once because another mint listed
before it has a text that is no record, which ends the loop. -/
theorem monitoringLoop_not_evaluated :
    let listed := sampleReplies ["mint", sampleText] 1000000000
    let unlisted := { listed with keys := { listed.keys with keys := fun _ => .error (anyhow "timed out") } }
    (sampleHolder.positions sampleText).isSome = true ∧
      (sampleSetting.monitoringLoop [unlisted, unlisted] ⟨sampleHolder, .top⟩).control = .top ∧
      ¬ Evaluated sampleText []
        (sampleSetting.monitoringLoop [unlisted, unlisted] ⟨sampleHolder, .top⟩).bot.trace ∧
      (sampleSetting.monitoringLoop [listed, listed, listed] ⟨sampleHolder, .top⟩).control =
        .stopped (.err ⟨"Failed to deserialize trade record", ["expected value at line 1 column 1"]⟩) ∧
      ¬ Evaluated sampleText []
        (sampleSetting.monitoringLoop [listed, listed, listed] ⟨sampleHolder, .top⟩).bot.trace := by
  intro listed unlisted
  have hnot : ∀ trace : List Trace, trace.isEmpty = true → ¬ Evaluated sampleText [] trace := by
    rintro trace hempty ⟨events, rfl, hmem⟩
    rw [List.append_nil, List.isEmpty_iff] at hempty
    rw [hempty] at hmem
    cases hmem
  refine ⟨?_, ?_, hnot _ ?_, ?_, hnot _ ?_⟩ <;> decide +kernel

end PumpSwapBot.Rust
