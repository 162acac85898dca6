import PumpSwapBot.Node.Recorder
import PumpSwapBot.Library.Prefixes
import Mathlib.Data.List.Induction
import Mathlib.Algebra.Order.Group.Multiset
import Mathlib.Order.Bounds.Defs

/-!
# Runs of the trade recorder

What holds of the recorder along every sequence of calls, with restarts and failures of writes at any point.

## What is proved

* `run_restarts` — without failures a restart changes nothing, and the highest and the lowest price of every
  trade are those of the prices that were seen of it.
* `found_eq_recorded_iff` — every trade that was recorded is found once in the files exactly as long as each
  write of a call is done as far as the call relies on it (`Call.Safe`).
-/

namespace PumpSwapBot.Node

open PumpSwapBot.Library

/-! ### Calls and restarts -/

/-- A call of the recorder. -/
inductive Call where
  | recordBuy (mint : String) (buyPrice buySolAmount : ℚ) (signature : String)
  | updatePrice (mint : String) (currentPrice : ℚ)
  | recordSell (mint : String) (sellPrice sellSolAmount : ℚ) (signature : String)

/-- What happens to the recorder: a call, or a restart between two calls. -/
inductive Event where
  | call (a : Ambient) (c : Call)
  | restart

namespace TradeRecorder

/-- Perform a call. -/
def perform (a : Ambient) : Call → Proc TradeRecorder Halt Unit
  | .recordBuy mint buyPrice buySolAmount signature => recordBuy a mint buyPrice buySolAmount signature
  | .updatePrice mint currentPrice => updatePrice a mint currentPrice
  | .recordSell mint sellPrice sellSolAmount signature => do
    let _ ← recordSell a mint sellPrice sellSolAmount signature
    return ()

/-- The recorder after an event. A call that throws leaves what it did; after one with which the process ended,
a new recorder is made on the directory. -/
def step (s : TradeRecorder) : Event → TradeRecorder
  | .restart => new s.files
  | .call a c =>
    match (perform a c).run s with
    | (.error .stopped, s') => new s'.files
    | (_, s') => s'

/-- The recorder after some events, begun on an empty directory. -/
def run (events : List Event) : TradeRecorder := events.foldl step (new .empty)

theorem run_concat (events : List Event) (e : Event) : run (events ++ [e]) = (run events).step e := by
  simp [run]

end TradeRecorder

open TradeRecorder

section Effects

variable {s : TradeRecorder} {a : Ambient} {mint : String}

/-- Every position is at the key of its mint. -/
def Keyed (m : OrderedMap String ActivePosition) : Prop := ∀ e ∈ m.entries, e.2.mint = e.1

theorem Keyed.set {m : OrderedMap String ActivePosition} {p : ActivePosition} (h : Keyed m) (hp : p.mint = mint) :
    Keyed (m.set mint p) := by
  intro e he
  rw [OrderedMap.entries_set] at he
  rcases OrderedMap.mem_setEntries he with rfl | he
  · exact hp
  · exact h e he

theorem Keyed.delete {m : OrderedMap String ActivePosition} (h : Keyed m) : Keyed (m.delete mint) := by
  intro e he
  exact h e (List.mem_of_mem_filter he)

theorem Keyed.mint_eq {m : OrderedMap String ActivePosition} {p : ActivePosition} (h : Keyed m)
    (hp : m.get? mint = some p) : p.mint = mint :=
  h _ (OrderedMap.mem_of_get? hp)

theorem keyed_loadActivePositions (file : File (List ActivePosition)) : Keyed (loadActivePositions file) := by
  have hfold : ∀ (vs : List ActivePosition) (m : OrderedMap String ActivePosition), Keyed m →
      Keyed (vs.foldl (fun m v => m.set v.mint v) m) := by
    intro vs
    induction vs with
    | nil => exact fun m hm => hm
    | cons v vs ih => exact fun m hm => ih _ (hm.set rfl)
  refine hfold _ _ ?_
  intro e he
  cases he

/-- What is read back of the positions that were saved. -/
theorem loadActivePositions_values {m : OrderedMap String ActivePosition} (h : Keyed m) :
    loadActivePositions (.content m.values) = m :=
  OrderedMap.ofValues_values h

/-! The recorder after each call, by what becomes of the writes. -/

/-- The recorder after it wrote the positions it holds. -/
def saved (s : TradeRecorder) (outcome : WriteOutcome) (m : OrderedMap String ActivePosition) : TradeRecorder :=
  let files := { s.files with active := (s.files.active.write outcome m.values).2 }
  match outcome with
  | .stopBefore | .stopTorn | .stopAfter => new files
  | _ => ⟨m, files⟩

theorem step_recordBuy (s : TradeRecorder) (a : Ambient) (mint : String) (p q : ℚ) (sig : String) :
    s.step (.call a (.recordBuy mint p q sig)) =
      saved s a.active (s.activePositions.set mint (bought a mint p q sig)) := by
  rcases a with ⟨now, today, w, closed, daily⟩
  cases w <;> rfl

theorem step_updatePrice {p : ActivePosition} (h : s.activePositions.get? mint = some p) (a : Ambient) (x : ℚ) :
    s.step (.call a (.updatePrice mint x)) = saved s a.active (s.activePositions.set mint (seen p x)) := by
  rw [step, perform, updatePrice_run h]
  rcases a with ⟨now, today, w, closed, daily⟩
  cases w <;> rfl

theorem step_updatePrice_of_none (h : s.activePositions.get? mint = none) (a : Ambient) (x : ℚ) :
    s.step (.call a (.updatePrice mint x)) = s := by
  rw [step, perform, updatePrice_run_of_none h]

theorem step_recordSell_of_none (h : s.activePositions.get? mint = none) (a : Ambient) (p q : ℚ) (sig : String) :
    s.step (.call a (.recordSell mint p q sig)) = s := by
  rw [step, perform, Proc.bind_run_ok (recordSell_run_of_none h a p q sig)]
  rfl

section Sell

variable {p : ActivePosition} (x q : ℚ) (sig : String)

theorem recordSell_run (h : s.activePositions.get? mint = some p) :
    (perform a (.recordSell mint x q sig)).run s =
      (do saveActivePositions a; appendClosedTrade a (closing a mint p x q sig) : Proc TradeRecorder Halt Unit).run
        { s with activePositions := s.activePositions.delete mint } := by
  rw [perform, recordSell, Proc.bind_run, Proc.bind_run_ok (Proc.get_run s)]
  simp only [h]
  rw [Proc.bind_run_ok (Proc.modify_run _ s), Proc.bind_run, Proc.bind_run]
  rcases (saveActivePositions a).run { s with activePositions := s.activePositions.delete mint } with ⟨e | u, s₁⟩
  · rfl
  · dsimp only
    rw [Proc.bind_run]
    rcases (appendClosedTrade a (closing a mint p x q sig)).run s₁ with ⟨e | u, s₂⟩ <;> rfl

/-- A sell whose first write is not done, or ends the process, goes no further. -/
theorem step_recordSell_of_ne_done (h : s.activePositions.get? mint = some p) (ha : a.active ≠ .done) :
    s.step (.call a (.recordSell mint x q sig)) = saved s a.active (s.activePositions.delete mint) := by
  rw [step, recordSell_run x q sig h]
  rcases a with ⟨now, today, w, closed, daily⟩
  cases w with
  | done => exact absurd rfl ha
  | refused _ | torn _ | stopBefore | stopTorn | stopAfter => rfl

/-- The recorder after a sell whose first write is done. The file of the day does not matter. -/
theorem step_recordSell_of_done (h : s.activePositions.get? mint = some p) (ha : a.active = .done)
    (hs : Keyed s.activePositions) :
    ∃ daily, s.step (.call a (.recordSell mint x q sig)) = ⟨s.activePositions.delete mint,
      ⟨.content (s.activePositions.delete mint).values,
        (s.files.closed.write a.closed (s.files.closed.readD [] ++ [closing a mint p x q sig])).2, daily⟩⟩ := by
  have hload : loadActivePositions (.content (s.activePositions.delete mint).values) = s.activePositions.delete mint :=
    loadActivePositions_values hs.delete
  rw [step, recordSell_run x q sig h]
  rcases a with ⟨now, today, w, closed, daily⟩
  cases ha
  cases closed with
  | done =>
    cases daily with
    | done | refused _ | torn _ => exact ⟨_, rfl⟩
    | stopBefore | stopTorn | stopAfter => exact ⟨_, congrArg (fun m => TradeRecorder.mk m ⟨_, _, _⟩) hload⟩
  | refused _ | torn _ => exact ⟨_, rfl⟩
  | stopBefore | stopTorn | stopAfter => exact ⟨_, congrArg (fun m => TradeRecorder.mk m ⟨_, _, _⟩) hload⟩

/-- The recorder after a sell all of whose writes are done. -/
theorem step_recordSell (h : s.activePositions.get? mint = some p) (ha : a.active = .done) (hc : a.closed = .done)
    (hd : a.daily = .done) :
    s.step (.call a (.recordSell mint x q sig)) = ⟨s.activePositions.delete mint,
      ⟨.content (s.activePositions.delete mint).values,
        .content (s.files.closed.readD [] ++ [closing a mint p x q sig]),
        Function.update s.files.daily a.today
          (.content ((s.files.daily a.today).readD [] ++ [closing a mint p x q sig]))⟩⟩ := by
  rw [step, recordSell_run x q sig h]
  rcases a with ⟨now, today, active, closed, daily⟩
  cases ha
  cases hc
  cases hd
  rfl

end Sell

end Effects

/-! ### Restarts and prices -/

/-- A restart, or a call whose writes are all done. -/
def Event.Quiet : Event → Prop
  | .call a _ => a.active = .done ∧ a.closed = .done ∧ a.daily = .done
  | .restart => True

/-- A call. -/
def Event.isCall : Event → Bool
  | .call _ _ => true
  | .restart => false

/-- What a recorder would load is what it holds. -/
structure Saved (s : TradeRecorder) : Prop where
  keyed : Keyed s.activePositions
  load : loadActivePositions s.files.active = s.activePositions

/-- The prices of a mint since it was bought for the last time, after another event. -/
def Event.pricesAfter (mint : String) (prices : List ℚ) : Event → List ℚ
  | .call _ (.recordBuy mint' buyPrice _ _) => if mint' = mint then [buyPrice] else prices
  | .call _ (.updatePrice mint' currentPrice) => if mint' = mint then prices ++ [currentPrice] else prices
  | _ => prices

/-- The prices that were given for a mint since it was bought for the last time, its buy price first. -/
def pricesSince (mint : String) (events : List Event) : List ℚ := events.foldl (Event.pricesAfter mint) []

/-- The prices of a trade: the first is its buy price, and its highest and lowest price are among them. -/
structure Extremes (prices : List ℚ) (buyPrice highest lowest : ℚ) : Prop where
  first : prices.head? = some buyPrice
  greatest : IsGreatest {x | x ∈ prices} highest
  least : IsLeast {x | x ∈ prices} lowest

section Quiet

variable {s : TradeRecorder} {e : Event} {events : List Event}

theorem saved_new (files : RecordFiles) : Saved (new files) := ⟨keyed_loadActivePositions _, rfl⟩

/-- A recorder that is saved is made anew by a restart. -/
theorem Saved.restart (h : Saved s) : s.step .restart = s := by
  rcases s with ⟨m, files⟩
  exact congrArg (TradeRecorder.mk · files) h.load

theorem saved_done {m : OrderedMap String ActivePosition} (hm : Keyed m) : Saved (saved s .done m) :=
  ⟨hm, loadActivePositions_values hm⟩

theorem Saved.step (h : Saved s) (he : e.Quiet) : Saved (s.step e) := by
  cases e with
  | restart => exact h.restart.symm ▸ h
  | call a c =>
    obtain ⟨ha, -, -⟩ := he
    cases c with
    | recordBuy mint x q sig =>
      rw [step_recordBuy, ha]
      exact saved_done (h.keyed.set rfl)
    | updatePrice mint x =>
      rcases hp : s.activePositions.get? mint with _ | p
      · rw [step_updatePrice_of_none hp]
        exact h
      · rw [step_updatePrice hp, ha]
        exact saved_done (h.keyed.set (by rw [seen_mint, h.keyed.mint_eq hp]))
    | recordSell mint x q sig =>
      rcases hp : s.activePositions.get? mint with _ | p
      · rw [step_recordSell_of_none hp]
        exact h
      · obtain ⟨daily, hstep⟩ := step_recordSell_of_done x q sig hp ha h.keyed
        rw [hstep]
        exact ⟨h.keyed.delete, loadActivePositions_values h.keyed.delete⟩

theorem run_saved (h : ∀ e ∈ events, e.Quiet) : Saved (run events) := by
  induction events using List.reverseRecOn with
  | nil => exact saved_new _
  | append_singleton events e ih =>
    rw [run_concat]
    exact (ih fun e he => h e (List.mem_append_left _ he)).step (h e (by simp))

theorem run_filter_isCall (h : ∀ e ∈ events, e.Quiet) : run events = run (events.filter Event.isCall) := by
  induction events using List.reverseRecOn with
  | nil => rfl
  | append_singleton events e ih =>
    have hbefore : ∀ e ∈ events, e.Quiet := fun e he => h e (List.mem_append_left _ he)
    rw [List.filter_append, run_concat]
    cases e with
    | restart =>
      rw [(run_saved hbefore).restart, ih hbefore]
      simp [Event.isCall]
    | call a c =>
      rw [ih hbefore, ← run_concat]
      rfl

/-! The prices of the trades. -/

theorem pricesSince_concat (mint : String) (events : List Event) (e : Event) :
    pricesSince mint (events ++ [e]) = e.pricesAfter mint (pricesSince mint events) := by
  simp [pricesSince]

theorem extremes_bought (x : ℚ) : Extremes [x] x x x := by
  refine ⟨rfl, ?_, ?_⟩ <;> simp [IsGreatest, IsLeast, upperBounds, lowerBounds]

theorem Extremes.seen {prices : List ℚ} {p : ActivePosition}
    (h : Extremes prices p.buyPrice p.highestPrice p.lowestPrice) (x : ℚ) :
    Extremes (prices ++ [x]) (seen p x).buyPrice (seen p x).highestPrice (seen p x).lowestPrice := by
  rw [seen_eq]
  refine ⟨?_, ?_, ?_⟩
  · rw [List.head?_append, h.first]
    rfl
  · refine ⟨?_, fun y hy => ?_⟩
    · rcases max_choice p.highestPrice x with hmax | hmax
      · exact List.mem_append_left _ (by simpa [hmax] using h.greatest.1)
      · exact List.mem_append_right _ (by simp [hmax])
    · rcases List.mem_append.mp hy with hy | hy
      · exact le_max_of_le_left (h.greatest.2 hy)
      · exact le_max_of_le_right (List.mem_singleton.mp hy).le
  · refine ⟨?_, fun y hy => ?_⟩
    · rcases min_choice p.lowestPrice x with hmin | hmin
      · exact List.mem_append_left _ (by simpa [hmin] using h.least.1)
      · exact List.mem_append_right _ (by simp [hmin])
    · rcases List.mem_append.mp hy with hy | hy
      · exact min_le_of_left_le (h.least.2 hy)
      · exact min_le_of_right_le (List.mem_singleton.mp hy).ge

/-- The positions that are open have the extremes of their prices. -/
def Watched (s : TradeRecorder) (prices : String → List ℚ) : Prop :=
  ∀ mint p, s.activePositions.get? mint = some p →
    Extremes (prices mint) p.buyPrice p.highestPrice p.lowestPrice

section Watched

variable {prices : String → List ℚ} {a : Ambient} {mint : String}

theorem Watched.recordBuy (h : Watched s prices) (ha : a.active = .done) (x q : ℚ) (sig : String) :
    Watched (s.step (.call a (.recordBuy mint x q sig)))
      fun m => Event.pricesAfter m (prices m) (.call a (.recordBuy mint x q sig)) := by
  intro m p hp
  rw [step_recordBuy, ha] at hp
  change (s.activePositions.set mint (bought a mint x q sig)).get? m = some p at hp
  dsimp only [Event.pricesAfter]
  by_cases hm : mint = m
  · subst hm
    rw [OrderedMap.get?_set_self] at hp
    cases hp
    rw [if_pos rfl]
    exact extremes_bought x
  · rw [OrderedMap.get?_set_of_ne (Ne.symm hm)] at hp
    rw [if_neg hm]
    exact h m p hp

theorem Watched.updatePrice (h : Watched s prices) (ha : a.active = .done) (x : ℚ) :
    Watched (s.step (.call a (.updatePrice mint x)))
      fun m => Event.pricesAfter m (prices m) (.call a (.updatePrice mint x)) := by
  intro m p hp
  dsimp only [Event.pricesAfter]
  rcases hheld : s.activePositions.get? mint with _ | p'
  · rw [step_updatePrice_of_none hheld] at hp
    have hm : mint ≠ m := by
      rintro rfl
      rw [hheld] at hp
      cases hp
    rw [if_neg hm]
    exact h m p hp
  · rw [step_updatePrice hheld, ha] at hp
    change (s.activePositions.set mint (TradeRecorder.seen p' x)).get? m = some p at hp
    by_cases hm : mint = m
    · subst hm
      rw [OrderedMap.get?_set_self] at hp
      cases hp
      rw [if_pos rfl]
      exact (h mint p' hheld).seen x
    · rw [OrderedMap.get?_set_of_ne (Ne.symm hm)] at hp
      rw [if_neg hm]
      exact h m p hp

theorem Watched.recordSell (h : Watched s prices) (hs : Keyed s.activePositions) (ha : a.active = .done) (x q : ℚ)
    (sig : String) : Watched (s.step (.call a (.recordSell mint x q sig))) prices := by
  intro m p hp
  rcases hheld : s.activePositions.get? mint with _ | p'
  · rw [step_recordSell_of_none hheld] at hp
    exact h m p hp
  · obtain ⟨daily, hstep⟩ := step_recordSell_of_done x q sig hheld ha hs
    rw [hstep] at hp
    change (s.activePositions.delete mint).get? m = some p at hp
    have hm : m ≠ mint := by
      rintro rfl
      rw [OrderedMap.get?_delete_self] at hp
      cases hp
    rw [OrderedMap.get?_delete_of_ne hm] at hp
    exact h m p hp

theorem Watched.step (h : Watched s prices) (hs : Saved s) (he : e.Quiet) :
    Watched (s.step e) fun m => e.pricesAfter m (prices m) := by
  cases e with
  | restart => exact hs.restart.symm ▸ h
  | call a c =>
    cases c with
    | recordBuy mint x q sig => exact h.recordBuy he.1 x q sig
    | updatePrice mint x => exact h.updatePrice he.1 x
    | recordSell mint x q sig => exact h.recordSell hs.keyed he.1 x q sig

end Watched

theorem run_watched (h : ∀ e ∈ events, e.Quiet) : Watched (run events) (pricesSince · events) := by
  induction events using List.reverseRecOn with
  | nil =>
    intro mint p hp
    cases hp
  | append_singleton events e ih =>
    have hbefore : ∀ e ∈ events, e.Quiet := fun e he => h e (List.mem_append_left _ he)
    simp only [run_concat, pricesSince_concat]
    exact (ih hbefore).step (run_saved hbefore) (h e (by simp))

/-- A call adds to the closed trades only as a sell of a mint that is held. -/
theorem step_getClosedTrades (hs : Saved s) (he : e.Quiet) :
    (s.step e).getClosedTrades = s.getClosedTrades ∨
      ∃ a mint p x q sig, e = .call a (.recordSell mint x q sig) ∧ s.activePositions.get? mint = some p ∧
        (s.step e).getClosedTrades = s.getClosedTrades ++ [closing a mint p x q sig] := by
  cases e with
  | restart => exact Or.inl (by rw [hs.restart])
  | call a c =>
    obtain ⟨ha, hclosed, -⟩ := he
    cases c with
    | recordBuy mint x q sig =>
      rw [step_recordBuy, ha]
      exact Or.inl rfl
    | updatePrice mint x =>
      rcases hp : s.activePositions.get? mint with _ | p
      · exact Or.inl (by rw [step_updatePrice_of_none hp])
      · rw [step_updatePrice hp, ha]
        exact Or.inl rfl
    | recordSell mint x q sig =>
      rcases hp : s.activePositions.get? mint with _ | p
      · exact Or.inl (by rw [step_recordSell_of_none hp])
      · obtain ⟨daily, hstep⟩ := step_recordSell_of_done x q sig hp ha hs.keyed
        refine Or.inr ⟨a, mint, p, x, q, sig, rfl, hp, ?_⟩
        rw [hstep, hclosed]
        rfl

/-- Each closed trade is that of a sell, and has the extremes of the prices before it. -/
theorem run_closed (h : ∀ e ∈ events, e.Quiet) {pre post : List CompleteTradeRecord} {c : CompleteTradeRecord}
    (hc : (run events).getClosedTrades = pre ++ c :: post) :
    ∃ before a x q sig after, events = before ++ .call a (.recordSell c.mint x q sig) :: after ∧
      (run before).getClosedTrades = pre ∧
      (run (before ++ [.call a (.recordSell c.mint x q sig)])).getClosedTrades = pre ++ [c] ∧
      Extremes (pricesSince c.mint before) c.buyPrice c.highestPrice c.lowestPrice := by
  induction events using List.reverseRecOn generalizing post with
  | nil => simp [run, TradeRecorder.getClosedTrades, TradeRecorder.new, RecordFiles.empty, File.readD] at hc
  | append_singleton events e ih =>
    have hbefore : ∀ e ∈ events, e.Quiet := fun e he => h e (List.mem_append_left _ he)
    have hmore : ∀ post', (run events).getClosedTrades = pre ++ c :: post' →
        ∃ before a x q sig after, events ++ [e] = before ++ .call a (.recordSell c.mint x q sig) :: after ∧
          (run before).getClosedTrades = pre ∧
          (run (before ++ [.call a (.recordSell c.mint x q sig)])).getClosedTrades = pre ++ [c] ∧
          Extremes (pricesSince c.mint before) c.buyPrice c.highestPrice c.lowestPrice := by
      intro post' hpost'
      obtain ⟨before, a, x, q, sig, after, heq, hrest⟩ := ih hbefore hpost'
      exact ⟨before, a, x, q, sig, after ++ [e], by rw [heq]; simp, hrest⟩
    rw [run_concat] at hc
    rcases step_getClosedTrades (run_saved hbefore) (h e (by simp)) with hsame | ⟨a, mint, p, x, q, sig, rfl, hp, hnew⟩
    · exact hmore post (hsame ▸ hc)
    · rcases List.eq_nil_or_concat post with rfl | ⟨post', last, rfl⟩
      · obtain ⟨hpre, hlast⟩ := List.append_inj' (hnew.symm.trans hc) rfl
        cases hlast
        refine ⟨events, a, x, q, sig, [], rfl, hpre, ?_, run_watched hbefore mint p hp⟩
        rw [run_concat]
        exact hc
      · rw [List.concat_eq_append, ← List.cons_append, ← List.append_assoc] at hc
        exact hmore post' (List.append_inj' (hnew.symm.trans hc) rfl).1

/-- **Restarts are transparent and extremes are exact.** Without failures of the files, a run is in the state of
the run without its restarts; every trade, open or closed, has the highest and the lowest of its prices, which
are its buy price and those seen of its mint since. A closed trade is here that of the sell which closed it. -/
theorem run_restarts (events : List Event) (h : ∀ e ∈ events, e.Quiet) :
    run events = run (events.filter Event.isCall) ∧
    (∀ p ∈ (run events).activePositions.values,
      Extremes (pricesSince p.mint events) p.buyPrice p.highestPrice p.lowestPrice) ∧
    ∀ pre c post, (run events).getClosedTrades = pre ++ c :: post →
      ∃ before a x q sig after, events = before ++ .call a (.recordSell c.mint x q sig) :: after ∧
        (run before).getClosedTrades = pre ∧
        (run (before ++ [.call a (.recordSell c.mint x q sig)])).getClosedTrades = pre ++ [c] ∧
        Extremes (pricesSince c.mint before) c.buyPrice c.highestPrice c.lowestPrice := by
  refine ⟨run_filter_isCall h, fun p hp => ?_, fun pre c post hc => run_closed h hc⟩
  obtain ⟨⟨mint, p'⟩, hmem, rfl⟩ := List.mem_map.mp hp
  have hget := OrderedMap.get?_of_mem hmem
  have hmint : p'.mint = mint := (run_saved h).keyed.mint_eq hget
  exact hmint ▸ run_watched h mint p' hget

end Quiet

/-- A call at a time, all of whose writes are done. -/
def quietAt (now : ℤ) : Ambient := ⟨now, "2024-01-01", .done, .done, .done⟩

/-- A mint is bought, seen higher and lower, and sold, with restarts between. -/
def sampleTrade : List Event :=
  [.call (quietAt 0) (.recordBuy "m" 2 1000 "b"), .restart, .call (quietAt 1000) (.updatePrice "m" 3), .restart,
    .call (quietAt 2000) (.updatePrice "m" 1), .call (quietAt 3000) (.recordSell "m" 2 1000 "s")]

theorem quiet_sampleTrade : ∀ e ∈ sampleTrade, e.Quiet := by
  simp [sampleTrade, Event.Quiet, quietAt]

theorem run_restarts_sample :
    (run sampleTrade).getClosedTrades.map (fun c => (c.mint, c.highestPrice, c.lowestPrice)) = [("m", 3, 1)] ∧
      run sampleTrade = run (sampleTrade.filter Event.isCall) :=
  ⟨by decide +kernel, (run_restarts sampleTrade quiet_sampleTrade).1⟩

/-! ### Conservation -/

/-- What makes a trade: all that is known of it when it is bought. -/
structure Trade where
  mint : String
  buyPrice : ℚ
  buySolAmount : ℚ
  buyTimestamp : ℤ
  buySignature : String
  deriving DecidableEq

/-- The trade of an open position. -/
def ActivePosition.trade (p : ActivePosition) : Trade :=
  ⟨p.mint, p.buyPrice, p.buySolAmount, p.buyTimestamp, p.buySignature⟩

/-- The trade of a record. -/
def CompleteTradeRecord.trade (c : CompleteTradeRecord) : Trade :=
  ⟨c.mint, c.buyPrice, c.buySolAmount, c.buyTimestamp, c.buySignature⟩

/-- The trades of some positions. -/
def trades (m : OrderedMap String ActivePosition) : Multiset Trade := ↑(m.values.map ActivePosition.trade)

namespace RecordFiles

/-- The trades that a recorder finds open when it is made on the files. -/
def openTrades (files : RecordFiles) : Multiset Trade := trades (TradeRecorder.new files).activePositions

/-- The trades that it finds closed. -/
def closedTrades (files : RecordFiles) : Multiset Trade :=
  ↑((TradeRecorder.new files).getClosedTrades.map CompleteTradeRecord.trade)

/-- The trades that are found after reloading, each as often as it is found. -/
def found (files : RecordFiles) : Multiset Trade := files.openTrades + files.closedTrades

end RecordFiles

/-- The trade that an event records: that of a buy, unless the process ended before it was written. -/
def Event.recorded : Event → Option Trade
  | .call a (.recordBuy mint buyPrice buySolAmount signature) =>
    match a.active with
    | .stopBefore | .stopTorn => none
    | _ => some ⟨mint, buyPrice, buySolAmount, a.now, signature⟩
  | _ => none

/-- The trades that were recorded. -/
def recorded (events : List Event) : Multiset Trade := ↑(events.filterMap Event.recorded)

/-- The file lists the trades that the recorder holds. -/
def Synced (s : TradeRecorder) : Prop := trades s.activePositions = s.files.openTrades

/-- What a call relies on. A buy, and a price of a mint that is held, need the positions to be written whole or
not at all; a sell needs both the positions and the closed trades to be written. Positions are written only
while the file lists those that are held. -/
def Call.Safe (s : TradeRecorder) (a : Ambient) : Call → Prop
  | .recordBuy _ _ _ _ =>
    a.active = .stopBefore ∨ a.active = .stopTorn ∧ s.files.openTrades = 0 ∨
      (a.active = .done ∨ a.active = .stopAfter) ∧ Synced s
  | .updatePrice mint _ => s.isHolding mint →
    a.active = .stopBefore ∨ (∃ msg, a.active = .refused msg) ∨ (a.active = .done ∨ a.active = .stopAfter) ∧ Synced s
  | .recordSell mint _ _ _ => s.isHolding mint →
    a.active = .stopBefore ∨ (∃ msg, a.active = .refused msg) ∨
      a.active = .done ∧ (a.closed = .done ∨ a.closed = .stopAfter) ∧ Synced s

/-- The condition on an event in a state. -/
def Event.Safe (s : TradeRecorder) : Event → Prop
  | .call a c => c.Safe s a
  | .restart => True

section Conservation

variable {s : TradeRecorder} {a : Ambient} {mint : String} {m : OrderedMap String ActivePosition} {p p' : ActivePosition}

theorem trades_set_of_none (h : m.get? mint = none) (p : ActivePosition) :
    trades (m.set mint p) = p.trade ::ₘ trades m := by
  rw [trades, OrderedMap.values_set_of_none h, List.map_append, ← Multiset.coe_add, add_comm]
  rfl

theorem trades_set_of_some (h : m.get? mint = some p') (hp : p.trade = p'.trade) : trades (m.set mint p) = trades m :=
  congrArg Multiset.ofList (OrderedMap.map_values_set h hp)

theorem trades_delete (h : m.get? mint = some p) : trades m = p.trade ::ₘ trades (m.delete mint) :=
  Multiset.coe_eq_coe.mpr ((OrderedMap.perm_values_delete h).map _)

theorem seen_trade (p : ActivePosition) (x : ℚ) : (seen p x).trade = p.trade := by
  rw [seen_eq]
  rfl

/-! What is found after the positions were written. -/

/-- What is read after a write: what was written, what was there, or what is read of a text that was cut. -/
@[simp] def WriteOutcome.readAfter {α : Type} (written before cut : α) : WriteOutcome → α
  | .done | .stopAfter => written
  | .refused _ | .stopBefore => before
  | .torn _ | .stopTorn => cut

theorem openTrades_content (h : Keyed m) {files : RecordFiles} (hf : files.active = .content m.values) :
    files.openTrades = trades m := by
  rw [RecordFiles.openTrades, TradeRecorder.new, hf, loadActivePositions_values h]

theorem openTrades_saved (h : Keyed m) (s : TradeRecorder) (w : WriteOutcome) :
    (saved s w m).files.openTrades = w.readAfter (trades m) s.files.openTrades 0 := by
  cases w with
  | done | stopAfter => exact openTrades_content h rfl
  | refused _ | stopBefore | torn _ | stopTorn => rfl

theorem closedTrades_saved (m : OrderedMap String ActivePosition) (s : TradeRecorder) (w : WriteOutcome) :
    (saved s w m).files.closedTrades = s.files.closedTrades := by
  cases w <;> rfl

/-- What is found holds what the recorder holds. -/
structure Tied (s : TradeRecorder) : Prop where
  keyed : Keyed s.activePositions
  held : trades s.activePositions ≤ s.files.openTrades

theorem tied_new (files : RecordFiles) : Tied (new files) := ⟨keyed_loadActivePositions _, le_refl _⟩

theorem tied_saved (hm : Keyed m) {w : WriteOutcome}
    (h : w = .done ∨ w = .stopAfter ∨ w = .stopBefore ∨ w = .stopTorn ∨
      (∃ msg, w = .refused msg) ∧ trades m ≤ s.files.openTrades) : Tied (saved s w m) := by
  rcases h with rfl | rfl | rfl | rfl | ⟨⟨msg, rfl⟩, hle⟩
  · exact ⟨hm, (openTrades_saved hm s .done).ge⟩
  · exact tied_new _
  · exact tied_new _
  · exact tied_new _
  · exact ⟨hm, hle⟩

theorem isHolding_of_get? (h : s.activePositions.get? mint = some p) : s.isHolding mint = true := by
  rw [isHolding, OrderedMap.has, h]
  rfl

theorem not_isHolding_of_get? (h : s.activePositions.get? mint = none) : ¬ s.isHolding mint = true := by
  rw [isHolding, OrderedMap.has, h]
  exact Bool.false_ne_true

theorem Tied.recordBuy (h : Tied s) (x q : ℚ) (sig : String) (hsafe : Call.Safe s a (.recordBuy mint x q sig)) :
    Tied (s.step (.call a (.recordBuy mint x q sig))) := by
  rw [step_recordBuy]
  refine tied_saved (h.keyed.set (p := bought a mint x q sig) rfl) ?_
  rcases hsafe with hw | ⟨hw, -⟩ | ⟨hw | hw, -⟩ <;> simp [hw]

theorem Tied.updatePrice (h : Tied s) (x : ℚ) (hsafe : Call.Safe s a (.updatePrice mint x)) :
    Tied (s.step (.call a (.updatePrice mint x))) := by
  rcases hp : s.activePositions.get? mint with _ | p
  · rw [step_updatePrice_of_none hp]
    exact h
  · rw [step_updatePrice hp]
    refine tied_saved (h.keyed.set (by rw [seen_mint, h.keyed.mint_eq hp])) ?_
    rw [trades_set_of_some hp (seen_trade p x)]
    have hle := h.held
    rcases hsafe (isHolding_of_get? hp) with hw | ⟨msg, hw⟩ | ⟨hw | hw, -⟩ <;> simp [hw, hle]

theorem Tied.recordSell (h : Tied s) (x q : ℚ) (sig : String) (hsafe : Call.Safe s a (.recordSell mint x q sig)) :
    Tied (s.step (.call a (.recordSell mint x q sig))) := by
  rcases hp : s.activePositions.get? mint with _ | p
  · rw [step_recordSell_of_none hp]
    exact h
  · by_cases hdone : a.active = .done
    · obtain ⟨daily, hstep⟩ := step_recordSell_of_done x q sig hp hdone h.keyed
      rw [hstep]
      exact ⟨h.keyed.delete, (openTrades_content h.keyed.delete rfl).ge⟩
    · rw [step_recordSell_of_ne_done x q sig hp hdone]
      refine tied_saved h.keyed.delete ?_
      have hle : trades (s.activePositions.delete mint) ≤ s.files.openTrades := by
        refine le_trans ?_ h.held
        rw [trades_delete hp]
        exact Multiset.le_cons_self _ _
      rcases hsafe (isHolding_of_get? hp) with hw | ⟨msg, hw⟩ | ⟨hw, -⟩ <;> simp [hw, hle]

theorem Tied.step {e : Event} (h : Tied s) (hsafe : e.Safe s) : Tied (s.step e) := by
  cases e with
  | restart => exact tied_new _
  | call a c =>
    cases c with
    | recordBuy mint x q sig => exact h.recordBuy x q sig hsafe
    | updatePrice mint x => exact h.updatePrice x hsafe
    | recordSell mint x q sig => exact h.recordSell x q sig hsafe

/-! What is found after a call, against what was recorded. -/

theorem found_saved (hm : Keyed m) (s : TradeRecorder) (w : WriteOutcome) :
    (saved s w m).files.found = w.readAfter (trades m) s.files.openTrades 0 + s.files.closedTrades := by
  rw [RecordFiles.found, openTrades_saved hm, closedTrades_saved]

/-- What was found is not what is found with one more. -/
theorem found_ne (files : RecordFiles) (t : Trade) {found : Multiset Trade} (h : found ≤ files.found) :
    found ≠ files.found + {t} := by
  intro heq
  have hcard := Multiset.card_le_card h
  rw [heq, Multiset.card_add, Multiset.card_singleton] at hcard
  omega

theorem closedTrades_le_found (files : RecordFiles) : 0 + files.closedTrades ≤ files.found := by
  rw [zero_add, RecordFiles.found]
  exact Multiset.le_add_left _ _

theorem closedTrades_eq_found_iff (files : RecordFiles) :
    0 + files.closedTrades = files.found ↔ files.openTrades = 0 := by
  rw [RecordFiles.found, add_left_inj, eq_comm]

theorem found_recordBuy_iff (h : Tied s) (hfree : s.activePositions.get? mint = none) (x q : ℚ) (sig : String) :
    (s.step (.call a (.recordBuy mint x q sig))).files.found =
        s.files.found + ↑(Event.recorded (.call a (.recordBuy mint x q sig))).toList ↔
      Call.Safe s a (.recordBuy mint x q sig) := by
  have hkeyed : Keyed (s.activePositions.set mint (bought a mint x q sig)) := h.keyed.set rfl
  have htrade : (bought a mint x q sig).trade = ⟨mint, x, q, a.now, sig⟩ := rfl
  have hwritten : ∀ t : Trade, t ::ₘ trades s.activePositions + s.files.closedTrades = s.files.found + {t} ↔
      Synced s := by
    intro t
    rw [RecordFiles.found, ← Multiset.singleton_add, add_assoc, add_comm, add_left_inj, add_left_inj]
    rfl
  have hrefused : ∀ t : Trade, s.files.openTrades + s.files.closedTrades ≠ s.files.found + {t} :=
    fun t => found_ne s.files t le_rfl
  rw [step_recordBuy, found_saved hkeyed, trades_set_of_none hfree, htrade, Call.Safe, Event.recorded]
  rcases hw : a.active with _ | msg | msg | _ | _ | _
  · simpa using hwritten _
  · simpa using hrefused _
  · simpa using found_ne s.files _ (closedTrades_le_found s.files)
  · simp [RecordFiles.found]
  · simpa using closedTrades_eq_found_iff s.files
  · simpa using hwritten _

theorem Tied.openTrades_ne_zero (h : Tied s) (hp : s.activePositions.get? mint = some p) : s.files.openTrades ≠ 0 := by
  intro hzero
  have hle := h.held
  rw [hzero, trades_delete hp] at hle
  exact Multiset.cons_ne_zero (Multiset.le_zero.mp hle)

theorem found_updatePrice_iff (h : Tied s) (x : ℚ) :
    (s.step (.call a (.updatePrice mint x))).files.found = s.files.found ↔ Call.Safe s a (.updatePrice mint x) := by
  rcases hp : s.activePositions.get? mint with _ | p
  · rw [step_updatePrice_of_none hp, Call.Safe]
    exact ⟨fun _ hheld => absurd hheld (not_isHolding_of_get? hp), fun _ => rfl⟩
  · have hkeyed : Keyed (s.activePositions.set mint (seen p x)) := h.keyed.set (by rw [seen_mint, h.keyed.mint_eq hp])
    have hwritten : trades s.activePositions + s.files.closedTrades = s.files.found ↔ Synced s := by
      rw [RecordFiles.found, add_left_inj]
      rfl
    rw [step_updatePrice hp, found_saved hkeyed, trades_set_of_some hp (seen_trade p x), Call.Safe]
    simp only [isHolding_of_get? hp, forall_const]
    rcases hw : a.active with _ | msg | msg | _ | _ | _
    · simpa using hwritten
    · simp [RecordFiles.found]
    · simpa using (closedTrades_eq_found_iff s.files).not.mpr (h.openTrades_ne_zero hp)
    · simp [RecordFiles.found]
    · simpa using (closedTrades_eq_found_iff s.files).not.mpr (h.openTrades_ne_zero hp)
    · simpa using hwritten

theorem closing_trade (a : Ambient) (hp : p.mint = mint) (x q : ℚ) (sig : String) :
    (closing a mint p x q sig).trade = p.trade := by
  subst hp
  rfl

/-- A position that is no longer listed is missing, unless its trade was added to the closed ones. -/
theorem Tied.found_delete_ne (h : Tied s) (hp : s.activePositions.get? mint = some p) {closed : Multiset Trade}
    (hclosed : closed ≤ s.files.closedTrades) : trades (s.activePositions.delete mint) + closed ≠ s.files.found := by
  intro heq
  have hheld := Multiset.card_le_card h.held
  have hmore := Multiset.card_le_card hclosed
  have hcard := congrArg Multiset.card heq
  rw [trades_delete hp, Multiset.card_cons] at hheld
  rw [RecordFiles.found, Multiset.card_add, Multiset.card_add] at hcard
  omega

/-- What is closed after a trade was added. -/
theorem closedTrades_append (files : RecordFiles) (w : WriteOutcome) (c : CompleteTradeRecord)
    (active : File (List ActivePosition)) (daily : String → File (List CompleteTradeRecord)) :
    RecordFiles.closedTrades ⟨active, (files.closed.write w (files.closed.readD [] ++ [c])).2, daily⟩ =
      w.readAfter (files.closedTrades + {c.trade}) files.closedTrades 0 := by
  cases w with
  | done | stopAfter =>
    show (↑((files.closed.readD [] ++ [c]).map CompleteTradeRecord.trade) : Multiset Trade) = _
    rw [List.map_append, ← Multiset.coe_add]
    rfl
  | refused _ | stopBefore | torn _ | stopTorn => rfl

theorem found_recordSell_iff (h : Tied s) (x q : ℚ) (sig : String) :
    (s.step (.call a (.recordSell mint x q sig))).files.found = s.files.found ↔
      Call.Safe s a (.recordSell mint x q sig) := by
  rcases hp : s.activePositions.get? mint with _ | p
  · rw [step_recordSell_of_none hp, Call.Safe]
    exact ⟨fun _ hheld => absurd hheld (not_isHolding_of_get? hp), fun _ => rfl⟩
  rw [Call.Safe]
  simp only [isHolding_of_get? hp, forall_const]
  by_cases hdone : a.active = .done
  · obtain ⟨daily, hstep⟩ := step_recordSell_of_done x q sig hp hdone h.keyed
    have hmoved : trades (s.activePositions.delete mint) + (s.files.closedTrades + {p.trade}) = s.files.found ↔
        Synced s := by
      rw [RecordFiles.found, Synced, trades_delete hp, ← Multiset.singleton_add, ← add_assoc, add_right_comm,
        add_left_inj, add_comm]
    have hlost : ∀ closed ≤ s.files.closedTrades, trades (s.activePositions.delete mint) + closed ≠ s.files.found :=
      fun closed hclosed => h.found_delete_ne hp hclosed
    rw [hstep, RecordFiles.found, openTrades_content h.keyed.delete rfl, closedTrades_append s.files,
      closing_trade a (h.keyed.mint_eq hp), hdone]
    rcases hw : a.closed with _ | msg | msg | _ | _ | _
    · simpa using hmoved
    · simpa using hlost _ le_rfl
    · simpa using hlost 0 (Multiset.zero_le _)
    · simpa using hlost _ le_rfl
    · simpa using hlost 0 (Multiset.zero_le _)
    · simpa using hmoved
  · rw [step_recordSell_of_ne_done x q sig hp hdone, found_saved h.keyed.delete]
    have hcut := (closedTrades_eq_found_iff s.files).not.mpr (h.openTrades_ne_zero hp)
    rcases hw : a.active with _ | msg | msg | _ | _ | _
    · exact absurd hw hdone
    · simp [RecordFiles.found]
    · simpa using hcut
    · simp [RecordFiles.found]
    · simpa using hcut
    · simpa using h.found_delete_ne hp le_rfl

/-- A buy is only recorded for a mint that is not held. -/
def Event.Fresh (s : TradeRecorder) : Event → Prop
  | .call _ (.recordBuy mint _ _ _) => s.isHolding mint = false
  | _ => True

theorem found_step_iff {e : Event} (h : Tied s) (hfresh : e.Fresh s) :
    (s.step e).files.found = s.files.found + ↑e.recorded.toList ↔ e.Safe s := by
  cases e with
  | restart => simp [Event.recorded, Event.Safe, TradeRecorder.step, TradeRecorder.new]
  | call a c =>
    cases c with
    | recordBuy mint x q sig =>
      refine found_recordBuy_iff h ?_ x q sig
      simpa [Event.Fresh, isHolding, OrderedMap.has] using hfresh
    | updatePrice mint x => simpa [Event.recorded, Event.Safe] using found_updatePrice_iff h x
    | recordSell mint x q sig => simpa [Event.recorded, Event.Safe] using found_recordSell_iff h x q sig

theorem recorded_concat (events : List Event) (e : Event) :
    recorded (events ++ [e]) = recorded events + ↑e.recorded.toList := by
  rw [recorded, List.filterMap_append, ← Multiset.coe_add]
  rcases he : e.recorded with _ | t <;> simp [recorded, he]

/-- **Every trade that was recorded is found once in the files exactly as long as the writes are done.** For
every sequence of calls, with buys only of mints that are not held, and for all that can become of the writes:
after each event the trades that are found, open or closed, are those that were recorded, each as often, if and
only if every event is safe in its state. -/
theorem found_eq_recorded_iff (events : List Event)
    (hfresh : ∀ before e, before ++ [e] <+: events → e.Fresh (run before)) :
    (∀ before, before <+: events → (run before).files.found = recorded before) ↔
      ∀ before e, before ++ [e] <+: events → e.Safe (run before) := by
  -- As long as what is found is what was recorded, the next event keeps it so exactly if it is safe.
  have hnext : ∀ before e, before ++ [e] <+: events → Tied (run before) →
      (run before).files.found = recorded before →
      ((run (before ++ [e])).files.found = recorded (before ++ [e]) ↔ e.Safe (run before)) := by
    intro before e hpre htied hfound
    rw [run_concat, recorded_concat, ← hfound]
    exact found_step_iff htied (hfresh before e hpre)
  refine Prefixes.property_iff_steps (I := fun before => Tied (run before) ∧ (run before).files.found = recorded before)
    ⟨tied_new _, rfl⟩ (fun before e hpre hbefore hsafe => ?_) (fun before _ hbefore => hbefore.2)
    fun before e hpre hbefore => (hnext before e hpre hbefore.1 hbefore.2).mp
  refine ⟨?_, (hnext before e hpre hbefore.1 hbefore.2).mpr hsafe⟩
  rw [run_concat]
  exact hbefore.1.step hsafe

end Conservation

/-- A mint is bought and sold, and the process ends between the two writes of the sell. -/
def sampleCut : List Event :=
  [.call (quietAt 0) (.recordBuy "m" 2 1000 "b"),
    .call { quietAt 1000 with closed := .stopBefore } (.recordSell "m" 2 1000 "s")]

theorem fresh_sampleCut : ∀ before e, before ++ [e] <+: sampleCut → e.Fresh (run before) := by
  intro before e hpre
  rcases before with _ | ⟨b, _ | ⟨b', before⟩⟩
  · obtain ⟨rfl, -⟩ := List.cons_prefix_cons.mp hpre
    rfl
  · obtain ⟨-, hpre⟩ := List.cons_prefix_cons.mp hpre
    obtain ⟨rfl, -⟩ := List.cons_prefix_cons.mp hpre
    trivial
  · simpa [sampleCut] using hpre.length_le

theorem found_eq_recorded_iff_sample :
    (∀ before, before <+: sampleCut → (run before).files.found = recorded before) ↔
      ∀ before e, before ++ [e] <+: sampleCut → e.Safe (run before) :=
  found_eq_recorded_iff sampleCut fresh_sampleCut

/-- The trade is in neither file. -/
theorem found_sampleCut : (∀ before e, before ++ [e] <+: sampleCut → e.Fresh (run before)) ∧
    recorded sampleCut = {⟨"m", 2, 1000, 0, "b"⟩} ∧ (run sampleCut).files.found = 0 :=
  ⟨fresh_sampleCut, by decide +kernel, by decide +kernel⟩

end PumpSwapBot.Node
