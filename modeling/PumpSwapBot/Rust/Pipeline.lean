import PumpSwapBot.Library.Machine
import PumpSwapBot.Rust.Arrivals
import Mathlib.Data.Multiset.AddSub

/-!
# From the stream to the server

Between the stream of events and the server there are tasks: the callback spawns one for each event, its
handler spawns another that waits for the sender of the channel, and one task takes updates out of the
channel and stores them (`grpc_subscriber.rs`, `strategy.rs` `start_grpc_subscription`). They run in
any order. Here they are a machine, and its runs are compared with `storeAll`, where the events are
worked off one after the other.

## The model

* A handler that panics ends its own task. A panic of the store task ends it and drops the receiver: what is in
  the channel is gone, and a send fails with a message in the log.
* The store task holds the lock of the store while it stores, and a reading call of the loop takes the
  same lock, so storing an update is one step and the states between the steps are those a reading call
  can see.
* The bot has a store: without one the task logs each update and drops it.
* `handled`, `lost` and `order` are not in the code; the theorems are about them.

## What is proved

* `store_of_run` — no update is lost or stored twice while the store task lives, and the server is what the
  store task makes of the updates in the order they came through the channel.
* `recentTrades_of_run` — once everything has come through, a call that reads all records of a mint
  returns what it would if the events had been worked off as they came, whatever the order of the tasks.
-/

namespace PumpSwapBot.Rust

open PumpSwapBot.Sdk PumpSwapBot.Library

/-- The tasks between the stream and the server. -/
structure Pipeline where
  /-- Events whose handler has not run. -/
  handling : List Event
  /-- Updates whose task has not had the sender. -/
  sending : List TransactionUpdate
  /-- The channel, oldest first. -/
  channel : List TransactionUpdate
  /-- What the store task has received and not worked off. -/
  taken : Option TransactionUpdate
  /-- The store task has ended. -/
  closed : Bool
  /-- The server. -/
  store : StoreState
  /-- Events whose handler has run. -/
  handled : List Event
  /-- Updates the store task never received. -/
  lost : List TransactionUpdate
  /-- What the store task has worked off, oldest first. -/
  order : List (TransactionUpdate × StoreReplies)

namespace Pipeline

/-- Before the first event. -/
def init : Pipeline := ⟨[], [], [], none, false, .empty, [], [], []⟩

/-- What can happen next. -/
inductive Action where
  /-- The stream calls back with an event. -/
  | event (e : Event)
  /-- The handler of an event runs. -/
  | handle (i : ℕ)
  /-- The task of an update has the sender. -/
  | send (i : ℕ)
  /-- The store task receives. -/
  | receive
  /-- The store task stores, with these replies of the server. -/
  | store (r : StoreReplies)

section Machine

variable (p : Profile) (serde : SerdeJson) (maxTradesPerToken : UInt64)

/-- The store task works off an update. -/
def storeUpdate (s : Pipeline) (u : TransactionUpdate) (r : StoreReplies) : Pipeline :=
  let s := { s with taken := none, order := s.order ++ [(u, r)] }
  match (storeTrade p serde maxTradesPerToken r u.mint u.record).run s.store with
  | (.error (.panic _), store) => { s with store, closed := true, lost := s.lost ++ s.channel, channel := [] }
  | (_, store) => { s with store }

/-- One step of the machine. -/
def step (s : Pipeline) : Action → Option Pipeline
  | .event e => some { s with handling := s.handling ++ [e] }
  | .handle i => do
    let e ← s.handling[i]?
    let s := { s with handling := s.handling.eraseIdx i, handled := s.handled ++ [e] }
    match handleEvent p e with
    | .ok (some u) => some { s with sending := s.sending ++ [u] }
    | _ => some s
  | .send i => do
    let u ← s.sending[i]?
    let s := { s with sending := s.sending.eraseIdx i }
    if s.closed then some { s with lost := s.lost ++ [u] } else some { s with channel := s.channel ++ [u] }
  | .receive =>
    match s.taken, s.channel with
    | none, u :: rest => if s.closed then none else some { s with taken := some u, channel := rest }
    | _, _ => none
  | .store r => s.taken.map fun u => storeUpdate p serde maxTradesPerToken s u r

/-- What a step does. -/
inductive Moves (s : Pipeline) : Action → Pipeline → Prop where
  | event (e : Event) : Moves s (.event e) { s with handling := s.handling ++ [e] }
  | handled {i : ℕ} {e : Event} {u : TransactionUpdate} (he : s.handling[i]? = some e)
      (hu : handleEvent p e = .ok (some u)) :
      Moves s (.handle i) { s with handling := s.handling.eraseIdx i, handled := s.handled ++ [e]
                                   sending := s.sending ++ [u] }
  | ignored {i : ℕ} {e : Event} (he : s.handling[i]? = some e) (hu : ∀ u, handleEvent p e ≠ .ok (some u)) :
      Moves s (.handle i) { s with handling := s.handling.eraseIdx i, handled := s.handled ++ [e] }
  | sent {i : ℕ} {u : TransactionUpdate} (hu : s.sending[i]? = some u) (hopen : s.closed = false) :
      Moves s (.send i) { s with sending := s.sending.eraseIdx i, channel := s.channel ++ [u] }
  | unsent {i : ℕ} {u : TransactionUpdate} (hu : s.sending[i]? = some u) (hclosed : s.closed = true) :
      Moves s (.send i) { s with sending := s.sending.eraseIdx i, lost := s.lost ++ [u] }
  | received {u : TransactionUpdate} {rest : List TransactionUpdate} (htaken : s.taken = none)
      (hchannel : s.channel = u :: rest) (hopen : s.closed = false) :
      Moves s .receive { s with taken := some u, channel := rest }
  | stored {r : StoreReplies} {u : TransactionUpdate} {store : StoreState} (htaken : s.taken = some u)
      (hstore : ∀ more, storeTask p serde maxTradesPerToken ((u, r) :: more) s.store =
        storeTask p serde maxTradesPerToken more store) :
      Moves s (.store r) { s with taken := none, order := s.order ++ [(u, r)], store }
  | panicked {r : StoreReplies} {u : TransactionUpdate} {store : StoreState} (htaken : s.taken = some u)
      (hstore : ∀ more, storeTask p serde maxTradesPerToken ((u, r) :: more) s.store = store) :
      Moves s (.store r) { s with taken := none, order := s.order ++ [(u, r)], store, closed := true
                                  lost := s.lost ++ s.channel, channel := [] }

end Machine

variable {p : Profile} {serde : SerdeJson} {n : UInt64}

theorem step_moves {s s' : Pipeline} {a : Action} (h : step p serde n s a = some s') : Moves p serde n s a s' := by
  cases a with
  | event e =>
    cases h
    exact .event e
  | handle i =>
    obtain ⟨e, he, h⟩ := Option.bind_eq_some_iff.mp h
    split at h
    next u hu =>
      cases h
      exact .handled he hu
    next hno =>
      cases h
      exact .ignored he hno
  | send i =>
    obtain ⟨u, hu, h⟩ := Option.bind_eq_some_iff.mp h
    simp only at h
    split_ifs at h with hclosed
    · cases h
      exact .unsent hu hclosed
    · cases h
      exact .sent hu (by simpa using hclosed)
  | receive =>
    simp only [step] at h
    split at h
    next u rest htaken hchannel =>
      split_ifs at h with hclosed
      cases h
      exact .received htaken hchannel (by simpa using hclosed)
    next => cases h
  | store r =>
    obtain ⟨u, htaken, rfl⟩ := Option.map_eq_some_iff.mp h
    simp only [storeUpdate]
    rcases hrun : (storeTrade p serde n r u.mint u.record).run s.store with ⟨(e | msg) | _, store⟩
    · exact .stored htaken fun more => by rw [storeTask, hrun]
    · exact .panicked htaken fun more => by rw [storeTask, hrun]
    · exact .stored htaken fun more => by rw [storeTask, hrun]

/-! ### Where the updates are -/

/-- The events of a run. -/
def eventsOf (as : List Action) : List Event :=
  as.filterMap fun a => match a with
    | .event e => some e
    | _ => none

/-- Each update of a handled event is in one place, and the server is what the store task has made of it. -/
structure Inv (p : Profile) (serde : SerdeJson) (n : UInt64) (s : Pipeline) : Prop where
  conserved : (updatesOf p s.handled : Multiset TransactionUpdate) =
    (s.order.map Prod.fst : List TransactionUpdate) + s.taken.toList + s.channel + s.sending + s.lost
  sequential : ∀ more, storeTask p serde n (s.order ++ more) .empty =
    if s.closed = true then s.store else storeTask p serde n more s.store
  closed : s.closed = true → s.taken = none ∧ s.channel = []
  lost : s.closed = false → s.lost = []

theorem eraseIdx_perm {α : Type} {l : List α} {i : ℕ} {a : α} (h : l[i]? = some a) :
    (l : Multiset α) = (l.eraseIdx i : List α) + {a} := by
  obtain ⟨hi, rfl⟩ := List.getElem?_eq_some_iff.mp h
  rw [add_comm, Multiset.singleton_add, Multiset.cons_coe]
  exact Multiset.coe_eq_coe.mpr (List.getElem_cons_eraseIdx_perm hi).symm

theorem updatesOf_append (p : Profile) (es es' : List Event) : updatesOf p (es ++ es') = updatesOf p es ++ updatesOf p es' :=
  List.filterMap_append

theorem updatesOf_handled {e : Event} {u : TransactionUpdate} (h : handleEvent p e = .ok (some u)) : updatesOf p [e] = [u] := by
  simp [updatesOf, h]

theorem updatesOf_ignored {e : Event} (h : ∀ u, handleEvent p e ≠ .ok (some u)) : updatesOf p [e] = [] := by
  rcases hr : handleEvent p e with f | (_ | u)
  · simp [updatesOf, hr]
  · simp [updatesOf, hr]
  · exact absurd hr (h u)

/-- A store task that has an update is there. -/
theorem Inv.open_of_taken {s : Pipeline} {u : TransactionUpdate} (h : Inv p serde n s) (htaken : s.taken = some u) :
    s.closed = false := by
  by_contra hc
  rw [(h.closed (by simpa using hc)).1] at htaken
  cases htaken

theorem inv_moves {s s' : Pipeline} {a : Action} (h : Inv p serde n s) (hm : Moves p serde n s a s') : Inv p serde n s' := by
  have hstays := fun u => h.open_of_taken (u := u)
  obtain ⟨hcons, hseq, hclosed, hlost⟩ := h
  cases hm with
  | event e => exact ⟨hcons, hseq, hclosed, hlost⟩
  | handled he hu =>
    refine ⟨?_, hseq, hclosed, hlost⟩
    rw [updatesOf_append, updatesOf_handled hu, ← Multiset.coe_add, hcons, ← Multiset.coe_add]
    abel
  | ignored he hu =>
    refine ⟨?_, hseq, hclosed, hlost⟩
    rw [updatesOf_append, updatesOf_ignored hu, List.append_nil]
    exact hcons
  | sent hu hopen =>
    refine ⟨?_, hseq, fun hc => ?_, hlost⟩
    · rw [hcons, eraseIdx_perm hu, ← Multiset.coe_add, Multiset.coe_singleton]
      abel
    · rw [hopen] at hc
      cases hc
  | unsent hu hc =>
    refine ⟨?_, hseq, hclosed, fun hopen => ?_⟩
    · rw [hcons, eraseIdx_perm hu, ← Multiset.coe_add, Multiset.coe_singleton]
      abel
    · rw [hc] at hopen
      cases hopen
  | received htaken hchannel hopen =>
    refine ⟨?_, hseq, fun hc => ?_, hlost⟩
    · rw [hcons, htaken, hchannel, ← Multiset.cons_coe, ← Multiset.singleton_add]
      simp only [Option.toList_none, Option.toList_some, Multiset.coe_nil, Multiset.coe_singleton]
      abel
    · rw [hopen] at hc
      cases hc
  | stored htaken hstore =>
    have hopen := hstays _ htaken
    refine ⟨?_, fun more => ?_, fun hc => ?_, hlost⟩
    · rw [hcons, htaken, List.map_append, ← Multiset.coe_add]
      simp only [Option.toList_none, Option.toList_some, Multiset.coe_nil, List.map_cons, List.map_nil]
      abel
    · rw [List.append_assoc, List.singleton_append, hseq, hopen, hstore]
      rfl
    · rw [hopen] at hc
      cases hc
  | panicked htaken hstore =>
    have hopen := hstays _ htaken
    refine ⟨?_, fun more => ?_, fun _ => ⟨rfl, rfl⟩, fun hc => by cases hc⟩
    · rw [hcons, htaken, List.map_append, ← Multiset.coe_add, ← Multiset.coe_add]
      simp only [Option.toList_none, Option.toList_some, Multiset.coe_nil, List.map_cons, List.map_nil]
      abel
    · rw [List.append_assoc, List.singleton_append, hseq, hopen, hstore]
      simp

theorem inv_init : Inv p serde n init := ⟨rfl, fun _ => rfl, fun h => (by cases h), fun _ => rfl⟩

theorem events_moves {s s' : Pipeline} {a : Action} (hm : Moves p serde n s a s') :
    (s'.handled : Multiset Event) + s'.handling = (s.handled : Multiset Event) + s.handling + eventsOf [a] := by
  cases hm with
  | event e => simp [eventsOf, ← Multiset.coe_add, add_assoc]
  | handled he _ | ignored he _ =>
    rw [eraseIdx_perm he, ← Multiset.coe_add]
    simp only [eventsOf, List.filterMap_cons, List.filterMap_nil, Multiset.coe_nil, Multiset.coe_singleton]
    abel
  | sent | unsent | received | stored | panicked => simp [eventsOf]

theorem events_run {s s' : Pipeline} {as : List Action} (hrun : Machine.run (step p serde n) s as = some s') :
    (s'.handled : Multiset Event) + s'.handling = (s.handled : Multiset Event) + s.handling + eventsOf as := by
  induction as generalizing s with
  | nil =>
    cases hrun
    simp [eventsOf]
  | cons a as ih =>
    obtain ⟨s₁, hstep, hrest⟩ := Machine.run_cons.mp hrun
    have happ : eventsOf (a :: as) = eventsOf [a] ++ eventsOf as := List.filterMap_append (l := [a])
    rw [ih hrest, events_moves (step_moves hstep), happ, ← Multiset.coe_add]
    abel

theorem inv_run {s : Pipeline} {as : List Action} (hrun : Machine.run (step p serde n) init as = some s) : Inv p serde n s :=
  Machine.invariant (fun _ _ _ h hs => inv_moves h (step_moves hs)) inv_init hrun

/-- The records that are applied are those of updates worked off. -/
theorem applied_of_storeTask {ds : List (TransactionUpdate × StoreReplies)} {s : StoreState} {record : TokenTradeRecord}
    (h : record ∈ (storeTask p serde n ds s).applied) : record ∈ s.applied ∨ ∃ d ∈ ds, d.1.record = record := by
  induction ds generalizing s with
  | nil => exact .inl h
  | cons d ds ih =>
    obtain ⟨u, r⟩ := d
    have hone : ∀ x, x ∈ ((storeTrade p serde n r u.mint u.record).run s).2.applied → x ∈ s.applied ∨ u.record = x := by
      intro x hx
      rcases storeTrade_cases p serde n r u.mint u.record s with heq | ⟨stop, -, -, heq⟩ <;> rw [heq] at hx
      · exact .inl hx
      · rcases List.mem_cons.mp hx with rfl | hmem
        · exact .inr rfl
        · exact .inl hmem
    have hrest : record ∈ ((storeTrade p serde n r u.mint u.record).run s).2.applied ∨ ∃ d ∈ ds, d.1.record = record := by
      rw [storeTask] at h
      split at h
      next heq =>
        rw [heq]
        exact .inl h
      next heq =>
        rw [heq]
        exact ih h
    rcases hrest with hmem | ⟨d, hd, heq⟩
    · rcases hone record hmem with hold | hnew
      · exact .inl hold
      · exact .inr ⟨(u, r), List.mem_cons_self, hnew⟩
    · exact .inr ⟨d, List.mem_cons_of_mem _ hd, heq⟩

/-- **No update is lost or stored twice.** Over every order of the tasks and every failure of the server: the server is what
the store task makes of the updates it has worked off, each update of a handled event is in one place, none is lost
before the store task ends, no signature is applied twice for a mint, and each record that is applied is that of an event. -/
theorem store_of_run {s : Pipeline} {as : List Action} (hrun : Machine.run (step p serde n) init as = some s) :
    s.store = storeTask p serde n s.order .empty ∧
      (eventsOf as : Multiset Event) = (s.handled : Multiset Event) + s.handling ∧
      (updatesOf p s.handled : Multiset TransactionUpdate) =
        (s.order.map Prod.fst : List TransactionUpdate) + s.taken.toList + s.channel + s.sending + s.lost ∧
      (s.closed = false → s.lost = []) ∧
      (∀ m, ((s.store.appliedFor m).map TokenTradeRecord.signature).Nodup) ∧
      ∀ record ∈ s.store.applied, ∃ e ∈ eventsOf as, ∃ u, handleEvent p e = .ok (some u) ∧ u.record = record := by
  have hinv := inv_run hrun
  have hevents : (eventsOf as : Multiset Event) = (s.handled : Multiset Event) + s.handling := by
    simpa [init] using (events_run hrun).symm
  have hstore : s.store = storeTask p serde n s.order .empty := by
    have hseq := hinv.sequential []
    rw [List.append_nil] at hseq
    rw [hseq]
    split_ifs <;> rfl
  refine ⟨hstore, hevents, hinv.conserved, hinv.lost, fun m => ?_, fun record hrecord => ?_⟩
  · rw [hstore]
    exact (storeTask_inv n (fun m => StoreInv.empty serde m) s.order m).distinct
  · rw [hstore] at hrecord
    rcases applied_of_storeTask hrecord with hnone | ⟨d, hd, rfl⟩
    · cases hnone
    -- The update worked off is that of a handled event.
    have hmem : d.1 ∈ updatesOf p s.handled := by
      have hplace : d.1 ∈ (updatesOf p s.handled : Multiset TransactionUpdate) := by
        rw [hinv.conserved]
        simp only [Multiset.mem_add, Multiset.mem_coe]
        exact .inl (.inl (.inl (.inl (List.mem_map_of_mem hd))))
      exact Multiset.mem_coe.mp hplace
    obtain ⟨e, he, hu⟩ := List.mem_filterMap.mp hmem
    have hevent : e ∈ eventsOf as := by
      have hplace : e ∈ (eventsOf as : Multiset Event) := by
        rw [hevents, Multiset.mem_add]
        exact .inl (Multiset.mem_coe.mpr he)
      exact Multiset.mem_coe.mp hplace
    refine ⟨e, hevent, d.1, ?_, rfl⟩
    split at hu
    next u heq => rw [heq, hu]
    next => cases hu

/-- Two events of the sample, the later of which is handled first and sent first. -/
def overtakenRun : List Action :=
  [.event (.buy sampleEvent), .event (.buy sampleLaterEvent), .handle 1, .send 0, .handle 0, .send 0,
   .receive, .store .fine, .receive, .store .fine]

theorem overtakenRun_ends :
    ((Machine.run (step .release tableDoubleSerde 1000) init overtakenRun).map fun s =>
      (s.handling.length + s.sending.length + s.channel.length + s.taken.toList.length, s.closed,
        s.order.map fun d => d.1.signature)) = some (0, false, ["b", "a"]) := by
  decide +kernel

theorem store_of_run_overtaken :
    ∃ s, Machine.run (step .release tableDoubleSerde 1000) init overtakenRun = some s ∧
      s.order.map (fun d => d.1.signature) = ["b", "a"] ∧ ∀ m, ((s.store.appliedFor m).map TokenTradeRecord.signature).Nodup := by
  obtain ⟨s, hrun, hs⟩ := Option.map_eq_some_iff.mp overtakenRun_ends
  simp only [Prod.mk.injEq] at hs
  exact ⟨s, hrun, hs.2.2, (store_of_run hrun).2.2.2.2.1⟩

/-! ### When everything has come through -/

/-- Nothing is on its way, and the store task is there. -/
structure Drained (s : Pipeline) : Prop where
  handling : s.handling = []
  sending : s.sending = []
  channel : s.channel = []
  taken : s.taken = none
  alive : s.closed = false

/-- The server answers every call. -/
def Reliable (as : List Action) : Prop := ∀ a ∈ as, ∀ r, a = .store r → r = .fine

theorem fine_moves {s s' : Pipeline} {a : Action} (h : ∀ d ∈ s.order, d.2 = .fine) (hfine : ∀ r, a = .store r → r = .fine)
    (hm : Moves p serde n s a s') : ∀ d ∈ s'.order, d.2 = .fine := by
  cases hm with
  | stored | panicked =>
    intro d hd
    rcases List.mem_append.mp hd with hold | hnew
    · exact h d hold
    · rw [List.mem_singleton.mp hnew]
      exact hfine _ rfl
  | event | handled | ignored | sent | unsent | received => exact h

/-- A run that has come through has stored the updates of its events, in some order. -/
theorem exists_order {s : Pipeline} {as : List Action} (hrun : Machine.run (step p serde n) init as = some s)
    (hreliable : Reliable as) (hdrained : s.Drained) :
    ∃ l, l.Perm (updatesOf p (eventsOf as)) ∧ s.store = storeAll p serde n l := by
  have hinv := inv_run hrun
  have hfine : ∀ d ∈ s.order, d.2 = .fine := Machine.invariant_along (I := fun s => ∀ d ∈ s.order, d.2 = .fine)
    (C := fun _ a => ∀ r, a = .store r → r = .fine) (fun _ _ _ h hc hs => fine_moves h hc (step_moves hs))
    (fun _ hd => by cases hd) (Machine.along_of_forall (fun a ha _ => hreliable a ha) _) hrun
  have hevents : (eventsOf as : Multiset Event) = s.handled := by
    have hrun := events_run hrun
    rw [hdrained.handling] at hrun
    simpa [init] using hrun.symm
  refine ⟨s.order.map Prod.fst, ?_, ?_⟩
  · have hcons := hinv.conserved
    rw [hdrained.taken, hdrained.channel, hdrained.sending, hinv.lost hdrained.alive] at hcons
    simp only [Option.toList_none, Multiset.coe_nil, add_zero] at hcons
    have hperm : (updatesOf p s.handled).Perm (updatesOf p (eventsOf as)) :=
      (Multiset.coe_eq_coe.mp hevents.symm).filterMap _
    exact (Multiset.coe_eq_coe.mp hcons).symm.trans hperm
  · have hseq := hinv.sequential []
    rw [List.append_nil, hdrained.alive] at hseq
    have horder : (s.order.map Prod.fst).map (fun u => (u, StoreReplies.fine)) = s.order := by
      rw [List.map_map]
      refine (List.map_congr_left fun d hd => ?_).trans (List.map_id _)
      exact Prod.ext rfl (hfine d hd).symm
    rw [storeAll, horder, hseq]
    rfl

/-- The updates of a mint. -/
def ofMint (m : String) (l : List TransactionUpdate) : List TransactionUpdate := l.filter fun u => u.mint = m

theorem freshUpdates_ofMint (m : String) (l : List TransactionUpdate) : freshUpdates m (ofMint m l) = freshUpdates m l := by
  simp [freshUpdates, ofMint, List.filter_filter]

/-- Two orders of the same updates are read back as the same records. -/
theorem sorted_perm (value : TokenTradeRecord → ℚ) {l l' : List TransactionUpdate}
    (htimes : (l.map (TransactionUpdate.time p)).Nodup) (h : l.Perm l') :
    (readBackAll p ((l.map TransactionUpdate.record).map (TokenTradeRecord.reread value))).map sortByBlocktime =
      (readBackAll p ((l'.map TransactionUpdate.record).map (TokenTradeRecord.reread value))).map sortByBlocktime := by
  by_cases hread : ∀ u ∈ l, u.Readable p
  · have hread' : ∀ u ∈ l', u.Readable p := fun u hu => hread u (h.mem_iff.mpr hu)
    rw [readBackAll_of_readable hread, readBackAll_of_readable hread']
    simp only [Except.map]
    rw [sortByBlocktime_back, sortByBlocktime_back, sortDown_eq_of_perm htimes h]
  · have hread' : ¬ ∀ u ∈ l', u.Readable p := fun hall => hread fun u hu => hall u (h.mem_iff.mp hu)
    rw [readBackAll_of_not_readable hread, readBackAll_of_not_readable hread']

/-- What a call that covers all records of a mint returns, for updates that arrived in some order. -/
theorem getRecentTrades_all {value : TokenTradeRecord → ℚ} {m : String} {l : List TransactionUpdate} {r : ReadReplies}
    {limit : UInt64} (h : Arrivals n m (ofMint m l)) (hserde : ∀ u ∈ ofMint m l, serde.ReadsAs value u.record)
    (hr : r.Of (storeAll p serde n l).redis) (hlimit : (ofMint m l).length ≤ limit.toNat ∧ limit.toNat ≤ 2 ^ 63) :
    getRecentTrades p serde r m limit = lastIndex p limit >>= fun _ =>
      (readBackAll p (((if KeepsNewest p n then (ofMint m l).reverse else []).map TransactionUpdate.record).map
        (TokenTradeRecord.reread value))).map sortByBlocktime := by
  have hlist : (storeAll p serde n l).redis.asList (tradesKey m) =
      .ok (((if KeepsNewest p n then (ofMint m l).reverse else []).map TransactionUpdate.record).map
        (TokenTradeRecord.encode serde)) := by
    rw [storeAll_trades, ← freshUpdates_ofMint, h.stored_eq, List.map_map]
    rfl
  rw [getRecentTrades_eq hr hlist (h.read hserde), List.take_of_length_le]
  rw [List.length_map]
  simp only [span]
  split_ifs with hkeeps hzero hle
  · exact le_rfl
  · rw [List.length_reverse]
    exact hlimit.1
  · exact absurd hlimit.2 hle
  all_goals simp

/-- **The order of the tasks does not matter for a whole list.** Once everything has come through a server that
answers, a call that covers all records of a mint returns what it returns when the events are worked off as they come,
if the mint's updates have distinct signatures and distinct times and are no more than are kept, and if `serde_json` gives
their records back but for the prices. -/
theorem recentTrades_of_run {value : TokenTradeRecord → ℚ} {s : Pipeline} {as : List Action} {m : String} {limit : UInt64}
    {r r' : ReadReplies}
    (hrun : Machine.run (step p serde n) init as = some s) (hreliable : Reliable as) (hdrained : s.Drained)
    (harrivals : Arrivals n m (ofMint m (updatesOf p (eventsOf as))))
    (htimes : ((ofMint m (updatesOf p (eventsOf as))).map (TransactionUpdate.time p)).Nodup)
    (hserde : ∀ u ∈ ofMint m (updatesOf p (eventsOf as)), serde.ReadsAs value u.record)
    (hlimit : (ofMint m (updatesOf p (eventsOf as))).length ≤ limit.toNat ∧ limit.toNat ≤ 2 ^ 63)
    (hr : r.Of s.store.redis) (hr' : r'.Of (storeAll p serde n (updatesOf p (eventsOf as))).redis) :
    getRecentTrades p serde r m limit = getRecentTrades p serde r' m limit := by
  obtain ⟨l, hperm, hstore⟩ := exists_order hrun hreliable hdrained
  have hmint : (ofMint m l).Perm (ofMint m (updatesOf p (eventsOf as))) := hperm.filter _
  rw [hstore] at hr
  rw [getRecentTrades_all (harrivals.perm hmint.symm) (fun u hu => hserde u (hmint.mem_iff.mp hu)) hr
      (hmint.length_eq ▸ hlimit),
    getRecentTrades_all harrivals hserde hr' hlimit]
  congr 1
  funext _
  refine sorted_perm value ?_ ?_
  · split_ifs
    · rw [List.map_reverse, List.nodup_reverse]
      exact (hmint.map _).nodup_iff.mpr htimes
    · exact List.nodup_nil
  · split_ifs
    · exact (List.reverse_perm _).trans (hmint.trans (List.reverse_perm _).symm)
    · exact .refl _

theorem updatesOf_overtakenRun : updatesOf .release (eventsOf overtakenRun) = [sampleUpdate, sampleLaterUpdate] := by
  decide +kernel

/-- The later event is stored first, and the list that is read is that of the events in their order. -/
theorem recentTrades_of_run_overtaken :
    ∃ s, Machine.run (step .release tableDoubleSerde 1000) init overtakenRun = some s ∧
      getRecentTrades .release tableDoubleSerde (readsOf s.store.redis) sampleUpdate.mint 1000 =
        getRecentTrades .release tableDoubleSerde
          (readsOf (storeAll .release tableDoubleSerde 1000 (updatesOf .release (eventsOf overtakenRun))).redis)
          sampleUpdate.mint 1000 := by
  obtain ⟨s, hrun, hs⟩ := Option.map_eq_some_iff.mp overtakenRun_ends
  simp only [Prod.mk.injEq] at hs
  obtain ⟨hnone, halive, -⟩ := hs
  have hdrained : s.Drained := by
    refine ⟨List.length_eq_zero_iff.mp (by omega), List.length_eq_zero_iff.mp (by omega),
      List.length_eq_zero_iff.mp (by omega), ?_, halive⟩
    exact Option.toList_eq_nil_iff.mp (List.length_eq_zero_iff.mp (by omega))
  have hmint : ofMint sampleUpdate.mint (updatesOf .release (eventsOf overtakenRun)) = [sampleUpdate, sampleLaterUpdate] := by
    rw [updatesOf_overtakenRun]
    rfl
  refine ⟨s, hrun, recentTrades_of_run hrun ?_ hdrained ?_ ?_ (fun u _ => tableDoubleSerde_readsAs u.record) ?_
    (readsOf_of _) (readsOf_of _)⟩
  · intro a ha r hr
    subst hr
    simpa [overtakenRun] using ha
  · rw [hmint]
    constructor <;> decide
  · rw [hmint]
    decide
  · rw [hmint]
    decide

end Pipeline

end PumpSwapBot.Rust
