import PumpSwapBot.Library.Rounding
import PumpSwapBot.Library.StableSort
import PumpSwapBot.Rust.Store

/-!
# From swaps to windows

What the bot reads of the swaps it was sent: each event becomes an update, the store task keeps the
records of a mint whose signatures are new, and a reading call takes the latest of them and sorts them
by their times.

## The model

The functions are those of `Record` and `Store`, put together: `updatesOf` for the handlers of the events,
`storeAll` for the store task when the server answers every call, and `ReadReplies.Of` for reading calls
that are answered from that server. A text of `serde_json` has to lead back to the record it was made
of (`SerdeJson.Keeps`), or to that record with a price of its own (`SerdeJson.ReadsAs`): prices are
`f64`, and `serde_json` does not promise to read the digits of one as the number they were written for.

## What is proved

* `storeAll_trades` — what the list of a mint holds after any updates.
* `getRecentTrades_eq`, `getLatestPriceFromTrades_eq` — what the reading calls return of such a list.
* `handleEvent_eq` — the update of an event.
-/

namespace PumpSwapBot.Rust

open PumpSwapBot.Sdk PumpSwapBot.Library

/-! ### Through the text and back -/

/-- The text of the record leads back to its JSON. -/
def SerdeJson.Keeps (serde : SerdeJson) (r : TokenTradeRecord) : Prop :=
  serde.parse (r.encode serde) = some r.toJson

/-- The price as it is computed in `f64`. -/
def TokenTradeRecord.computedPrice (number : Rounding 53) (r : TokenTradeRecord) : ℚ :=
  if r.tokenAmount > 0 then
    number.div (number.div (number.round r.solAmount.toNat) (number.round r.tokenAmount.toNat)) 1000
  else 0

/-- The price that its digits are read as. -/
def TokenTradeRecord.rereadPrice (number : Rounding 53) (back : ℚ → ℚ) (r : TokenTradeRecord) : ℚ :=
  back (r.computedPrice number)

/-- The record with the price that comes back. -/
def TokenTradeRecord.reread (value : TokenTradeRecord → ℚ) (r : TokenTradeRecord) : TokenTradeRecord :=
  { r with price := value r }

/-- The text of the record leads back to its JSON, with a price of its own. -/
def SerdeJson.ReadsAs (serde : SerdeJson) (value : TokenTradeRecord → ℚ) (r : TokenTradeRecord) : Prop :=
  serde.parse (r.encode serde) = some (r.reread value).toJson

@[simp] theorem reread_price (r : TokenTradeRecord) : r.reread TokenTradeRecord.price = r := rfl

theorem SerdeJson.Keeps.readsAs {serde : SerdeJson} {r : TokenTradeRecord} (h : serde.Keeps r) :
    serde.ReadsAs TokenTradeRecord.price r := h

/-- A record as it is read back: its time may be taken for seconds. -/
def TokenTradeRecord.readBack (p : Profile) (r : TokenTradeRecord) : Result TokenTradeRecord :=
  (blocktimeOfInt p r.blocktimeUs).map fun blocktimeUs => { r with blocktimeUs }

theorem asU64_toNat (n : UInt64) : Json.asU64 (.int n.toNat) = some n := by
  have hlt : n.toNat < 2 ^ 64 := n.toNat_lt
  have hrange : (0 : ℤ) ≤ n.toNat ∧ (n.toNat : ℤ) < 2 ^ 64 := ⟨by omega, by omega⟩
  rw [Json.asU64, if_pos hrange, Int.toNat_natCast, Sdk.asU64, UInt64.ofNat_toNat]

theorem requiredField_eq {α : Type} {read : Json → Option α} {name : String} {fields : List (String × Json)} {v : Json}
    {a : α} (hlookup : lookupField [name] fields = some (some v)) (hread : read v = some a) :
    requiredField read name fields = some a := by
  rw [requiredField, hlookup, Option.bind_some, Option.bind_some, hread]

theorem recordOfFields_toJson (r : TokenTradeRecord) :
    (fieldsOfJson r.toJson).bind recordOfFields =
      some (fun blocktimeUs => { r with blocktimeUs }, .int r.blocktimeUs) := by
  simp only [TokenTradeRecord.toJson, fieldsOfJson]
  rw [Option.bind_some, recordOfFields,
    requiredField_eq (v := .int r.tokenAmount.toNat) rfl (asU64_toNat r.tokenAmount),
    requiredField_eq (v := .int r.solAmount.toNat) rfl (asU64_toNat r.solAmount)]
  rfl

/-- The record of a JSON value. -/
def recordOfJson (j : Json) : Option TokenTradeRecord :=
  match (fieldsOfJson j).bind recordOfFields with
  | some (record, .int blocktimeUs) => some (record blocktimeUs)
  | _ => none

theorem recordOfJson_toJson (r : TokenTradeRecord) : recordOfJson r.toJson = some r := by
  rw [recordOfJson, recordOfFields_toJson]

/-- The same texts, with other prices read from them. -/
def SerdeJson.reading (serde : SerdeJson) (value : TokenTradeRecord → ℚ) : SerdeJson where
  toText := serde.toText
  parse text := (serde.parse text).map fun j => ((recordOfJson j).map fun r => (r.reread value).toJson).getD j
  error := serde.error

theorem SerdeJson.Keeps.reading {serde : SerdeJson} {r : TokenTradeRecord} (h : serde.Keeps r)
    (value : TokenTradeRecord → ℚ) : (serde.reading value).ReadsAs value r := by
  have hparse : serde.parse (r.encode (serde.reading value)) = some r.toJson := h
  simp only [SerdeJson.ReadsAs, SerdeJson.reading] at hparse ⊢
  rw [hparse, Option.map_some, recordOfJson_toJson, Option.map_some, Option.getD_some]

section ThroughText

variable {p : Profile} {serde : SerdeJson} {value : TokenTradeRecord → ℚ}

/-- Only the time and the price of a record change on the way through its text. -/
theorem decode_encode {r : TokenTradeRecord} (h : serde.ReadsAs value r) (ht : r.blocktimeUs < 2 ^ 63) (now : ℤ) :
    TokenTradeRecord.decode p serde now (r.encode serde) = (r.reread value).readBack p := by
  have htime : (r.reread value).blocktimeUs < 2 ^ 63 := ht
  simp only [TokenTradeRecord.decode, deserializeBlocktime]
  rw [h, Option.bind_some, recordOfFields_toJson]
  dsimp only
  rw [if_pos htime, TokenTradeRecord.readBack]

/-- Records read back one after the other. -/
def readBackAll (p : Profile) : List TokenTradeRecord → Result (List TokenTradeRecord)
  | [] => .ok []
  | r :: rs => do
    let r' ← r.readBack p
    let rs' ← readBackAll p rs
    return r' :: rs'

theorem readBack_eq_error {r : TokenTradeRecord} {f : Failure} (h : r.readBack p = .error f) :
    f = .panic "attempt to multiply with overflow" := by
  simp only [TokenTradeRecord.readBack, blocktimeOfInt, mulI64] at h
  rcases p with _ | _ <;> split_ifs at h <;> cases h
  rfl

theorem decodeAll_encode {records : List TokenTradeRecord}
    (h : ∀ r ∈ records, serde.ReadsAs value r ∧ r.blocktimeUs < 2 ^ 63) (now : ℤ) :
    decodeAll p serde now (records.map (TokenTradeRecord.encode serde)) =
      readBackAll p (records.map (TokenTradeRecord.reread value)) := by
  induction records with
  | nil => rfl
  | cons r records ih =>
    rw [List.forall_mem_cons] at h
    rw [List.map_cons, List.map_cons, decodeAll, readBackAll, decode_encode h.1.1 h.1.2, ih h.2]
    rcases hr : (r.reread value).readBack p with f | r'
    · -- The failure is a panic, to which no context is added.
      rw [readBack_eq_error hr]
      rfl
    · rfl

end ThroughText

/-! ### Windows -/

/-- How many of `length` items the indices from 0 to `n as isize - 1` cover. -/
def span (n : UInt64) (length : ℕ) : ℕ :=
  if n = 0 then length else if n.toNat ≤ 2 ^ 63 then n.toNat else length - (2 ^ 64 - n.toNat)

theorem span_eq {n : UInt64} (h : 1 ≤ n.toNat ∧ n.toNat ≤ 2 ^ 63) (length : ℕ) : span n length = n.toNat := by
  have hne : n ≠ 0 := by
    rintro rfl
    simp at h
  rw [span, if_neg hne, if_pos h.2]

theorem range_lastIndex {α : Type} {p : Profile} {n : UInt64} {stop : ℤ} (h : lastIndex p n = .ok stop)
    (items : List α) : KeyValue.range items 0 stop = items.take (span n items.length) := by
  rw [KeyValue.range_zero_eq]
  have hlt : n.toNat < 2 ^ 64 := n.toNat_lt
  have hstop : stop = if n.toNat ≤ 2 ^ 63 then (n.toNat : ℤ) - 1 else (n.toNat : ℤ) - 2 ^ 64 - 1 := by
    simp only [lastIndex, asIsize] at h
    rcases p with _ | _ <;> split_ifs at h ⊢ <;> cases h <;> omega
  have hzero : n = 0 ↔ n.toNat = 0 := by rw [← UInt64.toNat_inj]; rfl
  simp only [span, KeyValue.fromFront]
  rw [hstop]
  by_cases h0 : n.toNat = 0
  · simp [h0, hzero]
  · rw [if_neg (fun h => h0 (hzero.mp h))]
    by_cases hle : n.toNat ≤ 2 ^ 63
    · rw [if_pos hle, if_pos hle, if_neg (by omega)]
      congr 1
      omega
    · rw [if_neg hle, if_neg hle, if_pos (by omega)]
      congr 1
      omega

/-- With this capacity a record stays in the list it is pushed to. -/
def KeepsNewest (p : Profile) (maxTradesPerToken : UInt64) : Prop :=
  maxTradesPerToken.toNat < 2 ^ 63 ∨ maxTradesPerToken.toNat = 2 ^ 63 ∧ p = .release

instance (p : Profile) (maxTradesPerToken : UInt64) : Decidable (KeepsNewest p maxTradesPerToken) :=
  inferInstanceAs (Decidable (_ ∨ _ ∧ _))

theorem KeepsNewest.lastIndex {p : Profile} {n : UInt64} (h : KeepsNewest p n) : ∃ stop, lastIndex p n = .ok stop := by
  simp only [Rust.lastIndex, asIsize]
  rcases h with h | ⟨h, rfl⟩
  · exact ⟨_, if_neg (by split_ifs; omega)⟩
  · exact ⟨_, if_pos (by split_ifs <;> omega)⟩

/-- Of the items pushed so far, newest first, those that are left after the trims. -/
def stored {α : Type} (p : Profile) (maxTradesPerToken : UInt64) (items : List α) : List α :=
  if KeepsNewest p maxTradesPerToken then items.take (span maxTradesPerToken items.length) else []

theorem stored_map {α β : Type} (p : Profile) (n : UInt64) (f : α → β) (items : List α) :
    stored p n (items.map f) = (stored p n items).map f := by
  simp only [stored]
  split_ifs <;> simp

theorem mem_of_mem_stored {α : Type} {p : Profile} {n : UInt64} {items : List α} {item : α} (h : item ∈ stored p n items) :
    item ∈ items := by
  simp only [stored] at h
  split_ifs at h
  · exact List.mem_of_mem_take h
  · cases h

theorem head?_stored {α : Type} (p : Profile) (n : UInt64) (items : List α) :
    (stored p n items).head? = if KeepsNewest p n then items.head? else none := by
  simp only [stored]
  split_ifs with hkeeps
  · rcases items with _ | ⟨item, items⟩
    · simp
    · have hspan : span n (item :: items).length ≠ 0 := by
        simp only [span]
        split_ifs with hzero hle
        · simp
        · exact fun h => hzero (UInt64.toNat.inj h)
        · rcases hkeeps with h | h <;> omega
      rw [List.head?_take, if_neg hspan]
  · rfl

/-- One more push and trim. -/
theorem range_stored {α : Type} {p : Profile} {n : UInt64} {stop : ℤ} (h : lastIndex p n = .ok stop) (item : α)
    (items : List α) : KeyValue.range (item :: stored p n items) 0 stop = stored p n (item :: items) := by
  rw [range_lastIndex h]
  simp only [stored]
  split_ifs with hkeeps
  · have hle : n.toNat ≤ 2 ^ 63 := by rcases hkeeps with h | h <;> omega
    simp only [span]
    split_ifs with hzero
    · simp
    · have hpos : 0 < n.toNat := Nat.pos_of_ne_zero fun h => hzero (UInt64.toNat.inj h)
      rw [List.take_cons hpos, List.take_cons hpos, List.take_take, min_eq_left (by omega)]
  · have hgt : 2 ^ 63 < n.toNat := by
      by_contra hle
      -- At 2^63 the index itself overflows, which leaves only the release build.
      have heq : n.toNat = 2 ^ 63 := by
        simp only [KeepsNewest] at hkeeps
        omega
      rcases p with _ | _
      · unfold lastIndex asIsize at h
        rw [heq] at h
        cases h
      · exact hkeeps (Or.inr ⟨heq, rfl⟩)
    have hlt : n.toNat < 2 ^ 64 := n.toNat_lt
    have hne : n ≠ 0 := by
      rintro rfl
      simp at hgt
    have hspan : span n [item].length = 0 := by
      rw [span, if_neg hne, if_neg (by omega), List.length_singleton]
      omega
    rw [hspan, List.take_zero]

/-! ### Storing -/

/-- Replies without a failure. -/
def StoreReplies.fine : StoreReplies where
  connect := .ok ()
  sismember := .ok ()
  reconnect := .ok ()
  pipeline := .applied (.ok ())

/-- The updates of a mint whose signature was new when they came, newest first. -/
def freshUpdates (mint : String) (updates : List TransactionUpdate) : List TransactionUpdate :=
  (updates.filter fun u => u.mint = mint).reverse.pwFilter fun a b => a.signature ≠ b.signature

/-- The store task on a server that was empty and answers every call. -/
def storeAll (p : Profile) (serde : SerdeJson) (maxTradesPerToken : UInt64) (updates : List TransactionUpdate) :
    StoreState :=
  storeTask p serde maxTradesPerToken (updates.map fun u => (u, .fine)) .empty

theorem freshUpdates_of_ne {mint : String} {u : TransactionUpdate} (h : u.mint ≠ mint)
    (updates : List TransactionUpdate) : freshUpdates mint (updates ++ [u]) = freshUpdates mint updates := by
  simp [freshUpdates, h]

theorem freshUpdates_of_seen {mint : String} {u : TransactionUpdate} {updates : List TransactionUpdate}
    (hm : u.mint = mint) (h : u.signature ∈ (freshUpdates mint updates).map TransactionUpdate.signature) :
    freshUpdates mint (updates ++ [u]) = freshUpdates mint updates := by
  simp only [freshUpdates] at h ⊢
  rw [List.filter_append, List.filter_singleton, decide_eq_true hm, cond_true, List.reverse_append,
    List.reverse_singleton, List.singleton_append, List.pwFilter_cons_of_neg]
  obtain ⟨v, hv, hsig⟩ := List.mem_map.mp h
  exact fun hall => hall v hv hsig.symm

theorem freshUpdates_of_new {mint : String} {u : TransactionUpdate} {updates : List TransactionUpdate}
    (hm : u.mint = mint) (h : u.signature ∉ (freshUpdates mint updates).map TransactionUpdate.signature) :
    freshUpdates mint (updates ++ [u]) = u :: freshUpdates mint updates := by
  simp only [freshUpdates] at h ⊢
  rw [List.filter_append, List.filter_singleton, decide_eq_true hm, cond_true, List.reverse_append,
    List.reverse_singleton, List.singleton_append, List.pwFilter_cons_of_pos]
  intro v hv hsig
  exact h (List.mem_map.mpr ⟨v, hv, hsig.symm⟩)

/-- A storing call on a server that answers. -/
theorem storeTrade_fine {p : Profile} {serde : SerdeJson} {n : UInt64} {stop : ℤ} {record : TokenTradeRecord}
    {s : StoreState} {members : Finset String} (hstop : lastIndex p n = .ok stop)
    (hset : s.redis.asSet (signaturesKey record.mint) = .ok members) :
    (storeTrade p serde n .fine record.mint record).run s = (.ok (), if record.signature ∈ members then s else
      ⟨KeyValue.exec s.redis (storeCommands serde stop record.mint record), record :: s.applied⟩) := by
  have hseen : (isSignatureExists .fine record.mint record.signature).run s =
      (.ok (decide (record.signature ∈ members)), s) := by
    simp [isSignatureExists, StoreReplies.fine, Proc.bind_run, orFail, KeyValue.sismember, hset, Except.map,
      Except.mapError]
  simp only [storeTrade]
  rw [Proc.bind_run_ok hseen]
  by_cases hmem : record.signature ∈ members
  · simp [hmem]
  · simp [hmem, StoreReplies.fine, Proc.bind_run, orFail, hstop, runPipeline]

/-- What the two keys of a mint hold after some updates. -/
structure Filled (p : Profile) (serde : SerdeJson) (maxTradesPerToken : UInt64) (updates : List TransactionUpdate)
    (s : StoreState) (mint : String) : Prop where
  sigs : s.redis.asSet (signaturesKey mint) =
    .ok ((freshUpdates mint updates).map TransactionUpdate.signature).toFinset
  trades : s.redis.asList (tradesKey mint) =
    .ok ((stored p maxTradesPerToken (freshUpdates mint updates)).map fun u => u.record.encode serde)

theorem Filled.congr {p : Profile} {serde : SerdeJson} {n : UInt64} {us vs : List TransactionUpdate} {s t : StoreState}
    {m : String} (h : Filled p serde n us s m) (hfresh : freshUpdates m vs = freshUpdates m us)
    (hsigs : t.redis (signaturesKey m) = s.redis (signaturesKey m))
    (htrades : t.redis (tradesKey m) = s.redis (tradesKey m)) : Filled p serde n vs t m where
  sigs := by rw [hfresh, ← h.sigs, KeyValue.asSet_congr hsigs]
  trades := by rw [hfresh, ← h.trades, KeyValue.asList_congr htrades]

/-- One more update. -/
theorem Filled.next {p : Profile} {serde : SerdeJson} {n : UInt64} {stop : ℤ} {us : List TransactionUpdate}
    {s : StoreState} (hstop : lastIndex p n = .ok stop) (h : ∀ m, Filled p serde n us s m) (u : TransactionUpdate) :
    ∃ s', (storeTrade p serde n .fine u.mint u.record).run s = (.ok (), s') ∧
      ∀ m, Filled p serde n (us ++ [u]) s' m := by
  refine ⟨_, storeTrade_fine hstop (h u.mint).sigs, fun m => ?_⟩
  have hsig : u.record.signature = u.signature := rfl
  by_cases hm : u.mint = m
  · subst hm
    by_cases hseen : u.signature ∈ (freshUpdates u.mint us).map TransactionUpdate.signature
    · rw [hsig, if_pos (List.mem_toFinset.mpr hseen)]
      exact (h u.mint).congr (freshUpdates_of_seen rfl hseen) rfl rfl
    · rw [hsig, if_neg (fun hmem => hseen (List.mem_toFinset.mp hmem))]
      obtain ⟨hlist, hset⟩ := KeyValue.execPushTrimAdd (u.record.encode serde) u.signature stop
        (tradesKey_ne_signaturesKey u.mint u.mint) (h u.mint).trades (h u.mint).sigs
      have hfresh := freshUpdates_of_new rfl hseen
      refine ⟨?_, ?_⟩
      · rw [hfresh, List.map_cons, List.toFinset_cons]
        exact hset
      · rw [hfresh, ← stored_map, List.map_cons, ← range_stored hstop, stored_map]
        exact hlist
  · split_ifs
    · exact (h m).congr (freshUpdates_of_ne hm us) rfl rfl
    · exact (h m).congr (freshUpdates_of_ne hm us)
        (KeyValue.exec_of_not_mem (storeCommands_keys (tradesKey_ne_signaturesKey _ _).symm
          fun h => hm (signaturesKey_inj.mp h).symm) _)
        (KeyValue.exec_of_not_mem (storeCommands_keys (fun h => hm (tradesKey_inj.mp h).symm)
          (tradesKey_ne_signaturesKey _ _)) _)

theorem Filled.all {p : Profile} {serde : SerdeJson} {n : UInt64} {stop : ℤ} {us vs : List TransactionUpdate}
    {s : StoreState} (hstop : lastIndex p n = .ok stop) (h : ∀ m, Filled p serde n us s m) (m : String) :
    Filled p serde n (us ++ vs) (storeTask p serde n (vs.map fun u => (u, .fine)) s) m := by
  induction vs generalizing us s with
  | nil =>
    rw [List.append_nil]
    exact h m
  | cons u vs ih =>
    obtain ⟨s', hrun, hs'⟩ := Filled.next hstop h u
    rw [List.map_cons, storeTask, hrun, ← List.singleton_append, ← List.append_assoc]
    exact ih hs'

/-- A store task that cannot compute the index ends with the first update. -/
theorem storeTask_of_panic {p : Profile} {serde : SerdeJson} {n : UInt64} {f : Failure} (hstop : lastIndex p n = .error f)
    (us : List TransactionUpdate) : storeTask p serde n (us.map fun u => (u, .fine)) .empty = .empty := by
  rcases us with _ | ⟨u, us⟩
  · rfl
  have hpanic : ∃ msg, f = .panic msg := by
    simp only [lastIndex] at hstop
    rcases p with _ | _ <;> split_ifs at hstop
    · cases hstop
      exact ⟨_, rfl⟩
  obtain ⟨msg, rfl⟩ := hpanic
  have hrun : (storeTrade p serde n .fine u.mint u.record).run .empty = (.error (.panic msg), .empty) := by
    simp [storeTrade, isSignatureExists, StoreReplies.fine, Proc.bind_run, orFail, KeyValue.sismember, hstop,
      Except.map, Except.mapError, StoreState.empty, KeyValue.Store.asSet]
  rw [List.map_cons, storeTask, hrun]

/-- **What the list of a mint holds** after any updates: the records with new signatures, as far as
they are kept. -/
theorem storeAll_trades (p : Profile) (serde : SerdeJson) (n : UInt64) (us : List TransactionUpdate) (m : String) :
    (storeAll p serde n us).redis.asList (tradesKey m) =
      .ok ((stored p n (freshUpdates m us)).map fun u => u.record.encode serde) := by
  simp only [storeAll]
  rcases hstop : lastIndex p n with f | stop
  · have hkeeps : ¬ KeepsNewest p n := by
      intro hkeeps
      obtain ⟨stop, hok⟩ := hkeeps.lastIndex
      rw [hstop] at hok
      cases hok
    rw [storeTask_of_panic hstop, stored, if_neg hkeeps]
    rfl
  · have hempty : ∀ m, Filled p serde n [] .empty m := by
      intro m
      refine ⟨rfl, ?_⟩
      simp [freshUpdates, stored, StoreState.empty, KeyValue.Store.asList]
    exact (Filled.all hstop hempty m).trades

/-! ### Reading -/

/-- A reading call that is answered from a server. -/
structure ReadReplies.Of (r : ReadReplies) (s : KeyValue.Store) : Prop where
  connect : r.connect = .ok ()
  lrange : ∀ key start stop, r.lrange key start stop = (KeyValue.lrange s key start stop).mapError anyhow

/-- The replies of a server to which no key is known. -/
def readsOf (s : KeyValue.Store) : ReadReplies where
  connect := .ok ()
  lrange key start stop := (KeyValue.lrange s key start stop).mapError anyhow
  keys _ := .ok []
  now := 0

theorem readsOf_of (s : KeyValue.Store) : (readsOf s).Of s := ⟨rfl, fun _ _ _ => rfl⟩

section Reading

variable {p : Profile} {serde : SerdeJson} {value : TokenTradeRecord → ℚ} {r : ReadReplies} {s : KeyValue.Store}
  {m : String} {records : List TokenTradeRecord}

/-- **What a reading call returns**: the latest records that its limit covers, read back and sorted. -/
theorem getRecentTrades_eq (hr : r.Of s)
    (hlist : s.asList (tradesKey m) = .ok (records.map (TokenTradeRecord.encode serde)))
    (hreads : ∀ x ∈ records, serde.ReadsAs value x ∧ x.blocktimeUs < 2 ^ 63) (limit : UInt64) :
    getRecentTrades p serde r m limit = lastIndex p limit >>= fun _ =>
      (readBackAll p ((records.take (span limit records.length)).map (TokenTradeRecord.reread value))).map
        sortByBlocktime := by
  simp only [getRecentTrades]
  rw [hr.connect]
  rcases hstop : lastIndex p limit with f | stop
  · rfl
  have hrange : KeyValue.lrange s (tradesKey m) 0 stop =
      .ok ((records.take (span limit records.length)).map (TokenTradeRecord.encode serde)) := by
    rw [KeyValue.lrange, hlist, List.map_take]
    simp only [Except.map, range_lastIndex hstop, List.length_map]
  have hdecode := decodeAll_encode (p := p) (fun x hx => hreads x (List.mem_of_mem_take (i := span limit records.length) hx))
    r.now
  simp only [ok_bind, context_ok, orFail, hr.lrange, hrange, Except.mapError, hdecode]
  rcases readBackAll p ((records.take (span limit records.length)).map (TokenTradeRecord.reread value)) with f | l <;> rfl

/-- The change over some records, newest first. -/
def priceChange (trades : List TokenTradeRecord) : Option ℚ :=
  match trades.head?, trades.getLast? with
  | some newest, some oldest =>
    if trades.length < 2 ∨ oldest.price = 0 then none
    else some ((newest.price - oldest.price) / oldest.price * 100)
  | _, _ => none

theorem priceChange_eq {trades : List TokenTradeRecord} {newest oldest : TokenTradeRecord}
    (hnewest : trades.head? = some newest) (holdest : trades.getLast? = some oldest) :
    priceChange trades = if 2 ≤ trades.length ∧ oldest.price ≠ 0 then
      some ((newest.price - oldest.price) / oldest.price * 100) else none := by
  simp only [priceChange]
  rw [hnewest, holdest]
  by_cases hsome : 2 ≤ trades.length ∧ oldest.price ≠ 0
  · have hnot : ¬ (trades.length < 2 ∨ oldest.price = 0) := by
      rintro (hlt | hzero)
      · omega
      · exact hsome.2 hzero
    rw [if_pos hsome]
    exact if_neg hnot
  · have hnone : trades.length < 2 ∨ oldest.price = 0 := by
      by_contra hnot
      rw [not_or, not_lt] at hnot
      exact hsome hnot
    rw [if_neg hsome]
    exact if_pos hnone

theorem calculatePriceChangeFromRecords_eq (p : Profile) (serde : SerdeJson) (r : ReadReplies) (m : String)
    (recordCount : UInt64) :
    calculatePriceChangeFromRecords p serde r m recordCount =
      (getRecentTrades p serde r m recordCount).map priceChange := by
  simp only [calculatePriceChangeFromRecords]
  rcases getRecentTrades p serde r m recordCount with f | trades
  · rfl
  rw [ok_bind]
  simp only [Except.map, priceChange, TokenTradeRecord.effectivePrice]
  rcases trades.head? with _ | newest
  · rfl
  rcases trades.getLast? with _ | oldest
  · rfl
  by_cases hnone : trades.length < 2 ∨ oldest.price = 0
  · simp only [hnone, if_true]
    rfl
  · simp only [hnone, if_false]
    rfl

/-- The price that is returned is the one read of the newest record in the list. -/
theorem getLatestPriceFromTrades_eq (hr : r.Of s)
    (hlist : s.asList (tradesKey m) = .ok (records.map (TokenTradeRecord.encode serde)))
    (hreads : ∀ x ∈ records, serde.ReadsAs value x ∧ x.blocktimeUs < 2 ^ 63) :
    getLatestPriceFromTrades p serde r m = match records.head? with
      | none => .ok none
      | some newest => ((newest.reread value).readBack p).map fun _ => some (value newest) := by
  have hspan : span 1 records.length = 1 := rfl
  have hindex : lastIndex p 1 = .ok 0 := by cases p <;> rfl
  simp only [getLatestPriceFromTrades]
  rw [getRecentTrades_eq hr hlist hreads, hspan, hindex, ok_bind]
  rcases records with _ | ⟨newest, records⟩
  · rfl
  · simp only [List.take_succ_cons, List.take_zero, List.map_cons, List.map_nil, List.head?_cons, readBackAll,
      TokenTradeRecord.readBack, TokenTradeRecord.reread]
    rcases blocktimeOfInt p newest.blocktimeUs with f | t <;> rfl

end Reading

/-! ### Events -/

/-- The swap an event tells of. -/
def Event.swap : Event → SwapEvent
  | .buy e => e
  | .sell e => e

/-- Whether it was a buy. -/
def Event.isBuy : Event → Bool
  | .buy _ => true
  | .sell _ => false

/-- The updates that are sent for some events. The handler of an event runs in a task of its own, so
that a panic there loses its event and no other. -/
def updatesOf (p : Profile) (events : List Event) : List TransactionUpdate :=
  events.filterMap fun e => match handleEvent p e with
    | .ok u => u
    | .error _ => none

namespace SwapEvent

variable (e : SwapEvent)

/-- One side of the swap is wrapped SOL. -/
def HasWsol : Prop := e.baseMint = wsolTokenAccount ∨ e.quoteMint = wsolTokenAccount

instance : Decidable e.HasWsol := inferInstanceAs (Decidable (_ ∨ _))

/-- The token traded for wrapped SOL. -/
def token : Pubkey := if e.baseMint = wsolTokenAccount then e.quoteMint else e.baseMint

/-- What the pool holds of the token. -/
def tokenReserves : UInt64 :=
  if e.baseMint = wsolTokenAccount then e.poolQuoteTokenReserves else e.poolBaseTokenReserves

/-- What the pool holds of wrapped SOL. -/
def solReserves : UInt64 :=
  if e.baseMint = wsolTokenAccount then e.poolBaseTokenReserves else e.poolQuoteTokenReserves

/-- The price after the swap, in SOL for a token: the one has nine decimals, the other six. -/
def price : ℚ := if e.tokenReserves = 0 then 0 else e.solReserves.toNat / (1000 * e.tokenReserves.toNat)

/-- The same price in `f64`. -/
def computedPrice (number : Rounding 53) : ℚ :=
  if e.tokenReserves > 0 then
    number.div (number.div (number.round e.solReserves.toNat) (number.round e.tokenReserves.toNat)) 1000
  else 0

end SwapEvent

theorem mulI64_ok {p : Profile} {a b : ℤ} (h : -2 ^ 63 ≤ a * b ∧ a * b < 2 ^ 63) : mulI64 p a b = .ok (a * b) := if_pos h

/-- The update of an event, for a time. -/
def Event.updateAt (e : Event) (blocktimeUs : ℤ) : TransactionUpdate where
  mint := e.swap.token.toText
  tokenAmount := e.swap.tokenReserves
  solAmount := e.swap.solReserves
  isBuy := e.isBuy
  signature := e.swap.signature
  blocktimeUs := blocktimeUs

/-- **The update of an event.** -/
theorem handleEvent_eq (p : Profile) (e : Event) :
    handleEvent p e =
      if e.swap.HasWsol then (mulI64 p e.swap.timestamp 1000000).map fun t => some (e.updateAt t) else .ok none := by
  have hswap : handleEvent p e = handleSwap p e.isBuy e.swap := by cases e <;> rfl
  rw [hswap, handleSwap]
  by_cases hw : e.swap.HasWsol
  · have hside : ¬ (¬ e.swap.baseMint = wsolTokenAccount ∧ ¬ e.swap.quoteMint = wsolTokenAccount) := by
      rw [← not_or]
      exact not_not_intro hw
    rw [if_pos hw, if_neg hside]
    rcases mulI64 p e.swap.timestamp 1000000 with f | t <;> rfl
  · rw [if_neg hw, if_pos (not_or.mp hw)]
    rfl

theorem record_price_updateAt (e : Event) (t : ℤ) : (e.updateAt t).record.price = e.swap.price := by
  have hpos : e.swap.tokenReserves > 0 ↔ ¬ e.swap.tokenReserves = 0 := UInt64.pos_iff_ne_zero
  simp only [TransactionUpdate.record, TokenTradeRecord.fromTransaction, Event.updateAt, SwapEvent.price, hpos, ite_not]
  split_ifs
  · rfl
  · rw [div_div, mul_comm]

end PumpSwapBot.Rust
