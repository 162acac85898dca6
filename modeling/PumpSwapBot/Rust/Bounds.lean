import PumpSwapBot.Rust.Signals

/-!
# How many records

Two numbers of the configuration bound the records of a mint: `buy_record_count` those that are read, and
`max_trades_per_token` those that are kept. Both become an index, `n as isize - 1`, and to the server an index below
zero counts from the end.

## What is proved

* `getRecentTrades_length_le` and `storeTrades_bounded` — for numbers from 1 up to 2^63 the bounds hold, for every list
  and after every sequence of storing calls.
* `size_bounds_iff` — for no others: 0 bounds nothing, and from 2^63 on the conversion overflows.
-/

namespace PumpSwapBot.Rust

open PumpSwapBot.Sdk PumpSwapBot.Library

/-! ### The index -/

/-- Neither the conversion of a number to `isize` nor the subtraction of 1 overflows. -/
def FitsIsize (n : UInt64) : Prop := asIsize n = n.toNat ∧ -2 ^ 63 ≤ asIsize n - 1

theorem fitsIsize_iff {n : UInt64} : FitsIsize n ↔ n.toNat < 2 ^ 63 := by
  simp only [FitsIsize, asIsize]
  split_ifs with h
  · exact iff_of_true ⟨rfl, by omega⟩ h
  · exact iff_of_false (fun hfits => by have := hfits.1; omega) h

/-- An index that fits covers at most so many items. -/
theorem length_range_lastIndex_le {α : Type} {p : Profile} {n : UInt64} {stop : ℤ} (h : lastIndex p n = .ok stop)
    (hn : 1 ≤ n.toNat ∧ n.toNat < 2 ^ 63) (items : List α) : (KeyValue.range items 0 stop).length ≤ n.toNat := by
  rw [range_lastIndex h, span_eq ⟨hn.1, hn.2.le⟩]
  exact List.length_take_le _ _

theorem lastIndex_zero (p : Profile) : lastIndex p 0 = .ok (-1) := by cases p <;> rfl

/-- The index of 0 covers all items. -/
theorem range_neg_one {α : Type} (items : List α) : KeyValue.range items 0 (-1) = items := by
  rw [range_lastIndex (lastIndex_zero .release)]
  exact List.take_length

/-! ### Reading -/

section Reading

variable {p : Profile} {serde : SerdeJson} {r : ReadReplies} {s : KeyValue.Store} {mint : String} {limit : UInt64}
  {texts : List String} {records : List TokenTradeRecord} {now : ℤ}

/-- Each text that is read gives one record. -/
theorem decodeAll_length (h : decodeAll p serde now texts = .ok records) : records.length = texts.length := by
  induction texts generalizing records with
  | nil =>
    cases h
    rfl
  | cons text texts ih =>
    obtain ⟨record, -, h⟩ := bind_eq_ok.mp h
    obtain ⟨records', hrecords, h⟩ := bind_eq_ok.mp h
    cases h
    rw [List.length_cons, List.length_cons, ih hrecords]

/-- Texts that can all be read are read. -/
theorem decodeAll_isOk (h : ∀ text ∈ texts, ∃ record, TokenTradeRecord.decode p serde now text = .ok record) :
    ∃ records, decodeAll p serde now texts = .ok records := by
  induction texts with
  | nil => exact ⟨[], rfl⟩
  | cons text texts ih =>
    rw [List.forall_mem_cons] at h
    obtain ⟨record, hrecord⟩ := h.1
    obtain ⟨records, hrecords⟩ := ih h.2
    refine ⟨record :: records, ?_⟩
    rw [decodeAll, hrecord, context_ok, ok_bind, hrecords]
    rfl

/-- A reading call returns the records of the texts that its index covers. -/
theorem getRecentTrades_of_list (hr : r.Of s) (hlist : s.asList (tradesKey mint) = .ok texts) :
    getRecentTrades p serde r mint limit = lastIndex p limit >>= fun stop =>
      (decodeAll p serde r.now (KeyValue.range texts 0 stop)).map sortByBlocktime := by
  simp only [getRecentTrades]
  rw [hr.connect]
  rcases lastIndex p limit with f | stop
  · rfl
  simp only [ok_bind, context_ok, orFail, hr.lrange, KeyValue.lrange, hlist, Except.map, Except.mapError]
  rcases decodeAll p serde r.now (KeyValue.range texts 0 stop) with f | records <;> rfl

/-- The records that are returned are as many as the texts that are covered. -/
theorem length_getRecentTrades (hr : r.Of s) (hlist : s.asList (tradesKey mint) = .ok texts)
    (h : getRecentTrades p serde r mint limit = .ok records) :
    ∃ stop, lastIndex p limit = .ok stop ∧ records.length = (KeyValue.range texts 0 stop).length := by
  rw [getRecentTrades_of_list hr hlist] at h
  obtain ⟨stop, hstop, h⟩ := bind_eq_ok.mp h
  rcases hdecode : decodeAll p serde r.now (KeyValue.range texts 0 stop) with f | decoded
  · rw [hdecode] at h
    cases h
  · rw [hdecode] at h
    cases h
    refine ⟨stop, hstop, ?_⟩
    rw [sortByBlocktime, List.length_insertionSort, decodeAll_length hdecode]

theorem getRecentTrades_length_le (hlimit : limit.toNat < 2 ^ 63) (hsome : 1 ≤ limit.toNat ∨ texts = []) (hr : r.Of s)
    (hlist : s.asList (tradesKey mint) = .ok texts) (h : getRecentTrades p serde r mint limit = .ok records) :
    records.length ≤ limit.toNat := by
  obtain ⟨stop, hstop, hlength⟩ := length_getRecentTrades hr hlist h
  rw [hlength]
  obtain hpos | rfl := hsome
  · exact length_range_lastIndex_le hstop ⟨hpos, hlimit⟩ texts
  · rw [KeyValue.range_zero_eq, List.take_nil]
    exact Nat.zero_le _

end Reading

/-- No reading call with the limit, of a list with these texts, returns more records, and nothing overflows in it. -/
def ReadBounded (p : Profile) (serde : SerdeJson) (limit : UInt64) (texts : List String) : Prop :=
  FitsIsize limit ∧ ∀ (s : KeyValue.Store) (r : ReadReplies) mint records, r.Of s →
    s.asList (tradesKey mint) = .ok texts → getRecentTrades p serde r mint limit = .ok records →
    records.length ≤ limit.toNat

section ReadBounded

variable {p : Profile} {serde : SerdeJson} {limit : UInt64} {texts : List String}

theorem readBounded (hlimit : limit.toNat < 2 ^ 63) (hsome : 1 ≤ limit.toNat ∨ texts = []) :
    ReadBounded p serde limit texts :=
  ⟨fitsIsize_iff.mpr hlimit, fun _ _ _ _ hr hlist h => getRecentTrades_length_le hlimit hsome hr hlist h⟩

/-- A server with one list. -/
def oneList (mint : String) (texts : List String) : KeyValue.Store :=
  KeyValue.Store.putList (fun _ => none) (tradesKey mint) texts

/-- Without a limit all records are returned. -/
theorem not_readBounded_zero {now : ℤ} (hne : texts ≠ [])
    (hread : ∀ text ∈ texts, ∃ record, TokenTradeRecord.decode p serde now text = .ok record) :
    ¬ ReadBounded p serde 0 texts := by
  rintro ⟨-, hbound⟩
  have hr : ({ readsOf (oneList "m" texts) with now := now } : ReadReplies).Of (oneList "m" texts) :=
    ⟨rfl, fun _ _ _ => rfl⟩
  have hlist : (oneList "m" texts).asList (tradesKey "m") = .ok texts := KeyValue.asList_putList _ _ _
  obtain ⟨records, hrecords⟩ := decodeAll_isOk hread
  have hcall : getRecentTrades p serde { readsOf (oneList "m" texts) with now := now } "m" 0 =
      .ok (sortByBlocktime records) := by
    rw [getRecentTrades_of_list hr hlist, lastIndex_zero, ok_bind, range_neg_one, hrecords]
    rfl
  have hle := hbound _ _ "m" _ hr hlist hcall
  rw [sortByBlocktime, List.length_insertionSort, decodeAll_length hrecords] at hle
  exact hne (List.eq_nil_of_length_eq_zero (Nat.le_zero.mp hle))

end ReadBounded

/-! ### Storing -/

/-- A call of `store_trade`, with what the server answers. -/
structure StoreCall where
  mint : String
  record : TokenTradeRecord
  replies : StoreReplies

/-- A sequence of calls of `store_trade`. -/
def storeTrades (p : Profile) (serde : SerdeJson) (maxTradesPerToken : UInt64) (calls : List StoreCall)
    (s : StoreState) : StoreState :=
  calls.foldl (fun s c => ((storeTrade p serde maxTradesPerToken c.replies c.mint c.record).run s).2) s

/-- No mint has more than so many records. -/
def AtMost (n : UInt64) (s : StoreState) : Prop :=
  ∀ mint items, s.redis.asList (tradesKey mint) = .ok items → items.length ≤ n.toNat

section Storing

variable {p : Profile} {serde : SerdeJson} {n : UInt64}

/-- A record that is stored stays within the bound, whatever the server answers. -/
theorem AtMost.storeTrade {s : StoreState} (h : AtMost n s) (hn : 1 ≤ n.toNat ∧ n.toNat < 2 ^ 63) (r : StoreReplies)
    (mint : String) (record : TokenTradeRecord) : AtMost n ((storeTrade p serde n r mint record).run s).2 := by
  rcases storeTrade_cases p serde n r mint record s with hs | ⟨stop, hstop, -, hs⟩
  · rw [hs]
    exact h
  rw [hs]
  intro m items hitems
  by_cases hm : m = mint
  · subst hm
    dsimp only [storeCommands] at hitems
    rw [KeyValue.asList_execPushTrimAdd _ _ _ (tradesKey_ne_signaturesKey m m)] at hitems
    rcases hbefore : s.redis.asList (tradesKey m) with e | before
    · rw [hbefore] at hitems
      cases hitems
    · rw [hbefore] at hitems
      cases hitems
      exact length_range_lastIndex_le hstop hn _
  · have hkey : KeyValue.exec s.redis (storeCommands serde stop mint record) (tradesKey m) = s.redis (tradesKey m) :=
      KeyValue.exec_of_not_mem (storeCommands_keys (fun heq => hm (tradesKey_inj.mp heq))
        (tradesKey_ne_signaturesKey _ _)) _
    rw [KeyValue.asList_congr hkey] at hitems
    exact h m items hitems

/-- **The bound of the kept records**, after every sequence of calls. -/
theorem storeTrades_bounded {s : StoreState} (h : AtMost n s) (hn : 1 ≤ n.toNat ∧ n.toNat < 2 ^ 63)
    (calls : List StoreCall) : AtMost n (storeTrades p serde n calls s) := by
  induction calls generalizing s with
  | nil => exact h
  | cons c calls ih => exact ih (h.storeTrade hn c.replies c.mint c.record)

/-- No sequence of storing calls leaves more records than the bound, and nothing overflows in them. -/
def StoreBounded (p : Profile) (serde : SerdeJson) (n : UInt64) : Prop :=
  FitsIsize n ∧ ∀ s calls, AtMost n s → AtMost n (storeTrades p serde n calls s)

theorem atMost_empty (n : UInt64) : AtMost n StoreState.empty := by
  intro mint items hitems
  cases hitems
  exact Nat.zero_le _

/-- With the bound 0 a record that is stored stays. -/
theorem storeTrades_zero (p : Profile) (serde : SerdeJson) (record : TokenTradeRecord) :
    (storeTrades p serde 0 [⟨record.mint, record, .fine⟩] .empty).redis.asList (tradesKey record.mint) =
      .ok [record.encode serde] := by
  show ((Rust.storeTrade p serde 0 .fine record.mint record).run .empty).2.redis.asList (tradesKey record.mint) = _
  have hset : StoreState.empty.redis.asSet (signaturesKey record.mint) = .ok ∅ := rfl
  rw [storeTrade_fine (lastIndex_zero p) hset, if_neg (Finset.notMem_empty _)]
  dsimp only [storeCommands]
  rw [KeyValue.asList_execPushTrimAdd _ _ _ (tradesKey_ne_signaturesKey _ _)]
  exact congrArg Except.ok (range_neg_one _)

theorem not_storeBounded_zero : ¬ StoreBounded p serde 0 := by
  rintro ⟨-, hbound⟩
  have hle := hbound _ _ (atMost_empty 0) _ _ (storeTrades_zero p serde sampleUpdate.record)
  simp at hle

/-- **When the sizes are bounded.** A reading call is bounded by its limit exactly if the limit is less than 2^63 and not
0, or the list is empty; of a list that cannot be read only the one half is said, since then nothing is returned. The
kept records are bounded exactly if the bound is less than 2^63 and not 0. -/
theorem size_bounds_iff (p : Profile) (serde : SerdeJson) :
    (∀ (limit : UInt64) texts, limit.toNat < 2 ^ 63 ∧ (1 ≤ limit.toNat ∨ texts = []) →
      ReadBounded p serde limit texts) ∧
    (∀ (limit : UInt64) texts now,
      (∀ text ∈ texts, ∃ record, TokenTradeRecord.decode p serde now text = .ok record) →
      ReadBounded p serde limit texts → limit.toNat < 2 ^ 63 ∧ (1 ≤ limit.toNat ∨ texts = [])) ∧
    ∀ n : UInt64, StoreBounded p serde n ↔ 1 ≤ n.toNat ∧ n.toNat < 2 ^ 63 := by
  have hzero : ∀ n : UInt64, ¬ 1 ≤ n.toNat → n = 0 := fun n hn => UInt64.toNat.inj (by simpa using hn)
  refine ⟨fun limit texts h => readBounded h.1 h.2, fun limit texts now hread h => ?_, fun n => ⟨fun h => ?_, fun h => ?_⟩⟩
  · refine ⟨fitsIsize_iff.mp h.1, ?_⟩
    by_contra hnot
    rw [not_or] at hnot
    obtain rfl := hzero limit hnot.1
    exact not_readBounded_zero hnot.2 hread h
  · refine ⟨?_, fitsIsize_iff.mp h.1⟩
    by_contra hnot
    obtain rfl := hzero n hnot
    exact not_storeBounded_zero h
  · exact ⟨fitsIsize_iff.mpr h.2, fun s calls hs => storeTrades_bounded hs h calls⟩

end Storing

/-- Where no record is to be kept and none to be read, the first one that is stored is kept and read. -/
theorem size_bounds_exceeded :
    let s := storeTrades .release sampleStreamSerde 0 [⟨sampleUpdate.mint, sampleUpdate.record, .fine⟩] .empty
    (∃ items, s.redis.asList (tradesKey sampleUpdate.mint) = .ok items ∧ 0 < items.length) ∧
      getRecentTrades .release sampleStreamSerde (readsOf s.redis) sampleUpdate.mint 0 = .ok [sampleUpdate.record] := by
  intro s
  have hlist : s.redis.asList (tradesKey sampleUpdate.mint) = .ok [sampleUpdate.record.encode sampleStreamSerde] :=
    storeTrades_zero .release sampleStreamSerde sampleUpdate.record
  have hkeeps : sampleTexts.lookup (sampleUpdate.record.encode sampleStreamSerde) = some sampleUpdate.record := by
    decide +kernel
  have hback : sampleUpdate.record.readBack .release = .ok sampleUpdate.record := by decide +kernel
  refine ⟨⟨_, hlist, Nat.zero_lt_one⟩, ?_⟩
  rw [getRecentTrades_of_list (readsOf_of s.redis) hlist, lastIndex_zero, ok_bind, range_neg_one, decodeAll,
    decode_encode (sampleStreamSerde_keeps hkeeps).readsAs (by decide), reread_price, hback]
  rfl

end PumpSwapBot.Rust
