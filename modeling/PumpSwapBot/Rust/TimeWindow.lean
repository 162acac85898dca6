import PumpSwapBot.Rust.Arrivals

/-!
# The trades of the last seconds

`get_trades_in_window` and `calculate_price_change` of `trading.rs`: of all records that the list of a mint holds, those not
older than some seconds. The list was trimmed to its capacity as it was filled, by the order of arrival.

## What is proved

* `window_complete_iff` — a call returns every trade of the mint there has been in these seconds, at the price that is read of
  it, exactly if no trade in them was trimmed away, and if the times that are left can be read back.
* `calculatePriceChange_of_complete` — the change is then the one over all of these.
-/

namespace PumpSwapBot.Rust

open PumpSwapBot.Sdk PumpSwapBot.Library

/-! ### The functions -/

/-- The difference of two `i64`. -/
def subI64 (p : Profile) (a b : ℤ) : Result ℤ :=
  if -2 ^ 63 ≤ a - b ∧ a - b < 2 ^ 63 then .ok (a - b)
  else match p with
    | .dev => .error (.panic "attempt to subtract with overflow")
    | .release => .ok (Int.bmod (a - b) (2 ^ 64))

/-- The time some seconds ago, `now_us - (seconds as i64 * 1_000_000)`; a `u64` becomes an `i64` as a `usize` an `isize`. -/
def cutoff (p : Profile) (now : ℤ) (seconds : UInt64) : Result ℤ := do
  let us ← mulI64 p (asIsize seconds) 1000000
  subI64 p now us

section Read

variable (p : Profile) (serde : SerdeJson) (maxTradesPerToken : UInt64)

/-- The trades of the last seconds, newest first. -/
def getTradesInWindow (r : ReadReplies) (mint : String) (now : ℤ) (seconds : UInt64) : Result (List TokenTradeRecord) := do
  let cutoffUs ← cutoff p now seconds
  let trades ← getRecentTrades p serde r mint maxTradesPerToken
  return trades.filter fun t => cutoffUs ≤ t.blocktimeUs

/-- The change of the price over these, in percent. -/
def calculatePriceChange (r : ReadReplies) (mint : String) (now : ℤ) (seconds : UInt64) : Result (Option ℚ) := do
  let trades ← getTradesInWindow p serde maxTradesPerToken r mint now seconds
  match trades.head?, trades.getLast? with
  | some newest, some oldest =>
    if trades.length < 2 ∨ oldest.effectivePrice = 0 then return none
    else return some ((newest.effectivePrice - oldest.effectivePrice) / oldest.effectivePrice * 100)
  | _, _ => return none

end Read

/-! ### What is left of a mint's trades -/

/-- Of the items pushed so far, newest first, those that have been trimmed away. -/
def trimmed {α : Type} (p : Profile) (maxTradesPerToken : UInt64) (items : List α) : List α :=
  if KeepsNewest p maxTradesPerToken then items.drop (span maxTradesPerToken items.length) else items

theorem stored_append_trimmed {α : Type} (p : Profile) (n : UInt64) (items : List α) :
    stored p n items ++ trimmed p n items = items := by
  simp only [trimmed, stored]
  split_ifs
  · exact List.take_append_drop ..
  · exact List.nil_append items

/-- With the capacity as its limit, a call reads all there is. -/
theorem take_span_stored {α : Type} {p : Profile} {n : UInt64} (h : KeepsNewest p n) (items : List α) :
    (stored p n items).take (span n (stored p n items).length) = stored p n items := by
  have hle : n.toNat ≤ 2 ^ 63 := by rcases h with h | h <;> omega
  refine List.take_of_length_le ?_
  by_cases hzero : n = 0
  · rw [span, if_pos hzero]
  · have hspan : ∀ k, span n k = n.toNat := fun k => by rw [span, if_neg hzero, if_pos hle]
    rw [hspan, stored, if_pos h, hspan, List.length_take]
    exact min_le_left ..

section Complete

variable {p : Profile} {serde : SerdeJson} {value : TokenTradeRecord → ℚ} {n : UInt64} {us : List TransactionUpdate}
  {m : String} {r : ReadReplies} {now c : ℤ} {seconds : UInt64}

/-- All trades of a mint that there have been, as they are read back, newest first. -/
def allTrades (p : Profile) (value : TokenTradeRecord → ℚ) (m : String) (us : List TransactionUpdate) :
    List TokenTradeRecord :=
  sortByBlocktime ((freshUpdates m us).map (TransactionUpdate.back p value))

/-- Those not older than a time. -/
def since (c : ℤ) (trades : List TokenTradeRecord) : List TokenTradeRecord := trades.filter fun t => c ≤ t.blocktimeUs

theorem since_sortByBlocktime (c : ℤ) (trades : List TokenTradeRecord) :
    since c (sortByBlocktime trades) = sortByBlocktime (since c trades) :=
  show (sortDown TokenTradeRecord.blocktimeUs trades).filter _ = sortDown TokenTradeRecord.blocktimeUs (trades.filter _) from
    filter_sortDown _ trades

/-- Leaving some trades out is noticed, unless all of them are older. -/
theorem since_sort_append (A B : List TokenTradeRecord) :
    since c (sortByBlocktime A) = since c (sortByBlocktime (A ++ B)) ↔ ∀ t ∈ B, t.blocktimeUs < c := by
  rw [since_sortByBlocktime, since_sortByBlocktime, since, since, List.filter_append]
  constructor
  · intro heq t ht
    have hlength := congrArg List.length heq
    simp only [sortByBlocktime, List.length_insertionSort, List.length_append] at hlength
    have hnil : B.filter (fun t => decide (c ≤ t.blocktimeUs)) = [] := List.eq_nil_of_length_eq_zero (by omega)
    simpa using List.filter_eq_nil_iff.mp hnil t ht
  · intro hold
    have hnil : B.filter (fun t => decide (c ≤ t.blocktimeUs)) = [] :=
      List.filter_eq_nil_iff.mpr fun t ht => by simpa using hold t ht
    rw [hnil, List.append_nil]

/-- What a call returns: of what is left, the trades not older than the cutoff. -/
theorem getTradesInWindow_eq (hkeeps : KeepsNewest p n) (hserde : ∀ u ∈ freshUpdates m us, serde.ReadsAs value u.record)
    (htimes : ∀ u ∈ freshUpdates m us, u.blocktimeUs < 2 ^ 63) (hr : r.Of (storeAll p serde n us).redis)
    (hcutoff : cutoff p now seconds = .ok c) :
    getTradesInWindow p serde n r m now seconds =
      (readBackAll p (((stored p n (freshUpdates m us)).map TransactionUpdate.record).map (TokenTradeRecord.reread value))).map
        fun records => since c (sortByBlocktime records) := by
  have hlist : (storeAll p serde n us).redis.asList (tradesKey m) =
      .ok (((stored p n (freshUpdates m us)).map TransactionUpdate.record).map (TokenTradeRecord.encode serde)) := by
    rw [storeAll_trades, List.map_map]
    rfl
  have hread : ∀ x ∈ (stored p n (freshUpdates m us)).map TransactionUpdate.record,
      serde.ReadsAs value x ∧ x.blocktimeUs < 2 ^ 63 := by
    rw [List.forall_mem_map]
    exact fun u hu => ⟨hserde u (mem_of_mem_stored hu), htimes u (mem_of_mem_stored hu)⟩
  obtain ⟨stop, hstop⟩ := hkeeps.lastIndex
  rw [getTradesInWindow, hcutoff, ok_bind, getRecentTrades_eq hr hlist hread, hstop, ok_bind, List.length_map, ← List.map_take,
    take_span_stored hkeeps]
  rcases readBackAll p (((stored p n (freshUpdates m us)).map TransactionUpdate.record).map (TokenTradeRecord.reread value))
    with f | records <;> rfl

/-- **When the window is complete.** Let `serde_json` give the records back but for their prices. A call returns all trades
of the mint that there have been since the cutoff exactly if the times of those in the list can be read back, and every
trade that is no longer in the list is older. -/
theorem window_complete_iff (hkeeps : KeepsNewest p n) (hserde : ∀ u ∈ freshUpdates m us, serde.ReadsAs value u.record)
    (htimes : ∀ u ∈ freshUpdates m us, u.blocktimeUs < 2 ^ 63) (hr : r.Of (storeAll p serde n us).redis)
    (hcutoff : cutoff p now seconds = .ok c) :
    getTradesInWindow p serde n r m now seconds = .ok (since c (allTrades p value m us)) ↔
      (∀ u ∈ stored p n (freshUpdates m us), u.Readable p) ∧ ∀ u ∈ trimmed p n (freshUpdates m us), u.time p < c := by
  rw [getTradesInWindow_eq hkeeps hserde htimes hr hcutoff]
  by_cases hread : ∀ u ∈ stored p n (freshUpdates m us), u.Readable p
  · have hsplit : (freshUpdates m us).map (TransactionUpdate.back p value) =
        (stored p n (freshUpdates m us)).map (TransactionUpdate.back p value) ++
          (trimmed p n (freshUpdates m us)).map (TransactionUpdate.back p value) := by
      rw [← List.map_append, stored_append_trimmed]
    rw [readBackAll_of_readable hread, Except.map, Except.ok.injEq, allTrades, hsplit, since_sort_append,
      List.forall_mem_map, and_iff_right hread]
    rfl
  · rw [readBackAll_of_not_readable hread, Except.map]
    constructor
    · intro h
      cases h
    · exact fun h => (hread h.1).elim

theorem calculatePriceChange_eq (p : Profile) (serde : SerdeJson) (n : UInt64) (r : ReadReplies) (m : String) (now : ℤ)
    (seconds : UInt64) : calculatePriceChange p serde n r m now seconds =
      (getTradesInWindow p serde n r m now seconds).map priceChange := by
  simp only [calculatePriceChange]
  rcases getTradesInWindow p serde n r m now seconds with f | trades
  · rfl
  rw [ok_bind]
  simp only [Except.map, priceChange, TokenTradeRecord.effectivePrice]
  rcases trades.head? with _ | newest
  · rfl
  rcases trades.getLast? with _ | oldest
  · rfl
  by_cases hnone : trades.length < 2 ∨ oldest.price = 0
  · simp only [hnone, if_true]
    rfl
  · simp only [hnone, if_false]
    rfl

/-- The change is then the one over all trades since the cutoff. -/
theorem calculatePriceChange_of_complete
    (hcomplete : getTradesInWindow p serde n r m now seconds = .ok (since c (allTrades p value m us))) :
    calculatePriceChange p serde n r m now seconds = .ok (priceChange (since c (allTrades p value m us))) := by
  rw [calculatePriceChange_eq, hcomplete]
  rfl

end Complete

/-- A list of one trade has all of the last second, but not of the last two. -/
theorem window_complete_iff_sample :
    let r := readsOf (storeAll .release tableDoubleSerde 1 [sampleUpdate, sampleLaterUpdate]).redis
    let inWindow := getTradesInWindow .release tableDoubleSerde 1 r sampleUpdate.mint 1700000001500000
    let all := allTrades .release (TokenTradeRecord.rereadPrice .binary64 id) sampleUpdate.mint
      [sampleUpdate, sampleLaterUpdate]
    inWindow 1 = .ok (since 1700000000500000 all) ∧ inWindow 2 ≠ .ok (since 1699999999500000 all) := by
  intro r inWindow all
  have htimes : ∀ u ∈ freshUpdates sampleUpdate.mint [sampleUpdate, sampleLaterUpdate], u.blocktimeUs < 2 ^ 63 := by
    decide +kernel
  have hstored : stored .release 1 (freshUpdates sampleUpdate.mint [sampleUpdate, sampleLaterUpdate]) = [sampleLaterUpdate] := by
    decide +kernel
  have htrimmed : trimmed .release 1 (freshUpdates sampleUpdate.mint [sampleUpdate, sampleLaterUpdate]) = [sampleUpdate] := by
    decide +kernel
  have htime : sampleUpdate.time .release = 1700000000000000 := by decide +kernel
  have hiff : ∀ {c seconds}, cutoff .release 1700000001500000 seconds = .ok c →
      (inWindow seconds = .ok (since c all) ↔ sampleUpdate.time .release < c) := by
    intro c seconds hcutoff
    rw [window_complete_iff (by decide) (fun u _ => tableDoubleSerde_readsAs u.record) htimes (readsOf_of _) hcutoff, hstored, htrimmed]
    simp only [List.forall_mem_singleton, and_iff_right_iff_imp]
    exact fun _ => ⟨_, rfl⟩
  refine ⟨(hiff rfl).mpr ?_, fun h => absurd ((hiff rfl).mp h) ?_⟩ <;> rw [htime] <;> decide

end PumpSwapBot.Rust
