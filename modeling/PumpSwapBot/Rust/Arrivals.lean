import PumpSwapBot.Rust.Signals
import Mathlib.Data.Rat.Denumerable
import Mathlib.Logic.Equiv.List

/-!
# Orders of arrival

The events of a mint are handled in tasks of their own, so that their records can reach the store in any
order. The list of a mint is in the order of arrival; a reading call cuts it first and sorts what is
left by time.

## What is proved

`samePrices_iff` — two orders of arrival lead to the same prices, whatever the amounts are, exactly
if the record with the greatest time comes last in both, and the last few arrivals have the same
newest and the same oldest record in both, however many they are. The latest price has to survive its
way through the text.
-/

namespace PumpSwapBot.Rust

open PumpSwapBot.Sdk PumpSwapBot.Library

namespace TransactionUpdate

/-- The time of the update's record can be read back. -/
def Readable (p : Profile) (u : TransactionUpdate) : Prop := ∃ t, blocktimeOfInt p u.blocktimeUs = .ok t

/-- The time that is read back. -/
def time (p : Profile) (u : TransactionUpdate) : ℤ :=
  match blocktimeOfInt p u.blocktimeUs with
  | .ok t => t
  | .error _ => u.blocktimeUs

/-- The record that is read back. -/
def back (p : Profile) (value : TokenTradeRecord → ℚ) (u : TransactionUpdate) : TokenTradeRecord :=
  { u.record.reread value with blocktimeUs := u.time p }

/-- The update with other amounts. -/
def reprice (amounts : String → UInt64 × UInt64) (u : TransactionUpdate) : TransactionUpdate :=
  { u with tokenAmount := (amounts u.signature).1, solAmount := (amounts u.signature).2 }

end TransactionUpdate

/-- The latest updates of an order of arrival, newest first. -/
def window (updates : List TransactionUpdate) (j : ℕ) : List TransactionUpdate := updates.reverse.take j

/-! ### Windows -/

section Window

variable {p : Profile} {value : TokenTradeRecord → ℚ} {w : List TransactionUpdate} {u : TransactionUpdate}

theorem readBack_of_readable (h : u.Readable p) : (u.record.reread value).readBack p = .ok (u.back p value) := by
  obtain ⟨t, ht⟩ := h
  simp only [TokenTradeRecord.readBack, TransactionUpdate.back, TransactionUpdate.time]
  rw [show (u.record.reread value).blocktimeUs = u.blocktimeUs from rfl, ht]
  rfl

theorem readBack_of_not_readable (h : ¬ u.Readable p) :
    (u.record.reread value).readBack p = .error (.panic "attempt to multiply with overflow") := by
  rcases hback : (u.record.reread value).readBack p with f | r
  · rw [readBack_eq_error hback]
  · refine absurd ?_ h
    simp only [TokenTradeRecord.readBack] at hback
    simp only [TransactionUpdate.Readable]
    rw [show (u.record.reread value).blocktimeUs = u.blocktimeUs from rfl] at hback
    rcases ht : blocktimeOfInt p u.blocktimeUs with f | t
    · rw [ht] at hback
      cases hback
    · exact ⟨t, rfl⟩

theorem readBackAll_of_readable (h : ∀ u ∈ w, u.Readable p) :
    readBackAll p ((w.map TransactionUpdate.record).map (TokenTradeRecord.reread value)) =
      .ok (w.map (TransactionUpdate.back p value)) := by
  induction w with
  | nil => rfl
  | cons u w ih =>
    rw [List.forall_mem_cons] at h
    rw [List.map_cons, List.map_cons, List.map_cons, readBackAll, readBack_of_readable h.1, ih h.2]
    rfl

theorem readBackAll_of_not_readable (h : ¬ ∀ u ∈ w, u.Readable p) :
    readBackAll p ((w.map TransactionUpdate.record).map (TokenTradeRecord.reread value)) =
      .error (.panic "attempt to multiply with overflow") := by
  induction w with
  | nil => exact absurd (fun u hu => by cases hu) h
  | cons u w ih =>
    rw [List.map_cons, List.map_cons, readBackAll]
    by_cases hu : u.Readable p
    · rw [List.forall_mem_cons, not_and] at h
      rw [readBack_of_readable hu, ih (h hu)]
      rfl
    · rw [readBack_of_not_readable hu]
      rfl

/-- The change that is computed from a window. -/
def windowChange (p : Profile) (value : TokenTradeRecord → ℚ) (w : List TransactionUpdate) : Result (Option ℚ) :=
  (readBackAll p ((w.map TransactionUpdate.record).map (TokenTradeRecord.reread value))).map fun records =>
    priceChange (sortByBlocktime records)

theorem sortByBlocktime_back (p : Profile) (value : TokenTradeRecord → ℚ) (w : List TransactionUpdate) :
    sortByBlocktime (w.map (TransactionUpdate.back p value)) =
      (sortDown (TransactionUpdate.time p) w).map (TransactionUpdate.back p value) :=
  (map_sortDown (TransactionUpdate.back p value) (fun _ => rfl) w).symm

/-- The change over a window of at least two updates goes from the one that sorts last to the one that
sorts first. -/
theorem windowChange_eq {newest oldest : TransactionUpdate} (hread : ∀ u ∈ w, u.Readable p) (hlength : 2 ≤ w.length)
    (hnewest : IsFirst (TransactionUpdate.time p) w newest) (holdest : IsLast (TransactionUpdate.time p) w oldest) :
    windowChange p value w = .ok (if value oldest.record ≠ 0 then
      some ((value newest.record - value oldest.record) / value oldest.record * 100) else none) := by
  have hhead : ((sortDown (TransactionUpdate.time p) w).map (TransactionUpdate.back p value)).head? =
      some (newest.back p value) := by
    rw [List.head?_map, head?_sortDown.mpr hnewest, Option.map_some]
  have hlast : ((sortDown (TransactionUpdate.time p) w).map (TransactionUpdate.back p value)).getLast? =
      some (oldest.back p value) := by
    rw [List.getLast?_map, getLast?_sortDown.mpr holdest, Option.map_some]
  simp only [windowChange]
  rw [readBackAll_of_readable hread]
  simp only [Except.map]
  rw [sortByBlocktime_back, priceChange_eq hhead hlast, List.length_map, length_sortDown]
  simp only [hlength, true_and]
  rfl

end Window

/-! ### What is read after an order of arrival -/

/-- Updates of a mint with distinct signatures, no more than are kept. -/
structure Arrivals (maxTrades : UInt64) (m : String) (l : List TransactionUpdate) : Prop where
  ofMint : ∀ u ∈ l, u.mint = m
  distinct : (l.map TransactionUpdate.signature).Nodup
  times : ∀ u ∈ l, u.blocktimeUs < 2 ^ 63
  fits : l.length ≤ maxTrades.toNat

section Arrivals

variable {p : Profile} {serde : SerdeJson} {value : TokenTradeRecord → ℚ} {maxTrades : UInt64} {m : String}
  {l l' : List TransactionUpdate} {r : ReadReplies}

theorem Arrivals.perm (h : Arrivals maxTrades m l) (hl : l.Perm l') : Arrivals maxTrades m l' where
  ofMint u hu := h.ofMint u (hl.mem_iff.mpr hu)
  distinct := (hl.map _).nodup_iff.mp h.distinct
  times u hu := h.times u (hl.mem_iff.mpr hu)
  fits := hl.length_eq ▸ h.fits

theorem Arrivals.reprice (h : Arrivals maxTrades m l)
    (amounts : String → UInt64 × UInt64) : Arrivals maxTrades m (l.map (TransactionUpdate.reprice amounts)) where
  ofMint := List.forall_mem_map.mpr h.ofMint
  distinct := by
    rw [List.map_map]
    exact h.distinct
  times := List.forall_mem_map.mpr h.times
  fits := by
    rw [List.length_map]
    exact h.fits

/-- What is kept of the updates: all of them, or none. -/
theorem Arrivals.stored_eq (h : Arrivals maxTrades m l) :
    stored p maxTrades (freshUpdates m l) = if KeepsNewest p maxTrades then l.reverse else [] := by
  have hall : l.filter (fun u => u.mint = m) = l :=
    List.filter_eq_self.mpr fun u hu => decide_eq_true (h.ofMint u hu)
  have hfresh : freshUpdates m l = l.reverse := by
    rw [freshUpdates, hall, List.pwFilter_eq_self, List.pairwise_reverse]
    exact (List.pairwise_map.mp h.distinct).imp Ne.symm
  rw [hfresh, stored]
  split_ifs with hkeeps
  · refine List.take_of_length_le ?_
    have hfits := h.fits
    rw [List.length_reverse]
    simp only [span]
    split_ifs with hzero hle
    · exact le_rfl
    · exact hfits
    · rcases hkeeps with hk | hk <;> omega
  · rfl

theorem Arrivals.trades (h : Arrivals maxTrades m l) :
    (storeAll p serde maxTrades l).redis.asList (tradesKey m) =
      .ok (((if KeepsNewest p maxTrades then l.reverse else []).map TransactionUpdate.record).map
        (TokenTradeRecord.encode serde)) := by
  rw [storeAll_trades, h.stored_eq, List.map_map]
  rfl

theorem Arrivals.read (h : Arrivals maxTrades m l) (hserde : ∀ u ∈ l, serde.ReadsAs value u.record) :
    ∀ x ∈ (if KeepsNewest p maxTrades then l.reverse else []).map TransactionUpdate.record,
      serde.ReadsAs value x ∧ x.blocktimeUs < 2 ^ 63 := by
  rw [List.forall_mem_map]
  intro u hu
  have hmem : u ∈ l := by
    split_ifs at hu
    · exact List.mem_reverse.mp hu
    · cases hu
  exact ⟨hserde u hmem, h.times u hmem⟩

/-- The latest price is that of the last arrival. -/
theorem Arrivals.latest_iff (h : Arrivals maxTrades m l) (hserde : ∀ u ∈ l, serde.ReadsAs value u.record)
    (hr : r.Of (storeAll p serde maxTrades l).redis) {price : ℚ} :
    getLatestPriceFromTrades p serde r m = .ok (some price) ↔
      KeepsNewest p maxTrades ∧ ∃ u, l.getLast? = some u ∧ u.Readable p ∧ value u.record = price := by
  rw [getLatestPriceFromTrades_eq hr h.trades (h.read hserde), List.head?_map]
  by_cases hkeeps : KeepsNewest p maxTrades
  swap
  · simp [hkeeps]
  rw [if_pos hkeeps, List.head?_reverse]
  rcases l.getLast? with _ | u
  · simp
  by_cases hread : u.Readable p
  · simp [readBack_of_readable hread, Except.map, hread, hkeeps]
  · simp [readBack_of_not_readable hread, Except.map, hread]

/-- The change is that over a window of the updates, if any are kept. -/
theorem Arrivals.change_eq (h : Arrivals maxTrades m l) (hserde : ∀ u ∈ l, serde.ReadsAs value u.record)
    (hr : r.Of (storeAll p serde maxTrades l).redis) (hkeeps : KeepsNewest p maxTrades ∨ l = []) (recordCount : UInt64) :
    calculatePriceChangeFromRecords p serde r m recordCount =
      lastIndex p recordCount >>= fun _ => windowChange p value (window l (span recordCount l.length)) := by
  have hall : (if KeepsNewest p maxTrades then l.reverse else []) = l.reverse := by
    rcases hkeeps with hk | rfl
    · exact if_pos hk
    · exact ite_self _
  rw [calculatePriceChangeFromRecords_eq, getRecentTrades_eq hr h.trades (h.read hserde), hall]
  rcases lastIndex p recordCount with f | stop
  · rfl
  · rw [ok_bind, ok_bind, List.length_map, List.length_reverse, ← List.map_take, windowChange, window]
    rcases readBackAll p (((l.reverse.take (span recordCount l.length)).map TransactionUpdate.record).map
      (TokenTradeRecord.reread value)) with f | records <;> rfl

end Arrivals

/-! ### Two orders -/

/-- Two orders lead to the same prices: the latest is that of the update with the greatest time, and the
changes agree for every number of records. -/
def SamePrices (number : Rounding 53) (p : Profile) (serde : SerdeJson) (maxTrades : UInt64) (m : String)
    (l₁ l₂ : List TransactionUpdate) : Prop :=
  ∀ r₁ r₂ : ReadReplies, r₁.Of (storeAll p serde maxTrades l₁).redis → r₂.Of (storeAll p serde maxTrades l₂).redis →
    (∀ u ∈ l₁, (∀ v ∈ l₁, v.blocktimeUs ≤ u.blocktimeUs) →
      getLatestPriceFromTrades p serde r₁ m = .ok (some (u.record.computedPrice number)) ∧
        getLatestPriceFromTrades p serde r₂ m = .ok (some (u.record.computedPrice number))) ∧
    ∀ recordCount, calculatePriceChangeFromRecords p serde r₁ m recordCount =
      calculatePriceChangeFromRecords p serde r₂ m recordCount

/-- The digits of the price of the update with the greatest time are read as that price. -/
def LatestKept (number : Rounding 53) (back : ℚ → ℚ) (l : List TransactionUpdate) : Prop :=
  ∀ u ∈ l, (∀ v ∈ l, v.blocktimeUs ≤ u.blocktimeUs) → u.record.rereadPrice number back = u.record.computedPrice number

/-- The last arrival has the greatest time, and one that can be read back. -/
def EndsNewest (p : Profile) (l : List TransactionUpdate) : Prop :=
  ∃ u, l.getLast? = some u ∧ u.Readable p ∧ ∀ v ∈ l, v.blocktimeUs ≤ u.blocktimeUs

/-- Two windows have the same newest and the same oldest update, if their times can be read back; a time that
cannot be is in both or in neither. -/
structure SameEnds (p : Profile) (w₁ w₂ : List TransactionUpdate) : Prop where
  readable : (∀ u ∈ w₁, u.Readable p) ↔ ∀ u ∈ w₂, u.Readable p
  newest : (∀ u ∈ w₁, u.Readable p) →
    ∀ u, IsFirst (TransactionUpdate.time p) w₁ u ↔ IsFirst (TransactionUpdate.time p) w₂ u
  oldest : (∀ u ∈ w₁, u.Readable p) →
    ∀ u, IsLast (TransactionUpdate.time p) w₁ u ↔ IsLast (TransactionUpdate.time p) w₂ u

section Orders

variable {p : Profile} {value : TokenTradeRecord → ℚ} {w w₁ w₂ : List TransactionUpdate}
  {amounts : String → UInt64 × UInt64}

theorem window_map (f : TransactionUpdate → TransactionUpdate) (l : List TransactionUpdate) (j : ℕ) :
    window (l.map f) j = (window l j).map f := by
  rw [window, window, ← List.map_reverse, List.map_take]

theorem readable_reprice : (∀ u ∈ w.map (TransactionUpdate.reprice amounts), u.Readable p) ↔ ∀ u ∈ w, u.Readable p := by
  rw [List.forall_mem_map]
  rfl

theorem windowChange_of_not_readable (h : ¬ ∀ u ∈ w, u.Readable p) :
    windowChange p value w = .error (.panic "attempt to multiply with overflow") := by
  rw [windowChange, readBackAll_of_not_readable h]
  rfl

/-- The change over a window whose updates have other amounts. -/
theorem windowChange_reprice {newest oldest : TransactionUpdate} (hread : ∀ u ∈ w, u.Readable p) (hlength : 2 ≤ w.length)
    (hnewest : IsFirst (TransactionUpdate.time p) w newest) (holdest : IsLast (TransactionUpdate.time p) w oldest) :
    windowChange p value (w.map (TransactionUpdate.reprice amounts)) =
      .ok (if value (oldest.reprice amounts).record ≠ 0 then
        some ((value (newest.reprice amounts).record - value (oldest.reprice amounts).record) /
          value (oldest.reprice amounts).record * 100) else none) :=
  windowChange_eq (readable_reprice.mpr hread) (by rwa [List.length_map]) (hnewest.map fun _ => rfl)
    (holdest.map fun _ => rfl)

theorem SameEnds.windowChange_eq (h : SameEnds p w₁ w₂) (h₁ : 2 ≤ w₁.length) (h₂ : 2 ≤ w₂.length) :
    windowChange p value (w₁.map (TransactionUpdate.reprice amounts)) =
      windowChange p value (w₂.map (TransactionUpdate.reprice amounts)) := by
  by_cases hread : ∀ u ∈ w₁, u.Readable p
  · obtain ⟨a, ha⟩ := exists_isFirst (TransactionUpdate.time p) (List.ne_nil_of_length_pos (by omega : 0 < w₁.length))
    obtain ⟨b, hb⟩ := exists_isLast (TransactionUpdate.time p) (List.ne_nil_of_length_pos (by omega : 0 < w₁.length))
    rw [windowChange_reprice hread h₁ ha hb,
      windowChange_reprice (h.readable.mp hread) h₂ ((h.newest hread a).mp ha) ((h.oldest hread b).mp hb)]
  · rw [windowChange_of_not_readable (fun h => hread (readable_reprice.mp h)),
      windowChange_of_not_readable (fun h' => hread (h.readable.mpr (readable_reprice.mp h')))]

/-- A unit of a token each, at one price where the signature is `s`, and at another elsewhere. -/
def priced (s : String) (own other : Fin 4) : String → UInt64 × UInt64 := fun sig =>
  (1, asU64 (1000 * (if sig = s then own else other).val))

/-- Small whole prices are computed without rounding. -/
theorem computedPrice_priced (number : Rounding 53) (s : String) (own other : Fin 4) (u : TransactionUpdate) :
    (u.reprice (priced s own other)).record.computedPrice number = (if u.signature = s then own else other).val := by
  have hone : (1 : UInt64) > 0 ∧ (1 : UInt64).toNat = 1 := by decide
  have hprice : (u.reprice (priced s own other)).record.computedPrice number =
      number.div (number.div (number.round (asU64 (1000 * (if u.signature = s then own else other).val)).toNat)
        (number.round ((1 : UInt64).toNat : ℚ))) 1000 := if_pos hone.1
  have hlt := (if u.signature = s then own else other).isLt
  generalize (if u.signature = s then own else other).val = n at hprice hlt ⊢
  have hround : ∀ k : ℕ, k ≤ 3000 → number.round k = k := fun k hk => number.round_natCast (by omega)
  have hthousand : ((1000 * n : ℕ) : ℚ) / 1000 = n := by
    push_cast
    ring
  rw [hprice, hone.2, toNat_asU64 (by omega), hround _ (by omega), hround 1 (by omega), Rounding.div, Rounding.div, Nat.cast_one,
    div_one, hround _ (by omega), hthousand, hround n (by omega)]

/-- What the prices are that tell two windows apart. -/
def TellsPrices (value : TokenTradeRecord → ℚ) : Prop :=
  ∀ (s : String) (own other : Fin 4) (u : TransactionUpdate),
    value (u.reprice (priced s own other)).record = (if u.signature = s then own else other).val

theorem tellsPrices_rereadPrice (number : Rounding 53) {back : ℚ → ℚ} (h : ∀ n : ℕ, n < 4 → back n = n) :
    TellsPrices (TokenTradeRecord.rereadPrice number back) := by
  intro s own other u
  rw [TokenTradeRecord.rereadPrice, computedPrice_priced]
  exact h _ (if u.signature = s then own else other).isLt

/-- Windows over which all changes agree have the same updates at their ends. -/
theorem ends_of_windowChange {a₁ b₁ a₂ b₂ : TransactionUpdate}
    (hvalue : TellsPrices value)
    (h : ∀ s own other, windowChange p value (w₁.map (TransactionUpdate.reprice (priced s own other))) =
      windowChange p value (w₂.map (TransactionUpdate.reprice (priced s own other))))
    (hread₁ : ∀ u ∈ w₁, u.Readable p) (hread₂ : ∀ u ∈ w₂, u.Readable p) (h₁ : 2 ≤ w₁.length) (h₂ : 2 ≤ w₂.length)
    (ha₁ : IsFirst (TransactionUpdate.time p) w₁ a₁) (hb₁ : IsLast (TransactionUpdate.time p) w₁ b₁)
    (ha₂ : IsFirst (TransactionUpdate.time p) w₂ a₂) (hb₂ : IsLast (TransactionUpdate.time p) w₂ b₂)
    (hne₁ : a₁.signature ≠ b₁.signature) :
    a₂.signature = a₁.signature ∧ b₂.signature = b₁.signature := by
  unfold TellsPrices at hvalue
  -- First the oldest of the one window costs less than all others, so that the price doubles there.
  have holdest : b₂.signature = b₁.signature := by
    by_contra hne
    have heq := h b₁.signature 1 2
    rw [windowChange_reprice hread₁ h₁ ha₁ hb₁, windowChange_reprice hread₂ h₂ ha₂ hb₂] at heq
    simp only [hvalue, hne₁, hne, if_true, if_false] at heq
    by_cases ha : a₂.signature = b₁.signature <;> norm_num [ha] at heq
  -- Then the newest of it costs more than all others.
  refine ⟨?_, holdest⟩
  by_contra hne
  have heq := h a₁.signature 3 1
  rw [windowChange_reprice hread₁ h₁ ha₁ hb₁, windowChange_reprice hread₂ h₂ ha₂ hb₂] at heq
  simp only [hvalue, hne₁.symm, holdest, hne, if_true, if_false] at heq
  norm_num at heq

/-- Windows of updates that their signatures tell apart, over which all changes agree. -/
theorem sameEnds_of_windowChange {l : List TransactionUpdate} (hdistinct : (l.map TransactionUpdate.signature).Nodup)
    (hw₁ : ∀ u ∈ w₁, u ∈ l) (hw₂ : ∀ u ∈ w₂, u ∈ l) (hnodup : w₁.Nodup) (h₁ : 2 ≤ w₁.length) (h₂ : 2 ≤ w₂.length)
    (hvalue : TellsPrices value)
    (h : ∀ s own other, windowChange p value (w₁.map (TransactionUpdate.reprice (priced s own other))) =
      windowChange p value (w₂.map (TransactionUpdate.reprice (priced s own other)))) : SameEnds p w₁ w₂ := by
  have hinj : ∀ u ∈ l, ∀ v ∈ l, u.signature = v.signature → u = v := fun u hu v hv heq =>
    List.inj_on_of_nodup_map hdistinct hu hv heq
  have hok : ∀ w : List TransactionUpdate, 2 ≤ w.length →
      ((∀ u ∈ w, u.Readable p) ↔ ∃ c, windowChange p value (w.map (TransactionUpdate.reprice (priced "" 0 0))) = .ok c) := by
    intro w hw
    obtain ⟨a, ha⟩ := exists_isFirst (TransactionUpdate.time p) (List.ne_nil_of_length_pos (by omega : 0 < w.length))
    obtain ⟨b, hb⟩ := exists_isLast (TransactionUpdate.time p) (List.ne_nil_of_length_pos (by omega : 0 < w.length))
    constructor
    · intro hread
      exact ⟨_, windowChange_reprice hread hw ha hb⟩
    · rintro ⟨c, hc⟩
      by_contra hread
      rw [windowChange_of_not_readable (fun h => hread (readable_reprice.mp h))] at hc
      cases hc
  have hreadable : (∀ u ∈ w₁, u.Readable p) ↔ ∀ u ∈ w₂, u.Readable p := by rw [hok w₁ h₁, hok w₂ h₂, h]
  obtain ⟨a₁, ha₁⟩ := exists_isFirst (TransactionUpdate.time p) (List.ne_nil_of_length_pos (by omega : 0 < w₁.length))
  obtain ⟨b₁, hb₁⟩ := exists_isLast (TransactionUpdate.time p) (List.ne_nil_of_length_pos (by omega : 0 < w₁.length))
  obtain ⟨a₂, ha₂⟩ := exists_isFirst (TransactionUpdate.time p) (List.ne_nil_of_length_pos (by omega : 0 < w₂.length))
  obtain ⟨b₂, hb₂⟩ := exists_isLast (TransactionUpdate.time p) (List.ne_nil_of_length_pos (by omega : 0 < w₂.length))
  have hends : (∀ u ∈ w₁, u.Readable p) → a₂ = a₁ ∧ b₂ = b₁ := by
    intro hread
    have hne₁ : a₁.signature ≠ b₁.signature := fun heq =>
      ha₁.ne_isLast hb₁ hnodup h₁ (hinj _ (hw₁ _ ha₁.mem) _ (hw₁ _ hb₁.mem) heq)
    obtain ⟨ha, hb⟩ := ends_of_windowChange hvalue h hread (hreadable.mp hread) h₁ h₂ ha₁ hb₁ ha₂ hb₂ hne₁
    exact ⟨hinj _ (hw₂ _ ha₂.mem) _ (hw₁ _ ha₁.mem) ha, hinj _ (hw₂ _ hb₂.mem) _ (hw₁ _ hb₁.mem) hb⟩
  refine ⟨hreadable, fun hread u => ?_, fun hread u => ?_⟩
  · obtain ⟨rfl, -⟩ := hends hread
    exact ⟨fun hu => ha₁.eq hu ▸ ha₂, fun hu => ha₂.eq hu ▸ ha₁⟩
  · obtain ⟨-, rfl⟩ := hends hread
    exact ⟨fun hu => hb₁.eq hu ▸ hb₂, fun hu => hb₂.eq hu ▸ hb₁⟩

end Orders

section Compare

variable {number : Rounding 53} {back : ℚ → ℚ} {p : Profile} {serde : SerdeJson} {value : TokenTradeRecord → ℚ}
  {maxTrades : UInt64} {m : String} {l l₁ l₂ : List TransactionUpdate}

theorem length_window (l : List TransactionUpdate) (j : ℕ) : (window l j).length = min j l.length := by
  rw [window, List.length_take, List.length_reverse]

theorem window_min (l : List TransactionUpdate) (j : ℕ) : window l j = window l (min j l.length) := by
  rw [window, window, ← List.length_reverse, ← List.take_eq_take_min]

theorem window_one {u : TransactionUpdate} (h : l.getLast? = some u) : window l 1 = [u] := by
  rw [← List.head?_reverse] at h
  obtain ⟨t, ht⟩ := List.head?_eq_some_iff.mp h
  rw [window, ht]
  rfl

theorem reads_reprice {amounts : String → UInt64 × UInt64}
    (h : ∀ u ∈ l, serde.ReadsAs value (u.reprice amounts).record) :
    ∀ u ∈ l.map (TransactionUpdate.reprice amounts), serde.ReadsAs value u.record := List.forall_mem_map.mpr h

/-- The last of the updates with other amounts. -/
theorem Arrivals.latest_reprice {r : ReadReplies} {amounts : String → UInt64 × UInt64} (h : Arrivals maxTrades m l)
    (hserde : ∀ u ∈ l, serde.ReadsAs value (u.reprice amounts).record)
    (hr : r.Of (storeAll p serde maxTrades (l.map (TransactionUpdate.reprice amounts))).redis) {price : ℚ} :
    getLatestPriceFromTrades p serde r m = .ok (some price) ↔ KeepsNewest p maxTrades ∧
      ∃ u, l.getLast? = some u ∧ u.Readable p ∧ value (u.reprice amounts).record = price := by
  rw [(h.reprice amounts).latest_iff (reads_reprice hserde) hr, List.getLast?_map]
  refine and_congr_right fun _ => ?_
  rcases l.getLast? with _ | u
  · simp
  · simp only [Option.map_some, Option.some.injEq, exists_eq_left']
    rfl

/-- A latest price that is that of an update and of no other makes it the last. -/
theorem getLast?_of_latest {v : TransactionUpdate} (h : Arrivals maxTrades m l) (hvalue : TellsPrices value)
    (hserde : ∀ u ∈ l, serde.ReadsAs value (u.reprice (priced v.signature 1 2)).record) (hv : v ∈ l)
    (hlatest : getLatestPriceFromTrades p serde
      (readsOf (storeAll p serde maxTrades (l.map (TransactionUpdate.reprice (priced v.signature 1 2)))).redis) m =
        .ok (some ((v.reprice (priced v.signature 1 2)).record.computedPrice number))) :
    KeepsNewest p maxTrades ∧ l.getLast? = some v ∧ v.Readable p := by
  obtain ⟨hkeeps, u, hlast, hread, hprice⟩ := (h.latest_reprice hserde (readsOf_of _)).mp hlatest
  have hsig : u.signature = v.signature := by
    by_contra hne
    rw [hvalue, computedPrice_priced, if_neg hne, if_pos rfl] at hprice
    norm_num at hprice
  have huv : u = v := List.inj_on_of_nodup_map h.distinct (List.mem_of_getLast? hlast) hv hsig
  exact ⟨hkeeps, huv ▸ hlast, huv ▸ hread⟩

/-- The changes agree over all windows, if the last arrivals are the same and so are the ends of the windows. -/
theorem windowChange_window {u : TransactionUpdate} (hlength : l₁.length = l₂.length) (hlast₁ : l₁.getLast? = some u)
    (hlast₂ : l₂.getLast? = some u)
    (hsame : ∀ j, 2 ≤ j → j ≤ l₁.length → SameEnds p (window l₁ j) (window l₂ j))
    (amounts : String → UInt64 × UInt64) (j : ℕ) :
    windowChange p value (window (l₁.map (TransactionUpdate.reprice amounts)) j) =
      windowChange p value (window (l₂.map (TransactionUpdate.reprice amounts)) j) := by
  rw [window_map, window_map, window_min l₁, window_min l₂, ← hlength]
  obtain ⟨i, hi⟩ : ∃ i, i = min j l₁.length := ⟨_, rfl⟩
  rw [← hi]
  by_cases htwo : 2 ≤ i
  · refine (hsame i htwo (by omega)).windowChange_eq ?_ ?_ <;> rw [length_window] <;> omega
  · have hi' : i = 0 ∨ i = 1 := by omega
    rcases hi' with rfl | rfl
    · rfl
    · rw [window_one hlast₁, window_one hlast₂]

/-- A number of records up to a capacity that keeps them is asked for as it is. -/
theorem KeepsNewest.asU64_of_le {j : ℕ} (h : KeepsNewest p maxTrades) (hj : j ≤ maxTrades.toNat) :
    (asU64 j).toNat = j ∧ j ≤ 2 ^ 63 ∧ KeepsNewest p (asU64 j) := by
  have hmax : maxTrades.toNat ≤ 2 ^ 63 := by rcases h with h | h <;> omega
  have hcount : (asU64 j).toNat = j := toNat_asU64 (by omega)
  refine ⟨hcount, by omega, ?_⟩
  simp only [KeepsNewest] at h ⊢
  rw [hcount]
  rcases h with h | ⟨h, rfl⟩
  · exact Or.inl (by omega)
  · by_cases hlt : j < 2 ^ 63
    · exact Or.inl hlt
    · exact Or.inr ⟨by omega, rfl⟩

/-- Orders that lead to the same changes, for amounts that tell the updates apart, have the same ends in every
window. -/
theorem sameEnds_of_changes (h : Arrivals maxTrades m l₁) (hperm : l₁.Perm l₂) (hvalue : TellsPrices value)
    (hserde : ∀ amounts, ∀ u ∈ l₁, serde.ReadsAs value (u.reprice amounts).record) (hkeeps : KeepsNewest p maxTrades)
    (hsame : ∀ s own other recordCount,
      calculatePriceChangeFromRecords p serde
          (readsOf (storeAll p serde maxTrades (l₁.map (TransactionUpdate.reprice (priced s own other)))).redis) m
          recordCount =
        calculatePriceChangeFromRecords p serde
          (readsOf (storeAll p serde maxTrades (l₂.map (TransactionUpdate.reprice (priced s own other)))).redis) m
          recordCount)
    {j : ℕ} (htwo : 2 ≤ j) (hj : j ≤ l₁.length) : SameEnds p (window l₁ j) (window l₂ j) := by
  obtain ⟨hcount, hmax, hkeepsj⟩ := hkeeps.asU64_of_le (hj.trans h.fits)
  obtain ⟨stop, hstop⟩ := hkeepsj.lastIndex
  have hspan : ∀ n, span (asU64 j) n = j := fun n => (span_eq ⟨by omega, by omega⟩ n).trans hcount
  refine sameEnds_of_windowChange h.distinct ?_ ?_ ?_ ?_ ?_ hvalue fun s own other => ?_
  · exact fun u hu => List.mem_reverse.mp (List.mem_of_mem_take hu)
  · exact fun u hu => hperm.mem_iff.mpr (List.mem_reverse.mp (List.mem_of_mem_take hu))
  · exact (List.nodup_reverse.mpr (List.Nodup.of_map _ h.distinct)).sublist (List.take_sublist _ _)
  · rw [length_window]
    omega
  · rw [length_window, ← hperm.length_eq]
    omega
  · have hserde₁ := reads_reprice (hserde (priced s own other))
    have hserde₂ := reads_reprice fun u hu => hserde (priced s own other) u (hperm.mem_iff.mpr hu)
    have hchange := hsame s own other (asU64 j)
    rw [(h.reprice _).change_eq hserde₁ (readsOf_of _) (Or.inl hkeeps),
      ((h.perm hperm).reprice _).change_eq hserde₂ (readsOf_of _) (Or.inl hkeeps), hstop, ok_bind, ok_bind, hspan,
      hspan, window_map, window_map] at hchange
    exact hchange

/-- In two orders of updates with distinct times that both end with the newest, that is the same one. -/
theorem EndsNewest.exists_last (h₁ : EndsNewest p l₁) (h₂ : EndsNewest p l₂) (hperm : l₁.Perm l₂)
    (htimes : (l₁.map TransactionUpdate.blocktimeUs).Nodup) :
    ∃ u, l₁.getLast? = some u ∧ l₂.getLast? = some u ∧ u.Readable p ∧
      ∀ v ∈ l₁, u.blocktimeUs ≤ v.blocktimeUs → v = u := by
  obtain ⟨u₁, hlast₁, hread, hle₁⟩ := h₁
  obtain ⟨u₂, hlast₂, -, hle₂⟩ := h₂
  have hu₁ : u₁ ∈ l₁ := List.mem_of_getLast? hlast₁
  have hu₂ : u₂ ∈ l₁ := hperm.mem_iff.mpr (List.mem_of_getLast? hlast₂)
  have hgreatest : ∀ v ∈ l₁, u₁.blocktimeUs ≤ v.blocktimeUs → v = u₁ := fun v hv hle =>
    List.inj_on_of_nodup_map htimes hv hu₁ (le_antisymm (hle₁ v hv) hle)
  have huu : u₂ = u₁ := hgreatest u₂ hu₂ (hle₂ u₁ (hperm.mem_iff.mp hu₁))
  exact ⟨u₁, hlast₁, huu ▸ hlast₂, hread, hgreatest⟩

/-- What the condition on two orders gives for some amounts. -/
theorem samePrices_of_ends (h : Arrivals maxTrades m l₁) (hperm : l₁.Perm l₂)
    (htimes : (l₁.map TransactionUpdate.blocktimeUs).Nodup) {amounts : String → UInt64 × UInt64}
    (hserde : ∀ u ∈ l₁, serde.ReadsAs (TokenTradeRecord.rereadPrice number back) (u.reprice amounts).record)
    (hends : l₁ ≠ [] → KeepsNewest p maxTrades ∧ EndsNewest p l₁ ∧ EndsNewest p l₂ ∧
      ∀ j, 2 ≤ j → j ≤ l₁.length → SameEnds p (window l₁ j) (window l₂ j)) :
    SamePrices number p serde maxTrades m (l₁.map (TransactionUpdate.reprice amounts))
        (l₂.map (TransactionUpdate.reprice amounts)) ↔
      LatestKept number back (l₁.map (TransactionUpdate.reprice amounts)) := by
  have h' := h.perm hperm
  have hserde' : ∀ u ∈ l₂, serde.ReadsAs (TokenTradeRecord.rereadPrice number back) (u.reprice amounts).record :=
    fun u hu => hserde u (hperm.mem_iff.mpr hu)
  by_cases hne : l₁ = []
  · subst hne
    obtain rfl : l₂ = [] := hperm.nil_eq.symm
    refine iff_of_true (fun r₁ r₂ hr₁ hr₂ => ⟨fun u hu => absurd hu List.not_mem_nil, fun recordCount => ?_⟩)
      fun u hu => absurd hu List.not_mem_nil
    rw [(h.reprice amounts).change_eq (reads_reprice hserde) hr₁ (Or.inr rfl),
      (h.reprice amounts).change_eq (reads_reprice hserde) hr₂ (Or.inr rfl)]
  obtain ⟨hkeeps, hnewest₁, hnewest₂, hwindows⟩ := hends hne
  obtain ⟨u, hlast₁, hlast₂, hread, hgreatest⟩ := hnewest₁.exists_last hnewest₂ hperm htimes
  have hmem : u.reprice amounts ∈ l₁.map (TransactionUpdate.reprice amounts) :=
    List.mem_map_of_mem (List.mem_of_getLast? hlast₁)
  have hunique : ∀ v ∈ l₁.map (TransactionUpdate.reprice amounts),
      (∀ w ∈ l₁.map (TransactionUpdate.reprice amounts), w.blocktimeUs ≤ v.blocktimeUs) → v = u.reprice amounts := by
    intro v hv hle
    obtain ⟨w, hw, rfl⟩ := List.mem_map.mp hv
    rw [hgreatest w hw (hle (u.reprice amounts) hmem)]
  constructor
  · intro hsame v hv hle
    -- What is returned is what is read of the last arrival, which has the greatest time.
    obtain rfl := hunique v hv hle
    have hlatest := ((hsame _ _ (readsOf_of _) (readsOf_of _)).1 _ hv hle).1
    obtain ⟨-, x, hx, -, hprice⟩ := (h.latest_reprice hserde (readsOf_of _)).mp hlatest
    rw [hlast₁, Option.some.injEq] at hx
    rwa [← hx] at hprice
  · intro hkept r₁ r₂ hr₁ hr₂
    refine ⟨fun v hv hle => ?_, fun recordCount => ?_⟩
    · have hprice := hkept v hv hle
      obtain rfl := hunique v hv hle
      exact ⟨(h.latest_reprice hserde hr₁).mpr ⟨hkeeps, u, hlast₁, hread, hprice⟩,
        (h'.latest_reprice hserde' hr₂).mpr ⟨hkeeps, u, hlast₂, hread, hprice⟩⟩
    · rw [(h.reprice amounts).change_eq (reads_reprice hserde) hr₁ (Or.inl hkeeps),
        (h'.reprice amounts).change_eq (reads_reprice hserde') hr₂ (Or.inl hkeeps), List.length_map,
        List.length_map, ← hperm.length_eq]
      rcases lastIndex p recordCount with f | stop
      · rfl
      · exact windowChange_window hperm.length_eq hlast₁ hlast₂ hwindows amounts _

/-- **When the order of arrival does not matter.** Let updates of a mint with distinct signatures and distinct
times, no more than are kept, arrive in two orders, and let `serde_json` give their records back but for the
prices, where it keeps the small whole ones. Whatever the amounts, the prices read afterwards are the same, the
latest being that of the update with the greatest time, exactly when this price is read as it was written, if and
only if (unless there are no updates): records stay in the list they are pushed to; in both orders the update
with the greatest time arrives last, and its time can be read back; and the last `j` arrivals of both orders have the
same newest and the same oldest update, for every `j` from 2 on. -/
theorem samePrices_iff (number : Rounding 53) (back : ℚ → ℚ) (h : Arrivals maxTrades m l₁) (hperm : l₁.Perm l₂)
    (htimes : (l₁.map TransactionUpdate.blocktimeUs).Nodup)
    (hserde : ∀ amounts, ∀ u ∈ l₁, serde.ReadsAs (TokenTradeRecord.rereadPrice number back) (u.reprice amounts).record)
    (hwhole : ∀ n : ℕ, n < 4 → back n = n) :
    (∀ amounts, SamePrices number p serde maxTrades m (l₁.map (TransactionUpdate.reprice amounts))
        (l₂.map (TransactionUpdate.reprice amounts)) ↔
      LatestKept number back (l₁.map (TransactionUpdate.reprice amounts))) ↔
      (l₁ ≠ [] → KeepsNewest p maxTrades ∧ EndsNewest p l₁ ∧ EndsNewest p l₂ ∧
        ∀ j, 2 ≤ j → j ≤ l₁.length → SameEnds p (window l₁ j) (window l₂ j)) := by
  refine ⟨fun hiff hne => ?_, fun hends amounts => samePrices_of_ends h hperm htimes (hserde amounts) hends⟩
  have hvalue := tellsPrices_rereadPrice number hwhole
  -- The prices that tell the updates apart are small whole numbers, and so they are kept.
  have hsame : ∀ s own other, SamePrices number p serde maxTrades m
      (l₁.map (TransactionUpdate.reprice (priced s own other))) (l₂.map (TransactionUpdate.reprice (priced s own other))) := by
    refine fun s own other => (hiff _).mpr fun v hv _ => ?_
    obtain ⟨u, -, rfl⟩ := List.mem_map.mp hv
    rw [hvalue, computedPrice_priced]
  obtain ⟨v, hfirst⟩ := exists_isFirst TransactionUpdate.blocktimeUs hne
  have hlatest := fun s own other => (hsame s own other _ _ (readsOf_of _) (readsOf_of _)).1
    (v.reprice (priced s own other)) (List.mem_map_of_mem hfirst.mem)
    (List.forall_mem_map.mpr fun (u : TransactionUpdate) hu => hfirst.le (b := u) hu)
  obtain ⟨hkeeps, hlast₁, hread⟩ := getLast?_of_latest h hvalue (hserde _) hfirst.mem (hlatest _ _ _).1
  obtain ⟨-, hlast₂, -⟩ := getLast?_of_latest (h.perm hperm) hvalue (fun u hu => hserde _ u (hperm.mem_iff.mpr hu))
    (hperm.mem_iff.mp hfirst.mem) (hlatest _ _ _).2
  refine ⟨hkeeps, ⟨v, hlast₁, hread, fun u hu => hfirst.le hu⟩,
    ⟨v, hlast₂, hread, fun u hu => hfirst.le (hperm.mem_iff.mpr hu)⟩, fun j htwo hj => ?_⟩
  exact sameEnds_of_changes h hperm hvalue hserde hkeeps
    (fun s own other => (hsame s own other _ _ (readsOf_of _) (readsOf_of _)).2) htwo hj

end Compare

/-- A record as numbers. -/
def codeOf (r : TokenTradeRecord) : List ℕ × ℕ × ℕ × ℚ × ℤ × Bool × List ℕ :=
  (r.mint.toList.map Char.toNat, r.tokenAmount.toNat, r.solAmount.toNat, r.price, r.blocktimeUs, r.isBuy,
    r.signature.toList.map Char.toNat)

/-- The record of some numbers. -/
def ofCode : List ℕ × ℕ × ℕ × ℚ × ℤ × Bool × List ℕ → TokenTradeRecord
  | (mint, tokenAmount, solAmount, price, blocktimeUs, isBuy, signature) =>
    ⟨String.ofList (mint.map Char.ofNat), asU64 tokenAmount, asU64 solAmount, price, blocktimeUs, isBuy,
      String.ofList (signature.map Char.ofNat)⟩

/-- A text for each record, of a length of its own. -/
def lengthText (r : TokenTradeRecord) : String :=
  String.ofList ('#' :: List.replicate (Encodable.encode (codeOf r)) '#')

/-- The text of a record that is in a table. -/
def tableText (texts : List (String × TokenTradeRecord)) (r : TokenTradeRecord) : Option (String × TokenTradeRecord) :=
  texts.find? fun t => t.2 = r

/-- `serde_json` on the records of a table, and something else that tells all other records apart. -/
def tableSerde (texts : List (String × TokenTradeRecord)) : SerdeJson where
  toText j := match recordOfJson j with
    | some r => ((tableText texts r).map Prod.fst).getD (lengthText r)
    | none => ""
  parse text := match texts.lookup text with
    | some r => some r.toJson
    | none => (Encodable.decode (text.toList.length - 1)).map fun code => (ofCode code).toJson
  error _ := anyhow "expected value at line 1 column 1"

theorem ofCode_codeOf (r : TokenTradeRecord) : ofCode (codeOf r) = r := by
  have htext : ∀ s : String, String.ofList ((s.toList.map Char.toNat).map Char.ofNat) = s := by
    intro s
    rw [List.map_map, show Char.ofNat ∘ Char.toNat = id from funext fun c => Char.ofNat_toNat c, List.map_id,
      String.ofList_toList]
  simp only [codeOf, ofCode, htext, asU64, UInt64.ofNat_toNat]

section Table

variable {texts : List (String × TokenTradeRecord)} {text : String} {r : TokenTradeRecord}

theorem tableSerde_toText {j : Json} (h : recordOfJson j = some r) :
    (tableSerde texts).toText j = ((tableText texts r).map Prod.fst).getD (lengthText r) := by
  unfold tableSerde
  dsimp only
  rw [h]

theorem tableSerde_parse_some (h : texts.lookup text = some r) : (tableSerde texts).parse text = some r.toJson := by
  unfold tableSerde
  dsimp only
  rw [h]

theorem tableSerde_parse_none (h : texts.lookup text = none)
    (hlength : text.toList.length - 1 = Encodable.encode (codeOf r)) :
    (tableSerde texts).parse text = some r.toJson := by
  unfold tableSerde
  dsimp only
  rw [h, hlength, Encodable.encodek, Option.map_some, ofCode_codeOf]

theorem tableSerde_keeps (hbrace : ∀ t ∈ texts, t.1.toList.head? = some '\x7b')
    (htexts : ∀ t ∈ texts, texts.lookup t.1 = some t.2) (r : TokenTradeRecord) : (tableSerde texts).Keeps r := by
  simp only [SerdeJson.Keeps]
  rw [TokenTradeRecord.encode, tableSerde_toText (recordOfJson_toJson r)]
  rcases hfind : tableText texts r with _ | t
  · rw [Option.map_none, Option.getD_none]
    refine tableSerde_parse_none (List.lookup_eq_none_iff.mpr fun t ht => bne_iff_ne.mpr fun heq => ?_) ?_
    · have hhead := hbrace t ht
      rw [← heq, lengthText, String.toList_ofList, List.head?_cons] at hhead
      exact absurd hhead (by decide)
    · rw [lengthText, String.toList_ofList, List.length_cons, List.length_replicate, Nat.add_sub_cancel]
  · simp only [tableText] at hfind
    have hr : decide (t.2 = r) = true := List.find?_some (p := fun (t : String × TokenTradeRecord) => decide (t.2 = r)) hfind
    refine tableSerde_parse_some ?_
    rw [Option.map_some, Option.getD_some, htexts t (List.mem_of_find?_eq_some hfind), of_decide_eq_true hr]

end Table

/-- The later update of the sample. -/
def sampleLaterUpdate : TransactionUpdate :=
  { sampleUpdate with solAmount := 120000000000, signature := "b", blocktimeUs := 1700000001000000 }

/-- `serde_json` with the sample's texts, whose prices are doubles. -/
def tableDoubleSerde : SerdeJson := (tableSerde sampleTexts).reading (TokenTradeRecord.computedPrice .binary64)

theorem tableDoubleSerde_readsAs (r : TokenTradeRecord) :
    tableDoubleSerde.ReadsAs (TokenTradeRecord.rereadPrice .binary64 id) r :=
  (tableSerde_keeps (by decide +kernel) (by decide +kernel) r).reading _

/-- The sample's two updates in two orders do not lead to the same prices for all amounts whose latest price is kept: in
one of them the earlier update comes last. -/
theorem samePrices_iff_sample :
    ¬ ∀ amounts, SamePrices .binary64 .release tableDoubleSerde 1000 sampleUpdate.mint
      ([sampleUpdate, sampleLaterUpdate].map (TransactionUpdate.reprice amounts))
      ([sampleLaterUpdate, sampleUpdate].map (TransactionUpdate.reprice amounts)) ↔
      LatestKept .binary64 id ([sampleUpdate, sampleLaterUpdate].map (TransactionUpdate.reprice amounts)) := by
  have harrivals : Arrivals 1000 sampleUpdate.mint [sampleUpdate, sampleLaterUpdate] := by
    constructor <;> decide
  rw [samePrices_iff .binary64 id harrivals (List.Perm.swap _ _ _) (by decide) (fun _ _ _ => tableDoubleSerde_readsAs _)
    fun _ _ => rfl]
  intro hcond
  obtain ⟨-, -, ⟨u, hlast, -, hle⟩, -⟩ := hcond (by decide)
  cases hlast
  exact absurd (hle sampleLaterUpdate List.mem_cons_self) (by decide)

/-- The sample's two records, the later one stored first: the latest price is that of the earlier. -/
theorem samePrices_late_arrival :
    let latest (l : List TransactionUpdate) := getLatestPriceFromTrades .release sampleDoubleSerde
      (readsOf (storeAll .release sampleDoubleSerde 1000 l).redis) sampleUpdate.mint
    latest [sampleUpdate, sampleLaterUpdate] = .ok (some (sampleLaterUpdate.record.computedPrice .binary64)) ∧
      latest [sampleLaterUpdate, sampleUpdate] = .ok (some (sampleUpdate.record.computedPrice .binary64)) ∧
      sampleUpdate.record.computedPrice .binary64 < sampleLaterUpdate.record.computedPrice .binary64 ∧
      sampleUpdate.blocktimeUs < sampleLaterUpdate.blocktimeUs ∧ sampleUpdate.signature ≠ sampleLaterUpdate.signature ∧
      ¬ SamePrices .binary64 .release sampleDoubleSerde 1000 sampleUpdate.mint [sampleUpdate, sampleLaterUpdate]
        [sampleLaterUpdate, sampleUpdate] := by
  intro latest
  obtain ⟨hfirst, hsecond⟩ : latest [sampleUpdate, sampleLaterUpdate] =
        .ok (some (sampleLaterUpdate.record.computedPrice .binary64)) ∧
      latest [sampleLaterUpdate, sampleUpdate] = .ok (some (sampleUpdate.record.computedPrice .binary64)) := by
    decide +kernel
  have hlt : sampleUpdate.record.computedPrice .binary64 < sampleLaterUpdate.record.computedPrice .binary64 := by
    decide +kernel
  refine ⟨hfirst, hsecond, hlt, by decide, by decide, fun hsame => ?_⟩
  obtain ⟨-, hlate⟩ := (hsame _ _ (readsOf_of _) (readsOf_of _)).1 sampleLaterUpdate (by decide) (by decide)
  have heq : (.ok (some (sampleUpdate.record.computedPrice .binary64)) : Result (Option ℚ)) =
      .ok (some (sampleLaterUpdate.record.computedPrice .binary64)) := hsecond.symm.trans hlate
  exact hlt.ne (Option.some.inj (Except.ok.inj heq))

end PumpSwapBot.Rust
