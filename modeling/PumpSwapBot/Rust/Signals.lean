import PumpSwapBot.Rust.Prices
import PumpSwapBot.Rust.Runs
import PumpSwapBot.Rust.Stream

/-!
# Signals

What the prices the bot decides by say about the swaps it was sent.

## What is proved

* `checkPriceIncrease_eq` — for swaps with distinct signatures that come in order, the buy signal is the
  rise of the price over the last of them, as many as are both kept and asked for.
* `getLatestPriceFromTrades_iff_last` — when the latest price of a mint is that of its last swap.
-/

namespace PumpSwapBot.Rust

open PumpSwapBot.Sdk PumpSwapBot.Library

/-! ### The buy signal -/

/-- The update of an event whose time in microseconds fits. -/
def Event.update (e : Event) : TransactionUpdate := e.updateAt (e.swap.timestamp * 1000000)

/-- Swaps of a mint with distinct signatures, in the order of their times. In microseconds the times fit, and
are not taken for seconds. -/
structure SwapStream (m : Pubkey) (events : List Event) : Prop where
  ofMint : ∀ e ∈ events, e.swap.HasWsol ∧ e.swap.token = m
  distinct : (events.map fun e => e.swap.signature).Nodup
  ordered : (events.map fun e => e.swap.timestamp).Pairwise (· ≤ ·)
  times : ∀ e ∈ events, 1000000 ≤ e.swap.timestamp ∧ e.swap.timestamp * 1000000 < 2 ^ 63

section BuySignal

variable {p : Profile} {m : Pubkey} {events : List Event}

/-- Each event of a stream is sent. -/
theorem SwapStream.updatesOf_eq (h : SwapStream m events) : updatesOf p events = events.map Event.update := by
  simp only [updatesOf]
  rw [← List.filterMap_eq_map]
  refine List.filterMap_congr fun e he => ?_
  obtain ⟨hearly, hlate⟩ := h.times e he
  have hfits : -2 ^ 63 ≤ e.swap.timestamp * 1000000 ∧ e.swap.timestamp * 1000000 < 2 ^ 63 := ⟨by omega, hlate⟩
  rw [handleEvent_eq, if_pos (h.ofMint e he).1, mulI64_ok hfits]
  rfl

/-- Each update of a stream is new. -/
theorem SwapStream.freshUpdates_eq (h : SwapStream m events) :
    freshUpdates m.toText (events.map Event.update) = (events.map Event.update).reverse := by
  have hall : (events.map Event.update).filter (fun u => u.mint = m.toText) = events.map Event.update := by
    refine List.filter_eq_self.mpr fun u hu => ?_
    obtain ⟨e, he, rfl⟩ := List.mem_map.mp hu
    exact decide_eq_true (congrArg Pubkey.toText (h.ofMint e he).2)
  have hsigs : (events.map Event.update).Pairwise fun a b => a.signature ≠ b.signature := by
    rw [List.pairwise_map]
    exact List.pairwise_map.mp h.distinct
  rw [freshUpdates, hall, List.pwFilter_eq_self, List.pairwise_reverse]
  exact hsigs.imp Ne.symm

/-- Times that are not taken for seconds are read back as they are. -/
theorem readBackAll_eq_self {records : List TokenTradeRecord} (h : ∀ r ∈ records, 1000000000000 ≤ r.blocktimeUs) :
    readBackAll p records = .ok records := by
  induction records with
  | nil => rfl
  | cons r records ih =>
    rw [List.forall_mem_cons] at h
    have hback : r.readBack p = .ok r := by
      rw [TokenTradeRecord.readBack, blocktimeOfInt, if_neg (not_lt.mpr h.1)]
      rfl
    rw [readBackAll, hback, ih h.2]
    rfl

/-- The list of the mint after a stream. -/
theorem SwapStream.trades {serde : SerdeJson} {maxTrades : UInt64} (h : SwapStream m events)
    (hmax : 1 ≤ maxTrades.toNat ∧ maxTrades.toNat < 2 ^ 63) :
    (storeAll p serde maxTrades (updatesOf p events)).redis.asList (tradesKey m.toText) =
      .ok (((events.reverse.take maxTrades.toNat).map fun e => e.update.record).map (TokenTradeRecord.encode serde)) := by
  have hkeeps : KeepsNewest p maxTrades := Or.inl hmax.2
  rw [storeAll_trades, h.updatesOf_eq, h.freshUpdates_eq, stored, if_pos hkeeps, span_eq ⟨hmax.1, hmax.2.le⟩,
    ← List.map_reverse, ← List.map_take, List.map_map, List.map_map]
  rfl

/-- The window a reading call gets of a stream. -/
theorem SwapStream.getRecentTrades_eq {serde : SerdeJson} {r : ReadReplies} {maxTrades limit : UInt64}
    (h : SwapStream m events) (hserde : ∀ e ∈ events, serde.Keeps e.update.record)
    (hr : r.Of (storeAll p serde maxTrades (updatesOf p events)).redis)
    (hmax : 1 ≤ maxTrades.toNat ∧ maxTrades.toNat < 2 ^ 63) (hlimit : 1 ≤ limit.toNat ∧ limit.toNat < 2 ^ 63) :
    getRecentTrades p serde r m.toText limit =
      .ok ((events.reverse.take (min limit.toNat maxTrades.toNat)).map fun e => e.update.record) := by
  have hreads : ∀ x ∈ (events.reverse.take maxTrades.toNat).map fun e => e.update.record,
      serde.ReadsAs TokenTradeRecord.price x ∧ x.blocktimeUs < 2 ^ 63 := by
    rw [List.forall_mem_map]
    intro e he
    have hmem : e ∈ events := List.mem_reverse.mp (List.mem_of_mem_take he)
    exact ⟨(hserde e hmem).readsAs, (h.times e hmem).2⟩
  obtain ⟨stop, hstop⟩ := KeepsNewest.lastIndex (p := p) (Or.inl hlimit.2)
  rw [Rust.getRecentTrades_eq hr (h.trades hmax) hreads, hstop, ok_bind, span_eq ⟨hlimit.1, hlimit.2.le⟩,
    ← List.map_take, List.take_take, List.map_congr_left fun r _ => reread_price r, List.map_id']
  set window := events.reverse.take (min limit.toNat maxTrades.toNat)
  have hwindow : window.Sublist events.reverse := List.take_sublist _ _
  have hlate : ∀ x ∈ window.map fun e => e.update.record, (1000000000000 : ℤ) ≤ x.blocktimeUs := by
    rw [List.forall_mem_map]
    intro e he
    have hearly := (h.times e (List.mem_reverse.mp (hwindow.subset he))).1
    show (1000000000000 : ℤ) ≤ e.swap.timestamp * 1000000
    omega
  have hsorted : (window.map fun e => e.update.record).Pairwise fun a b => b.blocktimeUs ≤ a.blocktimeUs := by
    rw [List.pairwise_map]
    refine List.Pairwise.sublist hwindow ?_
    rw [List.pairwise_reverse]
    refine (List.pairwise_map.mp h.ordered).imp fun {a b} hab => ?_
    show a.swap.timestamp * 1000000 ≤ b.swap.timestamp * 1000000
    omega
  rw [readBackAll_eq_self hlate]
  -- The window is newest first already, so the sort leaves it as it is, with its ties in the order of arrival.
  exact congrArg Except.ok (sortDown_eq_self hsorted)

/-- The change over the last `w` of some prices. -/
theorem priceChange_take {prices : List ℚ} {trades : List TokenTradeRecord} {w : ℕ} {oldest newest : ℚ} (hw : 1 ≤ w)
    (h : trades.map TokenTradeRecord.price = prices.reverse.take w) (hnewest : prices[prices.length - 1]? = some newest)
    (holdest : prices[prices.length - w]? = some oldest) (hle : w ≤ prices.length) :
    priceChange trades = if 2 ≤ w ∧ oldest ≠ 0 then some ((newest - oldest) / oldest * 100) else none := by
  have hlength : trades.length = w := by
    have hlen := congrArg List.length h
    rw [List.length_map, List.length_take, List.length_reverse] at hlen
    omega
  have hhead : trades.head?.map TokenTradeRecord.price = some newest := by
    rw [← List.head?_map, h, List.head?_take, if_neg (by omega), List.head?_reverse, List.getLast?_eq_getElem?, hnewest]
  have hlast : trades.getLast?.map TokenTradeRecord.price = some oldest := by
    have hindex : prices.length - 1 - (w - 1) = prices.length - w := by omega
    rw [← List.getLast?_map, h, List.getLast?_eq_getElem?, List.length_take, List.length_reverse, min_eq_left hle,
      List.getElem?_take, if_pos (by omega), List.getElem?_reverse (by omega), hindex, holdest]
  obtain ⟨first, hfirst, rfl⟩ := Option.map_eq_some_iff.mp hhead
  obtain ⟨last, hend, rfl⟩ := Option.map_eq_some_iff.mp hlast
  rw [priceChange_eq hfirst hend, hlength]

/-- **The buy signal.** Let swaps of a mint with distinct signatures, in the order of their times, be handled
and stored one after the other, and let `w` be how many of them are kept and asked for. The
signal is given if `w` is at least 2, the oldest of the last `w` swaps has a price, and the rise from
it to the last swap is at least the threshold. -/
theorem checkPriceIncrease_eq {st : Setting} {maxTrades : UInt64} {r : ReadReplies} (h : SwapStream m events)
    (hserde : ∀ e ∈ events, st.serde.Keeps e.update.record) (hredis : st.redisAvailable = true)
    (hr : r.Of (storeAll st.env.profile st.serde maxTrades (updatesOf st.env.profile events)).redis)
    (hmax : 1 ≤ maxTrades.toNat ∧ maxTrades.toNat < 2 ^ 63)
    (hcount : 1 ≤ st.config.buyRecordCount.toNat ∧ st.config.buyRecordCount.toNat < 2 ^ 63) :
    let price (i : ℕ) : ℚ := (events.map fun e => e.swap.price).getD i 0
    let n := events.length
    let w := min st.config.buyRecordCount.toNat (min maxTrades.toNat n)
    st.checkPriceIncrease r m.toText = .ok (decide (2 ≤ w ∧ price (n - w) ≠ 0 ∧
      (price (n - 1) - price (n - w)) / price (n - w) * 100 ≥ st.config.buyThresholdPct)) := by
  intro price n w
  have hwindow : events.reverse.take (min st.config.buyRecordCount.toNat maxTrades.toNat) = events.reverse.take w := by
    rw [show w = min (min st.config.buyRecordCount.toNat maxTrades.toNat) events.reverse.length by
      rw [List.length_reverse, min_assoc], ← List.take_eq_take_min]
  rw [Setting.checkPriceIncrease, if_pos hredis, calculatePriceChangeFromRecords_eq,
    h.getRecentTrades_eq hserde hr hmax hcount, hwindow]
  by_cases hn : n = 0
  · have hnil : events = [] := List.eq_nil_of_length_eq_zero hn
    subst hnil
    simp [Except.map, priceChange, w, n]
  have hprices : ((events.reverse.take w).map fun e => e.update.record).map TokenTradeRecord.price =
      (events.map fun e => e.swap.price).reverse.take w := by
    rw [List.map_map, ← List.map_reverse, ← List.map_take]
    exact List.map_congr_left fun e _ => record_price_updateAt e _
  have hget : ∀ i < n, (events.map fun e => e.swap.price)[i]? = some (price i) := by
    intro i hi
    have hlt : i < (events.map fun e => e.swap.price).length := by rwa [List.length_map]
    simp only [price, List.getD_eq_getElem?_getD, List.getElem?_eq_getElem hlt, Option.getD_some]
  have hlength : (events.map fun e => e.swap.price).length = n := List.length_map _
  have hchange := priceChange_take (w := w) (by omega) hprices (by rw [hlength]; exact hget (n - 1) (by omega))
    (by rw [hlength]; exact hget (n - w) (by omega)) (by rw [hlength]; omega)
  simp only [Except.map, hchange]
  by_cases hsome : 2 ≤ w ∧ price (n - w) ≠ 0
  · simp [hsome]
  · rw [if_neg hsome]
    have hno : ¬ (2 ≤ w ∧ price (n - w) ≠ 0 ∧
        (price (n - 1) - price (n - w)) / price (n - w) * 100 ≥ st.config.buyThresholdPct) :=
      fun hall => hsome ⟨hall.1, hall.2.1⟩
    rw [decide_eq_false hno]

end BuySignal

/-- A later swap on the sample's pool, at a price a fifth higher. -/
def sampleLaterEvent : SwapEvent :=
  { sampleEvent with poolQuoteTokenReserves := 120000000000, timestamp := 1700000001, signature := "b" }

/-- `serde_json` on the two records of the sample, which are told apart by their signatures. -/
def sampleStreamSerde : SerdeJson where
  toText
    | .obj fields =>
      ((sampleTexts.find? fun t => (fields.lookup "signature").bind Json.asStr = some t.2.signature).map Prod.fst).getD ""
    | _ => ""
  parse := sampleSerde.parse
  error := sampleSerde.error

/-- The sample's setting, with that `serde_json`. -/
def sampleStreamSetting : Setting := { sampleSetting with serde := sampleStreamSerde }

theorem sampleStreamSerde_parse (text : String) :
    sampleStreamSerde.parse text = (sampleTexts.lookup text).map TokenTradeRecord.toJson := by
  simp only [sampleStreamSerde, sampleSerde]

theorem sampleStreamSerde_keeps {r : TokenTradeRecord} (h : sampleTexts.lookup (r.encode sampleStreamSerde) = some r) :
    sampleStreamSerde.Keeps r := by
  rw [SerdeJson.Keeps, sampleStreamSerde_parse, h, Option.map_some]

/-- Two swaps of the sample, the later one a fifth higher, give the signal. -/
theorem checkPriceIncrease_sample :
    sampleStreamSetting.checkPriceIncrease
      (readsOf (storeAll sampleStreamSetting.env.profile sampleStreamSerde 1000
        (updatesOf sampleStreamSetting.env.profile [.buy sampleEvent, .buy sampleLaterEvent])).redis)
      sampleMint.toText = .ok true := by
  have hstream : SwapStream sampleMint [.buy sampleEvent, .buy sampleLaterEvent] := by
    constructor <;> decide +kernel
  have hkeeps : ∀ e ∈ [Event.buy sampleEvent, .buy sampleLaterEvent],
      sampleTexts.lookup (e.update.record.encode sampleStreamSerde) = some e.update.record := by
    decide +kernel
  have hserde : ∀ e ∈ [Event.buy sampleEvent, .buy sampleLaterEvent],
      sampleStreamSetting.serde.Keeps e.update.record :=
    fun e he => sampleStreamSerde_keeps (hkeeps e he)
  have hreads := readsOf_of (storeAll sampleStreamSetting.env.profile sampleStreamSerde 1000
    (updatesOf sampleStreamSetting.env.profile [.buy sampleEvent, .buy sampleLaterEvent])).redis
  have hsignal := checkPriceIncrease_eq hstream hserde rfl hreads (by decide) (by decide)
  exact hsignal.trans (congrArg Except.ok (by decide +kernel))

/-! ### The latest price -/

namespace Event

/-- The handler of the event gets as far as sending the update. -/
def Sent (p : Profile) (e : Event) : Prop :=
  p = .release ∨ -2 ^ 63 ≤ e.swap.timestamp * 1000000 ∧ e.swap.timestamp * 1000000 < 2 ^ 63

instance (p : Profile) (e : Event) : Decidable (e.Sent p) := inferInstanceAs (Decidable (_ ∨ _ ∧ _))

/-- The time of the update that is sent. -/
def blocktimeUs (e : Event) : ℤ :=
  if -2 ^ 63 ≤ e.swap.timestamp * 1000000 ∧ e.swap.timestamp * 1000000 < 2 ^ 63 then e.swap.timestamp * 1000000
  else Int.bmod (e.swap.timestamp * 1000000) (2 ^ 64)

/-- The time can be read back: a build with overflow checks cannot take it for seconds if it lies too far
before 1970. -/
def Readable (p : Profile) (e : Event) : Prop := p = .release ∨ -2 ^ 63 ≤ e.swap.timestamp * 1000000000000

end Event

/-- The events of a mint that are sent. -/
def sentEvents (p : Profile) (m : Pubkey) (events : List Event) : List Event :=
  events.filter fun e => e.swap.HasWsol ∧ e.swap.token = m ∧ e.Sent p

/-- Those whose signature was new when they came, newest first. -/
def freshEvents (p : Profile) (m : Pubkey) (events : List Event) : List Event :=
  (sentEvents p m events).reverse.pwFilter fun a b => a.swap.signature ≠ b.swap.signature

section Latest

variable {p : Profile} {m : Pubkey} {e : Event} {events : List Event}

theorem mulI64_timestamp (p : Profile) (e : Event) :
    (e.Sent p → mulI64 p e.swap.timestamp 1000000 = .ok e.blocktimeUs) ∧
      (¬ e.Sent p → ∃ f, mulI64 p e.swap.timestamp 1000000 = .error f) := by
  simp only [Event.Sent, Event.blocktimeUs, mulI64]
  by_cases hfits : -2 ^ 63 ≤ e.swap.timestamp * 1000000 ∧ e.swap.timestamp * 1000000 < 2 ^ 63
  · rw [if_pos hfits, if_pos hfits]
    exact ⟨fun _ => rfl, fun hno => absurd (Or.inr hfits) hno⟩
  · rw [if_neg hfits, if_neg hfits]
    cases p with
    | dev =>
      refine ⟨fun hsent => ?_, fun _ => ⟨_, rfl⟩⟩
      rcases hsent with hp | hsent
      · cases hp
      · exact absurd hsent hfits
    | release => exact ⟨fun _ => rfl, fun hno => absurd (Or.inl rfl) hno⟩

theorem blocktimeUs_lt (e : Event) : e.blocktimeUs < 2 ^ 63 := by
  simp only [Event.blocktimeUs]
  split_ifs with h
  · exact h.2
  · exact Int.bmod_lt (by decide)

/-- The updates of a mint are those of its events that are sent. -/
theorem updatesOf_filter (p : Profile) (m : Pubkey) (events : List Event) :
    (updatesOf p events).filter (fun u => u.mint = m.toText) =
      (sentEvents p m events).map fun e => e.updateAt e.blocktimeUs := by
  simp only [updatesOf, sentEvents]
  induction events with
  | nil => rfl
  | cons e events ih =>
    rw [List.filterMap_cons, List.filter_cons, handleEvent_eq]
    by_cases hw : e.swap.HasWsol
    swap
    · simp [hw, ih]
    rw [if_pos hw]
    by_cases hs : e.Sent p
    swap
    · obtain ⟨f, hf⟩ := (mulI64_timestamp p e).2 hs
      simp [hf, hs, Except.map, ih]
    rw [(mulI64_timestamp p e).1 hs]
    by_cases hm : e.swap.token = m
    · simp [Except.map, hw, hs, hm, ih, Event.updateAt]
    · have htext : e.swap.token.toText ≠ m.toText := fun h => hm (Pubkey.toText_inj.mp h)
      simp [Except.map, hm, htext, ih, Event.updateAt]

theorem freshUpdates_updatesOf (p : Profile) (m : Pubkey) (events : List Event) :
    freshUpdates m.toText (updatesOf p events) = (freshEvents p m events).map fun e => e.updateAt e.blocktimeUs := by
  rw [freshUpdates, updatesOf_filter, ← List.map_reverse, List.pwFilter_map]
  rfl

/-- When the time of an event that was sent can be read back. -/
theorem readBack_iff (hs : e.Sent p) (value : TokenTradeRecord → ℚ) :
    (∃ r, ((e.updateAt e.blocktimeUs).record.reread value).readBack p = .ok r) ↔ e.Readable p := by
  have hback : (∃ r, ((e.updateAt e.blocktimeUs).record.reread value).readBack p = .ok r) ↔
      ∃ t, blocktimeOfInt p e.blocktimeUs = .ok t := by
    unfold TokenTradeRecord.readBack
    rw [show ((e.updateAt e.blocktimeUs).record.reread value).blocktimeUs = e.blocktimeUs from rfl]
    rcases blocktimeOfInt p e.blocktimeUs with f | t <;> simp [Except.map]
  rw [hback]
  unfold Event.Readable blocktimeOfInt mulI64
  cases p with
  | release =>
    refine iff_of_true ?_ (Or.inl rfl)
    split_ifs <;> exact ⟨_, rfl⟩
  | dev =>
    have hfits : -2 ^ 63 ≤ e.swap.timestamp * 1000000 ∧ e.swap.timestamp * 1000000 < 2 ^ 63 :=
      hs.resolve_left (by decide)
    rw [Event.blocktimeUs, if_pos hfits]
    split_ifs with hseconds hok
    · exact iff_of_true ⟨_, rfl⟩ (Or.inr (by omega))
    · refine iff_of_false ?_ ?_
      · rintro ⟨_, h⟩
        cases h
      · rintro (hp | hlow)
        · cases hp
        · exact hok ⟨by omega, by omega⟩
    · exact iff_of_true ⟨_, rfl⟩ (Or.inr (by omega))

/-- The swaps of a mint. -/
def swapsOf (m : Pubkey) (events : List Event) : List Event :=
  events.filter fun e => e.swap.HasWsol ∧ e.swap.token = m

/-- The latest price of a mint after some events. -/
theorem getLatestPriceFromTrades_updatesOf {number : Rounding 53} {back : ℚ → ℚ} {serde : SerdeJson} {r : ReadReplies}
    {maxTrades : UInt64}
    (hserde : ∀ e ∈ events, serde.ReadsAs (TokenTradeRecord.rereadPrice number back) (e.updateAt e.blocktimeUs).record)
    (hr : r.Of (storeAll p serde maxTrades (updatesOf p events)).redis) {price : ℚ} :
    getLatestPriceFromTrades p serde r m.toText = .ok (some price) ↔
      KeepsNewest p maxTrades ∧ ∃ newest, (freshEvents p m events).head? = some newest ∧ newest.Readable p ∧
        back (newest.swap.computedPrice number) = price := by
  have hsent : ∀ e ∈ freshEvents p m events, e ∈ events ∧ e.Sent p := by
    intro e he
    have hmem := List.mem_filter.mp (List.mem_reverse.mp (List.pwFilter_subset _ he))
    exact ⟨hmem.1, (of_decide_eq_true hmem.2).2.2⟩
  set records := (stored p maxTrades (freshEvents p m events)).map fun e => (e.updateAt e.blocktimeUs).record with hrecords
  have hlist : (storeAll p serde maxTrades (updatesOf p events)).redis.asList (tradesKey m.toText) =
      .ok (records.map (TokenTradeRecord.encode serde)) := by
    rw [storeAll_trades, freshUpdates_updatesOf, stored_map, hrecords, List.map_map, List.map_map]
    rfl
  have hreads : ∀ x ∈ records, serde.ReadsAs (TokenTradeRecord.rereadPrice number back) x ∧ x.blocktimeUs < 2 ^ 63 := by
    rw [hrecords, List.forall_mem_map]
    intro e he
    exact ⟨hserde e (hsent e (mem_of_mem_stored he)).1, blocktimeUs_lt e⟩
  have hhead : records.head? = if KeepsNewest p maxTrades then
      (freshEvents p m events).head?.map fun e => (e.updateAt e.blocktimeUs).record else none := by
    rw [hrecords, List.head?_map, head?_stored]
    split_ifs <;> rfl
  rw [getLatestPriceFromTrades_eq hr hlist hreads, hhead]
  by_cases hnew : KeepsNewest p maxTrades
  swap
  · simp [hnew]
  rw [if_pos hnew]
  rcases hfresh : (freshEvents p m events).head? with _ | newest
  · simp
  have hreadable := readBack_iff (hsent newest (List.mem_of_head? hfresh)).2 (TokenTradeRecord.rereadPrice number back)
  have hprice : (newest.updateAt newest.blocktimeUs).record.rereadPrice number back =
      back (newest.swap.computedPrice number) := rfl
  rcases hback : ((newest.updateAt newest.blocktimeUs).record.reread
    (TokenTradeRecord.rereadPrice number back)).readBack p with f | record
  · rw [hback] at hreadable
    have hunreadable : ¬ newest.Readable p := fun h => by
      obtain ⟨_, hok⟩ := hreadable.mpr h
      cases hok
    simp [hback, Except.map, hunreadable]
  · have hok : newest.Readable p := hreadable.mp ⟨record, hback⟩
    simp [hback, Except.map, hok, hnew, hprice]

/-- **Which swap the latest price is of.** After any events the latest price of each mint that occurs in
them is that of its last event if and only if records stay in the list they are pushed to, and of the
mint's events that were sent with a signature that was new for the mint, the newest has a time that can be
read back and a price whose digits are read as the price of the last event. -/
theorem getLatestPriceFromTrades_iff_last (number : Rounding 53) (back : ℚ → ℚ) {serde : SerdeJson} {r : ReadReplies}
    {maxTrades : UInt64}
    (hserde : ∀ e ∈ events, serde.ReadsAs (TokenTradeRecord.rereadPrice number back) (e.updateAt e.blocktimeUs).record)
    (hr : r.Of (storeAll p serde maxTrades (updatesOf p events)).redis) :
    (∀ m e, (swapsOf m events).getLast? = some e →
        getLatestPriceFromTrades p serde r m.toText = .ok (some (e.swap.computedPrice number))) ↔
      ∀ m e, (swapsOf m events).getLast? = some e → KeepsNewest p maxTrades ∧
        ∃ newest, (freshEvents p m events).head? = some newest ∧ newest.Readable p ∧
          back (newest.swap.computedPrice number) = e.swap.computedPrice number := by
  refine forall_congr' fun m => forall_congr' fun e => imp_congr_right fun _ => ?_
  exact getLatestPriceFromTrades_updatesOf hserde hr

end Latest

/-- `serde_json` on the sample's records, whose prices are doubles. -/
def sampleDoubleSerde : SerdeJson := sampleStreamSerde.reading (TokenTradeRecord.computedPrice .binary64)

/-- The two swaps of the sample, each with a signature of its own: the latest price is that of the later. -/
theorem getLatestPriceFromTrades_iff_last_sample :
    getLatestPriceFromTrades .release sampleDoubleSerde
      (readsOf (storeAll .release sampleDoubleSerde 1000
        (updatesOf .release [.buy sampleEvent, .buy sampleLaterEvent])).redis)
      sampleMint.toText = .ok (some (sampleLaterEvent.computedPrice .binary64)) := by
  have hkeeps : ∀ e ∈ [Event.buy sampleEvent, .buy sampleLaterEvent],
      sampleTexts.lookup ((e.updateAt e.blocktimeUs).record.encode sampleStreamSerde) =
        some (e.updateAt e.blocktimeUs).record := by
    decide +kernel
  have hlatest := (getLatestPriceFromTrades_iff_last .binary64 id
    (fun e he => (sampleStreamSerde_keeps (hkeeps e he)).reading (TokenTradeRecord.computedPrice .binary64))
    (readsOf_of (storeAll .release sampleDoubleSerde 1000
      (updatesOf .release [.buy sampleEvent, .buy sampleLaterEvent])).redis)).mpr ?_
  · exact hlatest sampleMint (.buy sampleLaterEvent) (by decide +kernel)
  intro m e he
  have hm : m = sampleMint := by
    have hmem := List.mem_filter.mp (List.mem_of_getLast? he)
    have htoken : ∀ e ∈ [Event.buy sampleEvent, .buy sampleLaterEvent], e.swap.token = sampleMint := by decide +kernel
    rw [← htoken e hmem.1, (of_decide_eq_true hmem.2).2]
  subst hm
  have hlast : (swapsOf sampleMint [.buy sampleEvent, .buy sampleLaterEvent]).getLast? = some (.buy sampleLaterEvent) := by
    decide +kernel
  rw [hlast] at he
  cases he
  exact ⟨Or.inl (by decide), .buy sampleLaterEvent, by decide +kernel, Or.inl rfl, rfl⟩

/-- A second swap of the transaction of the sample's first. -/
def sampleSecondSwap : SwapEvent := { sampleEvent with poolQuoteTokenReserves := 120000000000 }

/-- Two swaps of one transaction: the second is dropped, and the latest price is that of the first. -/
theorem getLatestPriceFromTrades_second_swap :
    let events : List Event := [.buy sampleEvent, .buy sampleSecondSwap]
    let latest := getLatestPriceFromTrades .release sampleDoubleSerde
      (readsOf (storeAll .release sampleDoubleSerde 1000 (updatesOf .release events)).redis) sampleMint.toText
    (events.map fun e => e.swap.timestamp).Pairwise (· ≤ ·) ∧
      (swapsOf sampleMint events).getLast? = some (.buy sampleSecondSwap) ∧
      latest = .ok (some (sampleEvent.computedPrice .binary64)) ∧
      sampleEvent.computedPrice .binary64 < sampleSecondSwap.computedPrice .binary64 ∧
      latest ≠ .ok (some (sampleSecondSwap.computedPrice .binary64)) := by
  decide +kernel

end PumpSwapBot.Rust
