import PumpSwapBot.Rust.Signals
import Mathlib.Data.Int.GCD

/-!
# Records there and back

A swap reaches the bot as an event of a pool, becomes a record, is stored as a text and is read again. Two things on
this way are guessed: the direction of the trade from the kind of the event (`handle_event` of `grpc_subscriber.rs`),
and the unit of the time from its size (`deserialize_blocktime` of `trading.rs`).

## What is proved

* `roundTrip_iff` — which records are read as they were stored, and on which numbers the reading of a time overflows.
* `handleEvent_mirror` — a trade seen from the other side of its pool leads to the same update, but for the direction;
  `orientation_lost` draws the conclusion for every event.
-/

namespace PumpSwapBot.Rust

open PumpSwapBot.Sdk PumpSwapBot.Library

/-! ### Times -/

section Times

variable {p : Profile} {n : ℤ}

/-- A product with 10^6 that wraps around to the number itself is one with 0: 10^6 - 1 is odd. -/
theorem eq_zero_of_bmod_eq_self (hsmall : n.natAbs < 2 ^ 64) (h : Int.bmod (n * 1000000) (2 ^ 64) = n) : n = 0 := by
  have hmod : n * 1000000 % (2 ^ 64 : ℕ) = n % (2 ^ 64 : ℕ) := by
    rw [← Int.bmod_emod, h]
  have hdvd : ((2 ^ 64 : ℕ) : ℤ) ∣ 999999 * n := by
    rw [show 999999 * n = n * 1000000 - n by ring]
    exact Int.dvd_of_emod_eq_zero (by rw [Int.sub_emod, hmod, sub_self, Int.zero_emod])
  have hn : ((2 ^ 64 : ℕ) : ℤ) ∣ n := Int.dvd_of_dvd_mul_right_of_gcd_one hdvd (by decide)
  exact Int.eq_zero_of_dvd_of_natAbs_lt_natAbs hn hsmall

theorem mulI64_eq_self_iff (h : -2 ^ 63 ≤ n ∧ n < 2 ^ 63) : mulI64 p n 1000000 = .ok n ↔ n = 0 := by
  have hsmall : n.natAbs < 2 ^ 64 := by omega
  simp only [mulI64]
  constructor
  · intro hmul
    split_ifs at hmul with hfits
    · have hself : n * 1000000 = n := Except.ok.inj hmul
      omega
    · cases p with
      | dev => cases hmul
      | release => exact eq_zero_of_bmod_eq_self hsmall (Except.ok.inj hmul)
  · rintro rfl
    rfl

/-- A time is read as it was written if it is large enough to be taken for microseconds, or 0. -/
theorem blocktimeOfInt_eq_self_iff (h : -2 ^ 63 ≤ n ∧ n < 2 ^ 63) :
    blocktimeOfInt p n = .ok n ↔ n = 0 ∨ 1000000000000 ≤ n := by
  simp only [blocktimeOfInt]
  split_ifs with hseconds
  · rw [mulI64_eq_self_iff h]
    omega
  · exact iff_of_true rfl (Or.inr (by omega))

/-- The reading of a time overflows on numbers that lie too far below 0. -/
theorem blocktimeOfInt_dev_iff (h : -2 ^ 63 ≤ n ∧ n < 2 ^ 63) :
    (∃ t, blocktimeOfInt .dev n = .ok t) ↔ -9223372036854 ≤ n := by
  unfold blocktimeOfInt mulI64
  split_ifs with hseconds hfits
  · exact iff_of_true ⟨_, rfl⟩ (by omega)
  · exact iff_of_false (fun ⟨_, ht⟩ => by cases ht) (by omega)
  · exact iff_of_true ⟨_, rfl⟩ (by omega)

theorem parseI64_range {s : String} (h : parseI64 s = some n) : -2 ^ 63 ≤ n ∧ n < 2 ^ 63 := by
  simp only [parseI64] at h
  obtain ⟨-, h⟩ := Option.ite_none_right_eq_some.mp h
  obtain ⟨hrange, h⟩ := Option.ite_none_right_eq_some.mp h
  cases h
  exact hrange

end Times

/-- The record of a trade whose event has a time in seconds. -/
def recordAt (mint : String) (tokenAmount solAmount : UInt64) (isBuy : Bool) (signature : String) (timestamp : ℤ) :
    TokenTradeRecord :=
  .fromTransaction mint tokenAmount solAmount isBuy signature (timestamp * 1000000)

/-- A time in seconds whose microseconds are an `i64`. -/
def TimeFits (timestamp : ℤ) : Prop := -2 ^ 63 ≤ timestamp * 1000000 ∧ timestamp * 1000000 < 2 ^ 63

/-- What the handler of an event makes of its time. -/
theorem handleEvent_recordAt {p : Profile} {e : Event} (hw : e.swap.HasWsol) (ht : TimeFits e.swap.timestamp) :
    ∃ u, handleEvent p e = .ok (some u) ∧ u.record =
      recordAt e.swap.token.toText e.swap.tokenReserves e.swap.solReserves e.isBuy e.swap.signature e.swap.timestamp := by
  refine ⟨e.updateAt (e.swap.timestamp * 1000000), ?_, rfl⟩
  rw [handleEvent_eq, if_pos hw, mulI64_ok ht]
  rfl

theorem readBack_eq_self_iff {p : Profile} {r : TokenTradeRecord} (h : -2 ^ 63 ≤ r.blocktimeUs ∧ r.blocktimeUs < 2 ^ 63) :
    r.readBack p = .ok r ↔ r.blocktimeUs = 0 ∨ 1000000000000 ≤ r.blocktimeUs := by
  rw [← blocktimeOfInt_eq_self_iff (p := p) h, TokenTradeRecord.readBack]
  rcases blocktimeOfInt p r.blocktimeUs with f | t
  · exact iff_of_false (fun h => by cases h) (fun h => by cases h)
  · constructor
    · intro hback
      exact congrArg (fun r => Except.ok (TokenTradeRecord.blocktimeUs r)) (Except.ok.inj hback)
    · intro ht
      cases ht
      rfl

/-- **Which records are read as they were stored, and when the reading of a time overflows.** The record of a trade is
read from its text unchanged exactly if its time is 0 or at least 10^6 seconds. The time of a number, or of the text of
one, is read without overflow exactly if the number is at least -9223372036854. -/
theorem roundTrip_iff (p : Profile) (serde : SerdeJson) (now : ℤ) :
    (∀ mint tokenAmount solAmount isBuy signature timestamp, TimeFits timestamp →
      serde.Keeps (recordAt mint tokenAmount solAmount isBuy signature timestamp) →
      (TokenTradeRecord.decode p serde now
          ((recordAt mint tokenAmount solAmount isBuy signature timestamp).encode serde) =
        .ok (recordAt mint tokenAmount solAmount isBuy signature timestamp) ↔
      timestamp = 0 ∨ 1000000 ≤ timestamp)) ∧
    (∀ n : ℤ, -2 ^ 63 ≤ n ∧ n < 2 ^ 63 →
      ((∃ t, deserializeBlocktime .dev now (.int n) = .ok t) ↔ -9223372036854 ≤ n)) ∧
    ∀ text n, parseI64 text = some n →
      ((∃ t, deserializeBlocktime .dev now (.str text) = .ok t) ↔ -9223372036854 ≤ n) := by
  refine ⟨?_, ?_, ?_⟩
  · intro mint tokenAmount solAmount isBuy signature timestamp hfits hkeeps
    have hus : (recordAt mint tokenAmount solAmount isBuy signature timestamp).blocktimeUs = timestamp * 1000000 := rfl
    rw [decode_encode hkeeps.readsAs (hus ▸ hfits.2), reread_price, readBack_eq_self_iff (hus ▸ hfits), hus]
    omega
  · intro n hn
    rw [deserializeBlocktime, if_pos hn.2, blocktimeOfInt_dev_iff hn]
  · intro text n htext
    rw [← blocktimeOfInt_dev_iff (parseI64_range htext), deserializeBlocktime, htext]

/-- The record of the sample's event. -/
theorem roundTrip_iff_sample :
    TokenTradeRecord.decode .release sampleStreamSerde 0 (sampleUpdate.record.encode sampleStreamSerde) =
      .ok sampleUpdate.record := by
  have hkeeps : sampleTexts.lookup (sampleUpdate.record.encode sampleStreamSerde) = some sampleUpdate.record := by
    decide +kernel
  exact ((roundTrip_iff .release sampleStreamSerde 0).1 sampleUpdate.mint 200000000000 100000000000 true "a" 1700000000
    ⟨by decide, by decide⟩ (sampleStreamSerde_keeps hkeeps)).mpr (Or.inr (by decide))

/-- The record of an event one second after the beginning of the time. -/
def sampleEarlyRecord : TokenTradeRecord :=
  recordAt "2b1kV6DkPAnxd5ixfnxCpjxmKwqjjaYmCZfHsFu24GXo" 200000000000 100000000000 true "a" 1

/-- Its text. -/
def sampleEarlyText : String :=
  "\x7b\"mint\":\"2b1kV6DkPAnxd5ixfnxCpjxmKwqjjaYmCZfHsFu24GXo\",\"token_amount\":200000000000,\"sol_amount\":100000000000,\"price\":0.0005,\"blocktime_us\":1000000,\"is_buy\":true,\"signature\":\"a\"\x7d"

/-- `serde_json` on this record. -/
def sampleEarlySerde : SerdeJson where
  toText _ := sampleEarlyText
  parse text := if text = sampleEarlyText then some sampleEarlyRecord.toJson else none
  error := sampleSerde.error

/-- It is read with another time, and the time of a number far below 0 overflows. -/
theorem roundTrip_misread :
    sampleEarlySerde.Keeps sampleEarlyRecord ∧
    TokenTradeRecord.decode .release sampleEarlySerde 0 (sampleEarlyRecord.encode sampleEarlySerde) =
      .ok { sampleEarlyRecord with blocktimeUs := 1000000000000 } ∧
    ({ sampleEarlyRecord with blocktimeUs := 1000000000000 } : TokenTradeRecord) ≠ sampleEarlyRecord ∧
    deserializeBlocktime .dev 0 (.int (-9223372036855)) = .error (.panic "attempt to multiply with overflow") := by
  have hkeeps : sampleEarlySerde.Keeps sampleEarlyRecord := by
    simp [SerdeJson.Keeps, TokenTradeRecord.encode, sampleEarlySerde]
  refine ⟨hkeeps, ?_, ?_, rfl⟩
  · rw [decode_encode hkeeps.readsAs (by decide)]
    rfl
  · intro h
    have htime : (1000000000000 : ℤ) = 1 * 1000000 := congrArg TokenTradeRecord.blocktimeUs h
    omega

/-! ### The two sides of a pool -/

/-- The swap as a pool with the mints exchanged tells of it. -/
def SwapEvent.mirror (e : SwapEvent) : SwapEvent where
  baseMint := e.quoteMint
  quoteMint := e.baseMint
  poolBaseTokenReserves := e.poolQuoteTokenReserves
  poolQuoteTokenReserves := e.poolBaseTokenReserves
  timestamp := e.timestamp
  signature := e.signature

/-- A buy of the base of a pool is a sell of its quote. -/
def Event.mirror : Event → Event
  | .buy e => .sell e.mirror
  | .sell e => .buy e.mirror

/-- Exactly one of the mints is wrapped SOL. -/
def SwapEvent.OneWsol (e : SwapEvent) : Prop := e.baseMint = wsolTokenAccount ↔ e.quoteMint ≠ wsolTokenAccount

/-- The trader gets what is not wrapped SOL: the base by a buy, the quote by a sell. -/
def Event.AcquiresToken : Event → Prop
  | .buy e => e.baseMint ≠ wsolTokenAccount
  | .sell e => e.quoteMint ≠ wsolTokenAccount

section Mirror

variable {p : Profile} {e : Event}

theorem Event.mirror_swap (e : Event) : e.mirror.swap = e.swap.mirror := by cases e <;> rfl

theorem Event.mirror_isBuy (e : Event) : e.mirror.isBuy = !e.isBuy := by cases e <;> rfl

theorem SwapEvent.OneWsol.hasWsol {e : SwapEvent} (h : e.OneWsol) : e.HasWsol := by
  by_cases hbase : e.baseMint = wsolTokenAccount
  · exact Or.inl hbase
  · exact Or.inr (not_not.mp fun hquote => hbase (h.mpr hquote))

theorem SwapEvent.OneWsol.mirror {e : SwapEvent} (h : e.OneWsol) : e.mirror.OneWsol := by
  simp only [SwapEvent.OneWsol] at h ⊢
  simp only [SwapEvent.mirror]
  tauto

/-- The token and the reserves of a swap do not depend on the side. -/
theorem updateAt_mirror (h : e.swap.OneWsol) (t : ℤ) :
    e.mirror.updateAt t = { e.updateAt t with isBuy := !e.isBuy } := by
  simp only [Event.updateAt]
  rw [e.mirror_swap, e.mirror_isBuy]
  by_cases hbase : e.swap.baseMint = wsolTokenAccount
  · have hquote : e.swap.quoteMint ≠ wsolTokenAccount := h.mp hbase
    simp [SwapEvent.mirror, SwapEvent.token, SwapEvent.tokenReserves, SwapEvent.solReserves, hbase, hquote]
  · have hquote : e.swap.quoteMint = wsolTokenAccount := not_not.mp fun hquote => hbase (h.mpr hquote)
    simp [SwapEvent.mirror, SwapEvent.token, SwapEvent.tokenReserves, SwapEvent.solReserves, hbase, hquote]

/-- **A trade seen from the other side of its pool** leads to the same update with the other direction. -/
theorem handleEvent_mirror (h : e.swap.OneWsol) :
    handleEvent p e.mirror = (handleEvent p e).map fun u => u.map fun u => { u with isBuy := !u.isBuy } := by
  have hmirror : e.mirror.swap.OneWsol := by
    rw [e.mirror_swap]
    exact h.mirror
  have htime : e.mirror.swap.timestamp = e.swap.timestamp := by
    rw [e.mirror_swap]
    rfl
  rw [handleEvent_eq, handleEvent_eq, if_pos hmirror.hasWsol, if_pos h.hasWsol, htime]
  rcases mulI64 p e.swap.timestamp 1000000 with f | t
  · rfl
  · simp only [Except.map, Option.map_some, updateAt_mirror h]
    rfl

/-- The direction of an update is that of the trade exactly if the pool is quoted in wrapped SOL. -/
theorem isBuy_iff_acquiresToken_iff (h : e.swap.OneWsol) :
    (e.isBuy = true ↔ e.AcquiresToken) ↔ e.swap.quoteMint = wsolTokenAccount := by
  simp only [SwapEvent.OneWsol] at h
  cases e with
  | buy e =>
    simp only [Event.isBuy, Event.AcquiresToken, Event.swap] at h ⊢
    tauto
  | sell e =>
    simp only [Event.isBuy, Event.AcquiresToken, Event.swap] at h ⊢
    tauto

/-- **The side of a pool is never told apart from the direction of a trade.** No event with wrapped SOL on one side leads
to the same update as its mirror with the direction of the trade. If an update is sent at all, the two differ in the
direction alone, and it is right exactly if the pool is quoted in wrapped SOL. -/
theorem orientation_lost (p : Profile) (h : e.swap.OneWsol) :
    (¬ ∃ u, handleEvent p e = .ok (some u) ∧ handleEvent p e.mirror = .ok (some u) ∧
      (u.isBuy = true ↔ e.AcquiresToken)) ∧
    ∀ u, handleEvent p e = .ok (some u) →
      handleEvent p e.mirror = .ok (some { u with isBuy := !u.isBuy }) ∧
      ((u.isBuy = true ↔ e.AcquiresToken) ↔ e.swap.quoteMint = wsolTokenAccount) := by
  have hmirror : ∀ u, handleEvent p e = .ok (some u) → handleEvent p e.mirror = .ok (some { u with isBuy := !u.isBuy }) := by
    intro u hu
    rw [handleEvent_mirror h, hu]
    rfl
  constructor
  · rintro ⟨u, hu, hu', -⟩
    rw [hmirror u hu] at hu'
    have hdirection := congrArg TransactionUpdate.isBuy (Option.some.inj (Except.ok.inj hu'))
    simp at hdirection
  · intro u hu
    refine ⟨hmirror u hu, ?_⟩
    rw [handleEvent_eq, if_pos h.hasWsol] at hu
    obtain ⟨t, -, ht⟩ := exists_of_map_eq_ok hu
    cases ht
    exact isBuy_iff_acquiresToken_iff h

end Mirror

theorem oneWsol_sampleEvent : (Event.buy sampleEvent).swap.OneWsol := by
  simp only [SwapEvent.OneWsol]
  decide +kernel

theorem orientation_lost_sample :
    handleEvent .release (.buy sampleEvent) = .ok (some sampleUpdate) ∧
      handleEvent .release (Event.buy sampleEvent).mirror = .ok (some { sampleUpdate with isBuy := false }) := by
  have hupdate : handleEvent .release (.buy sampleEvent) = .ok (some sampleUpdate) := by decide +kernel
  exact ⟨hupdate, ((orientation_lost .release oneWsol_sampleEvent).2 _ hupdate).1⟩

/-- The sample's buy, told by a pool that has wrapped SOL as its base, is taken for a sell. -/
theorem mirror_of_buy_is_sell :
    (Event.buy sampleEvent).swap.OneWsol ∧ (Event.buy sampleEvent).mirror.AcquiresToken ∧
      handleEvent .release (.buy sampleEvent) = .ok (some sampleUpdate) ∧
      handleEvent .release (Event.buy sampleEvent).mirror = .ok (some { sampleUpdate with isBuy := false }) ∧
      sampleUpdate.isBuy = true := by
  refine ⟨oneWsol_sampleEvent, ?_, by decide +kernel, by decide +kernel, rfl⟩
  show sampleEvent.baseMint ≠ wsolTokenAccount
  decide +kernel

end PumpSwapBot.Rust
