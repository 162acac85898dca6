import PumpSwapBot.Library.ConstantProduct
import PumpSwapBot.Library.Machine
import PumpSwapBot.Sdk.Calc

/-!
# The four quotes of a pool, and trading at them

`utils/calc/pumpswap.rs` answers four questions about a pool: what a base amount costs and what a
quote amount buys, what a base amount sells for and what must be sold for a quote amount. Two of them
are in `Sdk.Calc`; the other two, their inverses, are added here, and the four are held against each
other.

## What is proved

* `buyBase_buyQuote` — paying what the first quotes buys that much by the second, and less than
  three lamports of it are for the roundings.
* `sellQuote_sellBase` — selling what the fourth asks for brings what was wanted by the third, but
  for two lamports at most: it rounds the fees once and the third rounds each of them.
* `buyBase_kept_iff` — the cost of a base amount is cut to 64 bits: exactly where it has more, the
  pool would lose.
* `Market.no_profit` — over every run of trades at the four quotes, in any order, traders who end with the base
  they began with have no more quote than they began with, and the other way round.
-/

namespace PumpSwapBot.Sdk

open PumpSwapBot.Library PumpSwapBot.Library.ConstantProduct

/-! ### The functions of the source -/

/-- What a base amount costs. -/
structure BuyBaseInputResult where
  /-- Raw quote amount needed before fees. -/
  internalQuoteAmount : UInt64
  /-- Total quote amount including all fees. -/
  uiQuote : UInt64
  /-- Maximum quote amount with slippage protection. -/
  maxQuote : UInt64
  deriving DecidableEq

/-- What must be sold for a quote amount. -/
structure SellQuoteInputResult where
  /-- Raw quote amount including fees. -/
  internalRawQuote : UInt64
  /-- Amount of base tokens needed to sell. -/
  base : UInt64
  /-- Minimum quote amount with slippage protection. -/
  minQuote : UInt64
  deriving DecidableEq

/-- The cost and its three fees, summed in `u64`. -/
def totalQuote (p : Profile) (quoteAmountIn : UInt64) (coinCreator : Pubkey) : Result UInt64 := do
  let lpFee := asU64 (computeFee quoteAmountIn.toNat lpFeeBasisPoints)
  let protocolFee := asU64 (computeFee quoteAmountIn.toNat protocolFeeBasisPoints)
  let coinCreatorFee := if coinCreator = Pubkey.default then 0
    else asU64 (computeFee quoteAmountIn.toNat coinCreatorFeeBasisPoints)
  let total ← addU64 p quoteAmountIn lpFee
  let total ← addU64 p total protocolFee
  addU64 p total coinCreatorFee

/-- Calculate quote amount needed to buy a specific amount of base tokens. -/
def buyBaseInputInternal (p : Profile) (base slippageBasisPoints baseReserve quoteReserve : UInt64)
    (coinCreator : Pubkey) : Result BuyBaseInputResult := do
  bailIf (baseReserve = 0 ∨ quoteReserve = 0)
    "Invalid input: 'baseReserve' or 'quoteReserve' cannot be zero."
  bailIf (base > baseReserve) "Cannot buy more base tokens than the pool reserves."
  let numerator := quoteReserve.toNat * base.toNat
  let denominator ← subU64 p baseReserve base
  bailIf (denominator = 0) "Pool would be depleted; denominator is zero."
  let quoteAmountIn := asU64 (ceilDiv numerator denominator.toNat)
  let totalQuote ← totalQuote p quoteAmountIn coinCreator
  let maxQuote ← calculateWithSlippageBuy p totalQuote slippageBasisPoints
  return { internalQuoteAmount := quoteAmountIn
           uiQuote := totalQuote
           maxQuote := maxQuote }

/-- The basis points of a whole. -/
def maxFeeBasisPoints : ℕ := 10000

/-- Calculate quote amount out including fees. -/
def calculateQuoteAmountOut (userQuoteAmountOut : UInt64)
    (lpFeeBasisPoints protocolFeeBasisPoints coinCreatorFeeBasisPoints : ℕ) : UInt64 :=
  let totalFeeBasisPoints := lpFeeBasisPoints + protocolFeeBasisPoints + coinCreatorFeeBasisPoints
  let denominator := maxFeeBasisPoints - totalFeeBasisPoints
  asU64 (ceilDiv (userQuoteAmountOut.toNat * maxFeeBasisPoints) denominator)

/-- Calculate base tokens needed to receive a specific amount of quote tokens. -/
def sellQuoteInputInternal (p : Profile) (quote slippageBasisPoints baseReserve quoteReserve : UInt64)
    (coinCreator : Pubkey) : Result SellQuoteInputResult := do
  bailIf (baseReserve = 0 ∨ quoteReserve = 0)
    "Invalid input: 'baseReserve' or 'quoteReserve' cannot be zero."
  bailIf (quote > quoteReserve) "Cannot receive more quote tokens than the pool quote reserves."
  let rawQuote := calculateQuoteAmountOut quote lpFeeBasisPoints protocolFeeBasisPoints
    (if coinCreator = Pubkey.default then 0 else coinCreatorFeeBasisPoints)
  bailIf (rawQuote ≥ quoteReserve) "Invalid input: Desired quote amount exceeds available reserve."
  let remaining ← subU64 p quoteReserve rawQuote
  let baseAmountIn := asU64 (ceilDiv (baseReserve.toNat * rawQuote.toNat) remaining.toNat)
  let minQuote ← calculateWithSlippageSell p quote slippageBasisPoints
  return { internalRawQuote := rawQuote
           base := baseAmountIn
           minQuote := minQuote }

/-! ### The quotes in closed form -/

section Closed

variable {p : Profile} {n q slip x y : UInt64} {c : Pubkey}

theorem totalQuote_eq (h : q.toNat + totalFees c q.toNat < 2 ^ 64) :
    ∃ t, totalQuote p q c = .ok t ∧ t.toNat = q.toNat + totalFees c q.toNat := by
  have hfee : ∀ b, b ≤ 25 → (asU64 (computeFee q.toNat b)).toNat = computeFee q.toNat b := by
    intro b hb
    have := computeFee_lt (UInt64.toNat_lt q) hb
    exact toNat_asU64 (by omega)
  have e₁ := hfee lpFeeBasisPoints (by decide)
  have e₂ := hfee protocolFeeBasisPoints (by decide)
  have e₃ := hfee coinCreatorFeeBasisPoints (by decide)
  simp only [totalFees] at h ⊢
  simp only [totalQuote]
  rw [addU64_ok (by omega), ok_bind, addU64_ok (by rw [UInt64.toNat_add]; omega), ok_bind, addU64_ok]
  · refine ⟨_, rfl, ?_⟩
    split_ifs at h ⊢ <;> simp only [UInt64.toNat_add, UInt64.toNat_zero, e₁, e₂, e₃] <;> omega
  · split_ifs at h ⊢ <;> simp only [UInt64.toNat_add, UInt64.toNat_zero, e₁, e₂, e₃] <;> omega

/-- The cost of a base amount, before its sum with the fees. -/
theorem buyBaseInputInternal_ok {r : BuyBaseInputResult} (h : buyBaseInputInternal p n slip x y c = .ok r) :
    0 < x.toNat ∧ 0 < y.toNat ∧ n.toNat < x.toNat ∧
      r.internalQuoteAmount = asU64 (amountIn n.toNat y.toNat x.toNat) ∧
      totalQuote p r.internalQuoteAmount c = .ok r.uiQuote := by
  obtain ⟨_, hzero, h⟩ := bind_eq_ok.mp h
  obtain ⟨_, hbase, h⟩ := bind_eq_ok.mp h
  obtain ⟨d, hd, h⟩ := bind_eq_ok.mp h
  obtain ⟨_, hdepleted, h⟩ := bind_eq_ok.mp h
  obtain ⟨t, ht, h⟩ := bind_eq_ok.mp h
  obtain ⟨m, -, h⟩ := bind_eq_ok.mp h
  cases h
  rw [bailIf_eq_ok] at hzero hbase hdepleted
  have hle : n.toNat ≤ x.toNat := UInt64.le_iff_toNat_le.mp (UInt64.not_lt.mp hbase)
  rw [subU64_ok hle] at hd
  cases hd
  have hsub : (x - n).toNat = x.toNat - n.toNat := UInt64.toNat_sub_of_le _ _ (UInt64.le_iff_toNat_le.mpr hle)
  have hx : x.toNat ≠ 0 := fun h0 => hzero (.inl (UInt64.toNat.inj h0))
  have hy : y.toNat ≠ 0 := fun h0 => hzero (.inr (UInt64.toNat.inj h0))
  have hd : x.toNat - n.toNat ≠ 0 := fun h0 => hdepleted (UInt64.toNat.inj (hsub.trans h0))
  refine ⟨by omega, by omega, by omega, ?_, ht⟩
  rw [hsub]
  rfl

/-- What a quote amount buys. -/
theorem buyQuoteInputInternal_ok {r : BuyQuoteInputResult} (h : buyQuoteInputInternal p q slip x y c = .ok r) :
    0 < x.toNat ∧ 0 < y.toNat ∧
      r.internalQuoteWithoutFees.toNat = q.toNat * 10000 / (10000 + feeBasisPoints c) ∧
      r.base.toNat = amountOut r.internalQuoteWithoutFees.toNat y.toNat x.toNat := by
  obtain ⟨_, hzero, h⟩ := bind_eq_ok.mp h
  obtain ⟨_, -, h⟩ := bind_eq_ok.mp h
  obtain ⟨m, -, h⟩ := bind_eq_ok.mp h
  cases h
  rw [bailIf_eq_ok] at hzero
  have hx : x.toNat ≠ 0 := fun h0 => hzero (.inl (UInt64.toNat.inj h0))
  have hy : y.toNat ≠ 0 := fun h0 => hzero (.inr (UInt64.toNat.inj h0))
  have hbps : 10000 + (lpFeeBasisPoints + protocolFeeBasisPoints
      + if c = Pubkey.default then 0 else coinCreatorFeeBasisPoints) = 10000 + feeBasisPoints c := by
    unfold feeBasisPoints lpFeeBasisPoints protocolFeeBasisPoints coinCreatorFeeBasisPoints
    split_ifs <;> rfl
  rw [hbps]
  set eff := q.toNat * 10000 / (10000 + feeBasisPoints c)
  have heff : eff ≤ q.toNat := Nat.div_le_of_le_mul (by nlinarith)
  have hcast : (asU64 eff).toNat = eff := toNat_asU64 (lt_of_le_of_lt heff (UInt64.toNat_lt q))
  refine ⟨by omega, by omega, hcast, ?_⟩
  dsimp only
  rw [hcast]
  exact toNat_asU64 (lt_of_le_of_lt (amountOut_le eff y.toNat x.toNat) (UInt64.toNat_lt x))

/-- What a base amount sells for. -/
theorem sellBaseInputInternal_ok {r : SellBaseInputResult} (h : sellBaseInputInternal p n slip x y c = .ok r) :
    0 < x.toNat ∧ 0 < y.toNat ∧ r.internalQuoteAmountOut.toNat = amountOut n.toNat x.toNat y.toNat ∧
      r.uiQuote.toNat = amountOut n.toNat x.toNat y.toNat - totalFees c (amountOut n.toNat x.toNat y.toNat) := by
  have hzero : ¬ (x = 0 ∨ y = 0) := by
    obtain ⟨_, hzero, -⟩ := bind_eq_ok.mp h
    exact bailIf_eq_ok.mp hzero
  have hx : x.toNat ≠ 0 := fun h0 => hzero (.inl (UInt64.toNat.inj h0))
  have hy : y.toNat ≠ 0 := fun h0 => hzero (.inr (UInt64.toNat.inj h0))
  rw [sellBaseInputInternal_cases rfl (fun h0 => hzero (.inl h0)) (fun h0 => hzero (.inr h0))] at h
  have hout : quoteOut n.toNat x.toNat y.toNat = amountOut n.toNat x.toNat y.toNat := rfl
  rw [hout] at h
  have hlt := lt_of_le_of_lt (amountOut_le n.toNat x.toNat y.toNat) (UInt64.toNat_lt y)
  split_ifs at h
  · generalize calculateWithSlippageSell p _ slip = bound at h
    rcases bound with e | m <;> cases h
    exact ⟨by omega, by omega, toNat_asU64 hlt, toNat_asU64 (by omega)⟩
  · cases h

/-- The quote amount and its fees, which the fourth quote takes out of the pool. -/
def rawQuote (c : Pubkey) (q : ℕ) : ℕ := (q * 10000) ⌈/⌉ (10000 - feeBasisPoints c)

theorem rawQuote_le_iff {q : ℕ} {raw : ℕ} : rawQuote c q ≤ raw ↔ q * 10000 ≤ (10000 - feeBasisPoints c) * raw := by
  have := feeBasisPoints_le c
  exact ceilDiv_le_iff_le_mul (by omega)

theorem le_rawQuote (c : Pubkey) (q : ℕ) : q ≤ rawQuote c q := by
  have hraw : q * 10000 ≤ (10000 - feeBasisPoints c) * rawQuote c q := rawQuote_le_iff.mp le_rfl
  have hle : (10000 - feeBasisPoints c) * rawQuote c q ≤ 10000 * rawQuote c q :=
    Nat.mul_le_mul_right _ (Nat.sub_le _ _)
  omega

/-- What must be sold for a quote amount. -/
theorem sellQuoteInputInternal_ok {r : SellQuoteInputResult} (h : sellQuoteInputInternal p q slip x y c = .ok r) :
    0 < x.toNat ∧ r.internalRawQuote = asU64 (rawQuote c q.toNat) ∧ r.internalRawQuote.toNat < y.toNat ∧
      r.base = asU64 (amountIn r.internalRawQuote.toNat x.toNat y.toNat) := by
  obtain ⟨_, hzero, h⟩ := bind_eq_ok.mp h
  obtain ⟨_, -, h⟩ := bind_eq_ok.mp h
  obtain ⟨_, hraw, h⟩ := bind_eq_ok.mp h
  obtain ⟨d, hd, h⟩ := bind_eq_ok.mp h
  obtain ⟨m, -, h⟩ := bind_eq_ok.mp h
  cases h
  rw [bailIf_eq_ok] at hzero hraw
  have hx : x.toNat ≠ 0 := fun h0 => hzero (.inl (UInt64.toNat.inj h0))
  have hlt := UInt64.lt_iff_toNat_lt.mp (UInt64.not_le.mp hraw)
  rw [subU64_ok hlt.le] at hd
  cases hd
  refine ⟨by omega, ?_, hlt, ?_⟩
  · simp only [calculateQuoteAmountOut, rawQuote, feeBasisPoints]
    split_ifs <;> rfl
  · rw [UInt64.toNat_sub_of_le _ _ (UInt64.le_iff_toNat_le.mpr hlt.le)]
    rfl

end Closed

/-! ### The quotes against each other -/

section Inverse

variable {p p' : Profile} {n q slip slip' x y : UInt64} {c : Pubkey}

/-- **The cost of a base amount is cut to 64 bits:** exactly where it has more, the pool would lose by it. -/
theorem buyBase_kept_iff {r : BuyBaseInputResult} (h : buyBaseInputInternal p n slip x y c = .ok r) :
    x.toNat * y.toNat ≤ (x.toNat - n.toNat) * (y.toNat + r.internalQuoteAmount.toNat) ↔
      y.toNat * n.toNat ≤ (x.toNat - n.toNat) * (2 ^ 64 - 1) := by
  obtain ⟨hx, hy, hn, hin, -⟩ := buyBaseInputInternal_ok h
  have hfits : amountIn n.toNat y.toNat x.toNat ≤ 2 ^ 64 - 1 ↔ y.toNat * n.toNat ≤ (x.toNat - n.toNat) * (2 ^ 64 - 1) :=
    ceilDiv_le_iff_le_mul (by omega)
  rw [← hfits, Nat.mul_comm, Nat.mul_comm (x.toNat - n.toNat), ← le_amountOut_iff_kept hy hn.le,
    ← amountIn_le_iff hy hn]
  constructor
  · intro hle
    have := UInt64.toNat_lt r.internalQuoteAmount
    omega
  · intro hle
    rw [hin, toNat_asU64 (by omega)]

/-- At the failing edge: all but one unit of a pool of `2 ^ 32 + 1` is quoted at nothing. -/
example : (buyBaseInputInternal .dev 4294967296 0 4294967297 4294967296 Pubkey.default).toOption.map (·.uiQuote) =
    some 0 := by decide

theorem buyBase_kept_iff_thousand : buyBaseInputInternal .dev 10 100 1000 1000 Pubkey.default = .ok ⟨11, 13, 13⟩ ∧
    1000 * 1000 ≤ (1000 - 10) * (1000 + 11) := by
  have hbuy : buyBaseInputInternal .dev 10 100 1000 1000 Pubkey.default = .ok ⟨11, 13, 13⟩ := by decide
  exact ⟨hbuy, (buyBase_kept_iff hbuy).mpr (by decide)⟩

/-- The effective part of a quote amount reaches an amount exactly if the whole does with its basis points. -/
theorem le_effective_iff {i q : ℕ} :
    i ≤ q * 10000 / (10000 + feeBasisPoints c) ↔ i * (10000 + feeBasisPoints c) ≤ q * 10000 :=
  Nat.le_div_iff_mul_le (by omega)

/-- **Paying what a base amount is quoted at buys that amount**, and paying three lamports less does not. -/
theorem buyBase_buyQuote {r : BuyBaseInputResult} {b : BuyQuoteInputResult}
    (hbuy : buyBaseInputInternal p n slip x y c = .ok r)
    (hfits : amountIn n.toNat y.toNat x.toNat + totalFees c (amountIn n.toNat y.toNat x.toNat) < 2 ^ 64)
    (hquote : buyQuoteInputInternal p' q slip' x y c = .ok b) :
    (r.uiQuote ≤ q → n ≤ b.base) ∧ (q.toNat + 2 < r.uiQuote.toNat → b.base < n) := by
  obtain ⟨-, hy, hn, hin, htotal⟩ := buyBaseInputInternal_ok hbuy
  obtain ⟨-, -, heff, hbase⟩ := buyQuoteInputInternal_ok hquote
  set i := amountIn n.toNat y.toNat x.toNat with hi
  have hcast : r.internalQuoteAmount.toNat = i := by
    rw [hin]
    exact toNat_asU64 (by omega)
  obtain ⟨t, ht, htn⟩ := totalQuote_eq (p := p) (q := r.internalQuoteAmount) (c := c) (by rwa [hcast])
  rw [htotal] at ht
  cases ht
  rw [hcast] at htn
  have hreaches : n.toNat ≤ b.base.toNat ↔ i * (10000 + feeBasisPoints c) ≤ q.toNat * 10000 := by
    rw [hbase, ← amountIn_le_iff hy hn, ← hi, heff, le_effective_iff]
  obtain ⟨hlow, hup⟩ := totalFees_bounds c i
  constructor
  · intro hle
    rw [UInt64.le_iff_toNat_le] at hle ⊢
    rw [hreaches, Nat.mul_add]
    omega
  · intro hlt
    rw [UInt64.lt_iff_toNat_lt, ← not_le, hreaches, Nat.mul_add]
    omega

/-- **Selling what a quote amount is quoted at brings that amount, but for two lamports**, and selling less does not bring
out of the pool what the quote counts with. -/
theorem sellQuote_sellBase {r : SellQuoteInputResult} {s : SellBaseInputResult}
    (hquote : sellQuoteInputInternal p q slip x y c = .ok r) (hraw : rawQuote c q.toNat < 2 ^ 64)
    (hfits : amountIn (rawQuote c q.toNat) x.toNat y.toNat < 2 ^ 64)
    (hsell : sellBaseInputInternal p' n slip' x y c = .ok s) :
    (r.base ≤ n → q.toNat ≤ s.uiQuote.toNat + 2) ∧ (n < r.base → s.internalQuoteAmountOut < r.internalRawQuote) := by
  obtain ⟨hx, hrawEq, hlt, hbase⟩ := sellQuoteInputInternal_ok hquote
  obtain ⟨-, -, hout, hnet⟩ := sellBaseInputInternal_ok hsell
  have hrawNat : r.internalRawQuote.toNat = rawQuote c q.toNat := by
    rw [hrawEq, toNat_asU64 hraw]
  rw [hrawNat] at hlt hbase
  have hbaseNat : r.base.toNat = amountIn (rawQuote c q.toNat) x.toNat y.toNat := by
    rw [hbase, toNat_asU64 hfits]
  have hreaches : r.base.toNat ≤ n.toNat ↔ rawQuote c q.toNat ≤ s.internalQuoteAmountOut.toNat := by
    rw [hbaseNat, hout, amountIn_le_iff hx hlt]
  constructor
  · intro hle
    have hle' := hreaches.mp (UInt64.le_iff_toNat_le.mp hle)
    rw [hout, rawQuote_le_iff] at hle'
    have hlow := net_lower c (amountOut n.toNat x.toNat y.toNat)
    rw [← hnet, Nat.mul_comm] at hlow
    omega
  · intro hlt'
    rw [UInt64.lt_iff_toNat_lt, hrawNat, ← not_le, ← hreaches, not_le]
    exact UInt64.lt_iff_toNat_lt.mp hlt'

theorem buyBase_buyQuote_thousand : buyBaseInputInternal .dev 10 100 1000 1000 Pubkey.default = .ok ⟨11, 13, 13⟩ ∧
    buyQuoteInputInternal .dev 13 100 1000 1000 Pubkey.default = .ok ⟨11, 12, 13⟩ ∧ (10 : UInt64) ≤ 11 := by
  have hbuy : buyBaseInputInternal .dev 10 100 1000 1000 Pubkey.default = .ok ⟨11, 13, 13⟩ := by decide
  have hquote : buyQuoteInputInternal .dev 13 100 1000 1000 Pubkey.default = .ok ⟨11, 12, 13⟩ := by decide
  exact ⟨hbuy, hquote, (buyBase_buyQuote hbuy (by decide) hquote).1 (by decide)⟩

/-- Some creator of a coin. -/
def someCreator : Pubkey := ⟨List.replicate 32 1, List.length_replicate⟩

/-- Two lamports are quoted at four tokens of a thousand, which sell for three lamports and as many of fees. -/
theorem sellQuote_sellBase_two : sellQuoteInputInternal .dev 2 0 1000 1000 someCreator = .ok ⟨3, 4, 2⟩ ∧
    sellBaseInputInternal .dev 4 0 1000 1000 someCreator = .ok ⟨0, 1, 3⟩ ∧ (2 : UInt64).toNat ≤ (0 : UInt64).toNat + 2 := by
  have hquote : sellQuoteInputInternal .dev 2 0 1000 1000 someCreator = .ok ⟨3, 4, 2⟩ := by decide
  have hsell : sellBaseInputInternal .dev 4 0 1000 1000 someCreator = .ok ⟨0, 1, 3⟩ := by decide
  exact ⟨hquote, hsell, (sellQuote_sellBase hquote (by decide) (by decide) hsell).1 (by decide)⟩

end Inverse

/-! ### Trading at the quotes -/

/-- A trade at one of the four quotes. -/
inductive Order where
  /-- Buy that much base. -/
  | buyBase (base : UInt64)
  /-- Buy for that much quote. -/
  | buyQuote (quote : UInt64)
  /-- Sell that much base. -/
  | sellBase (base : UInt64)
  /-- Sell for that much quote. -/
  | sellQuote (quote : UInt64)
  deriving DecidableEq

/-- What a trade moves. -/
structure Fill where
  /-- What the traders get of the base. -/
  tokens : ℤ
  /-- What the pool gets of the quote, before any fee that is left in it. -/
  pool : ℤ
  /-- What the traders get of the quote. -/
  funds : ℤ
  deriving DecidableEq

/-- A trade moves what its quote says. -/
def Order.fill (p : Profile) (c : Pubkey) (slip x y : UInt64) : Order → Result Fill
  | .buyBase n => do
    let r ← buyBaseInputInternal p n slip x y c
    return ⟨n.toNat, r.internalQuoteAmount.toNat, -r.uiQuote.toNat⟩
  | .buyQuote q => do
    let r ← buyQuoteInputInternal p q slip x y c
    return ⟨r.base.toNat, r.internalQuoteWithoutFees.toNat, -q.toNat⟩
  | .sellBase n => do
    let r ← sellBaseInputInternal p n slip x y c
    return ⟨-n.toNat, -r.internalQuoteAmountOut.toNat, r.uiQuote.toNat⟩
  | .sellQuote q => do
    let r ← sellQuoteInputInternal p q slip x y c
    return ⟨-r.base.toNat, -r.internalRawQuote.toNat, q.toNat⟩

/-- The amounts of the quote have 64 bits. -/
def Order.Fits (c : Pubkey) (x y : UInt64) : Order → Prop
  | .buyBase n => amountIn n.toNat y.toNat x.toNat + totalFees c (amountIn n.toNat y.toNat x.toNat) < 2 ^ 64
  | .sellQuote q => rawQuote c q.toNat < 2 ^ 64 ∧ amountIn (rawQuote c q.toNat) x.toNat y.toNat < 2 ^ 64
  | _ => True

/-- The pool does not lose by a trade, and does not get what the traders keep. -/
structure Fill.Fair (x y : UInt64) (f : Fill) : Prop where
  base : 0 ≤ (x.toNat : ℤ) - f.tokens
  kept : (x.toNat : ℤ) * y.toNat ≤ (x.toNat - f.tokens) * (y.toNat + f.pool)
  paid : f.pool + f.funds ≤ 0

theorem Order.fill_fair {p : Profile} {c : Pubkey} {slip x y : UInt64} {o : Order} {f : Fill} (hfits : o.Fits c x y)
    (h : o.fill p c slip x y = .ok f) : 0 < x.toNat ∧ 0 < y.toNat ∧ f.Fair x y := by
  cases o with
  | buyBase n =>
    obtain ⟨r, hr, hf⟩ := bind_eq_ok.mp h
    cases hf
    obtain ⟨hx, hy, hn, hin, htotal⟩ := buyBaseInputInternal_ok hr
    simp only [Order.Fits] at hfits
    have hcast : r.internalQuoteAmount.toNat = amountIn n.toNat y.toNat x.toNat := by
      rw [hin]
      exact toNat_asU64 (by omega)
    obtain ⟨t, ht, htn⟩ := totalQuote_eq (p := p) (q := r.internalQuoteAmount) (c := c) (by rwa [hcast])
    rw [htotal] at ht
    cases ht
    have hkept := (le_amountOut_iff_kept hy hn.le).mp (le_amountOut_amountIn hy hn)
    rw [← hcast] at hkept
    refine ⟨hx, hy, by simp only; omega, ?_, by simp only; omega⟩
    zify [hn.le] at hkept
    linarith
  | buyQuote q =>
    obtain ⟨r, hr, hf⟩ := bind_eq_ok.mp h
    cases hf
    obtain ⟨hx, hy, heff, hbase⟩ := buyQuoteInputInternal_ok hr
    have hle : r.base.toNat ≤ x.toNat := hbase ▸ amountOut_le _ _ _
    have hkept := amountOut_kept (i := r.internalQuoteWithoutFees.toNat) (y := x.toNat) hy
    rw [← hbase] at hkept
    have hpaid : r.internalQuoteWithoutFees.toNat ≤ q.toNat := by
      rw [heff]
      exact Nat.div_le_of_le_mul (by nlinarith)
    refine ⟨hx, hy, by simp only; omega, ?_, by simp only; omega⟩
    zify [hle] at hkept
    linarith
  | sellBase n =>
    obtain ⟨r, hr, hf⟩ := bind_eq_ok.mp h
    cases hf
    obtain ⟨hx, hy, hout, hnet⟩ := sellBaseInputInternal_ok hr
    have hle : r.internalQuoteAmountOut.toNat ≤ y.toNat := hout ▸ amountOut_le _ _ _
    have hkept := amountOut_kept (i := n.toNat) (y := y.toNat) hx
    rw [← hout] at hkept hnet
    refine ⟨hx, hy, by simp only; omega, ?_, by simp only; omega⟩
    zify [hle] at hkept
    linarith
  | sellQuote q =>
    obtain ⟨r, hr, hf⟩ := bind_eq_ok.mp h
    cases hf
    obtain ⟨hx, hraw, hlt, hbase⟩ := sellQuoteInputInternal_ok hr
    have hrawNat : r.internalRawQuote.toNat = rawQuote c q.toNat := by
      rw [hraw, toNat_asU64 hfits.1]
    have hbaseNat : r.base.toNat = amountIn r.internalRawQuote.toNat x.toNat y.toNat := by
      rw [hbase]
      exact toNat_asU64 (hrawNat ▸ hfits.2)
    have hkept := (le_amountOut_iff_kept hx hlt.le).mp (le_amountOut_amountIn hx hlt)
    rw [← hbaseNat] at hkept
    have hpaid := le_rawQuote c q.toNat
    refine ⟨hx, by omega, by simp only; omega, ?_, by simp only; omega⟩
    zify [hlt.le] at hkept
    linarith

/-- A pool, and what its traders together have got of it so far. -/
structure Market where
  /-- The pool's base. -/
  base : UInt64
  /-- The pool's quote. -/
  quote : UInt64
  /-- The traders' base. -/
  tokens : ℤ
  /-- The traders' quote. -/
  funds : ℤ
  deriving DecidableEq

/-- An order, its slippage, and how much of its fees stays in the pool. -/
structure Trade where
  /-- What is traded. -/
  order : Order
  /-- The slippage in basis points. -/
  slippage : UInt64
  /-- The part of the fees that the pool keeps. -/
  left : ℕ

namespace Market

/-- An amount a vault can hold. -/
def vault (amount : ℤ) : Option UInt64 := if 0 ≤ amount ∧ amount < 2 ^ 64 then some (asU64 amount.toNat) else none

/-- A trade at its quote. -/
def step (p : Profile) (c : Pubkey) (m : Market) (t : Trade) : Option Market := do
  let f ← (t.order.fill p c t.slippage m.base m.quote).toOption
  guard ((t.left : ℤ) ≤ -(f.pool + f.funds))
  let base ← vault (m.base.toNat - f.tokens)
  let quote ← vault (m.quote.toNat + f.pool + t.left)
  return ⟨base, quote, m.tokens + f.tokens, m.funds + f.funds⟩

theorem vault_eq {amount : ℤ} {v : UInt64} (h : vault amount = some v) : (v.toNat : ℤ) = amount := by
  unfold vault at h
  split_ifs at h with hrange
  cases h
  rw [toNat_asU64 (by omega)]
  exact Int.toNat_of_nonneg hrange.1

/-- What a trade does. -/
theorem step_spec {p : Profile} {c : Pubkey} {m m' : Market} {t : Trade} (hfits : t.order.Fits c m.base m.quote)
    (h : step p c m t = some m') : 0 < m.base.toNat ∧ 0 < m.quote.toNat ∧
      (m'.base.toNat : ℤ) + m'.tokens = m.base.toNat + m.tokens ∧
      (m'.quote.toNat : ℤ) + m'.funds ≤ m.quote.toNat + m.funds ∧
      m.base.toNat * m.quote.toNat ≤ m'.base.toNat * m'.quote.toNat := by
  simp only [step, Option.bind_eq_bind, Option.bind_eq_some_iff, Option.pure_def, Option.some.injEq] at h
  obtain ⟨f, hf, _, hleft, base, hbase, quote, hquote, rfl⟩ := h
  have hleft : (t.left : ℤ) ≤ -(f.pool + f.funds) := by
    simp only [guard] at hleft
    split_ifs at hleft with hle
    exact hle
  have hfill : t.order.fill p c t.slippage m.base m.quote = .ok f := by
    rcases hr : t.order.fill p c t.slippage m.base m.quote with e | f' <;> rw [hr] at hf <;> cases hf
    rfl
  obtain ⟨hx, hy, hfair⟩ := Order.fill_fair hfits hfill
  have hb := vault_eq hbase
  have hq := vault_eq hquote
  refine ⟨hx, hy, by simp only; omega, by simp only; omega, ?_⟩
  have hkept := hfair.kept
  zify
  rw [hb, hq]
  nlinarith [hfair.base]

/-- How a market stands to the one it began as. -/
structure Since (m₀ m : Market) : Prop where
  base : (m.base.toNat : ℤ) + m.tokens = m₀.base.toNat + m₀.tokens
  quote : (m.quote.toNat : ℤ) + m.funds ≤ m₀.quote.toNat + m₀.funds
  kept : m₀.base.toNat * m₀.quote.toNat ≤ m.base.toNat * m.quote.toNat

theorem since_step {p : Profile} {c : Pubkey} {m₀ m m' : Market} {t : Trade} (h : Since m₀ m)
    (hfits : t.order.Fits c m.base m.quote) (hstep : step p c m t = some m') : Since m₀ m' := by
  obtain ⟨-, -, hbase, hquote, hkept⟩ := step_spec hfits hstep
  exact ⟨hbase.trans h.base, hquote.trans h.quote, h.kept.trans hkept⟩

/-- **Nobody profits from a pool at its quotes.** Over every run of trades, in any order, as long as the amounts of each quote
have 64 bits: traders who together have at least the base they began with have no more quote, and traders who have at
least the quote they began with have no more base. -/
theorem no_profit {p : Profile} {c : Pubkey} {m m' : Market} {ts : List Trade}
    (hfits : Machine.Along (step p c) (fun m t => t.order.Fits c m.base m.quote) m ts)
    (hrun : Machine.run (step p c) m ts = some m') :
    (m.tokens ≤ m'.tokens → m'.funds ≤ m.funds) ∧ (m.funds ≤ m'.funds → m'.tokens ≤ m.tokens) := by
  cases ts with
  | nil =>
    cases hrun
    exact ⟨fun _ => le_rfl, fun _ => le_rfl⟩
  | cons t ts =>
    have hsince : Since m m' := Machine.invariant_along (I := Since m) (fun _ _ _ h hc hs => since_step h hc hs)
      ⟨rfl, le_rfl, le_rfl⟩ hfits hrun
    -- The first trade has a quote, so the pool was not empty.
    obtain ⟨m₁, hstep, -⟩ := Machine.run_cons.mp hrun
    obtain ⟨hx, hy, -⟩ := step_spec hfits.1 hstep
    obtain ⟨hbase, hquote, hkept⟩ := hsince
    constructor
    · intro htokens
      have := le_of_kept hx hkept (by omega)
      omega
    · intro hfunds
      rw [Nat.mul_comm, Nat.mul_comm m'.base.toNat] at hkept
      have := le_of_kept hy hkept (by omega)
      omega

/-- A buy and a sell of what it bought. -/
def roundTrip : List Trade := [⟨.buyQuote 1000, 100, 2⟩, ⟨.sellBase 499, 100, 1⟩]

theorem no_profit_roundTrip :
    Machine.run (step .dev Pubkey.default) ⟨1000, 1000, 0, 0⟩ roundTrip = some ⟨1000, 1003, 0, -7⟩ ∧ (-7 : ℤ) ≤ 0 := by
  have hrun : Machine.run (step .dev Pubkey.default) ⟨1000, 1000, 0, 0⟩ roundTrip = some ⟨1000, 1003, 0, -7⟩ := by decide
  refine ⟨hrun, (no_profit ?_ hrun).1 le_rfl⟩
  exact ⟨trivial, fun _ _ => ⟨trivial, fun _ _ => trivial⟩⟩

end Market

end PumpSwapBot.Sdk
