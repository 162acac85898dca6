import PumpSwapBot.Sdk.Basic
import Mathlib.Tactic.Linarith
import Mathlib.Tactic.Ring

/-!
# Quotes of a constant-product pool

The SDK's price arithmetic for a PumpSwap pool (`utils/calc/pumpswap.rs` and
`utils/calc/common.rs`): how much base token a quote amount buys, how much quote a base amount
sells for after the three fees, and the bound written into the instruction for slippage.

## The model

The source multiplies two `u64` values as `u128`, which cannot overflow, so those products are
taken in `ℕ`; the sums, differences and products it makes in `u64` go through the checked
operations of `Sdk.Basic`.

## What is proved

`sellBaseInputInternal_eq` gives the sell quote in closed form: `quoteOut` is the constant-product
output, `totalFees` the three fees, each rounded up on its own. Because of the three roundings the
net quote is not monotone in the output; `net_lower` and `net_upper` bound it from both sides, and
`minQuote_le_net` says when the bound written at one state of the pool is still met at another.
-/

namespace PumpSwapBot.Sdk

/-! ### The functions of the source -/

/-- The fee of the liquidity providers, in basis points. -/
def lpFeeBasisPoints : ℕ := 25

/-- The fee of the protocol, in basis points. -/
def protocolFeeBasisPoints : ℕ := 5

/-- The fee of the coin's creator, in basis points. -/
def coinCreatorFeeBasisPoints : ℕ := 5

/-- The largest slippage a buy is computed with. -/
def maxSlippageBasisPoints : UInt64 := 9999

/-- The slippage used when none is given. -/
def defaultSlippage : UInt64 := 1000

/-- Division rounding up. -/
def ceilDiv (a b : ℕ) : ℕ := (a + b - 1) / b

/-- The fee on an amount. -/
def computeFee (amount feeBasisPoints : ℕ) : ℕ := ceilDiv (amount * feeBasisPoints) 10000

/-- An amount to pay, with the slippage added. -/
def calculateWithSlippageBuy (p : Profile) (amount basisPoints : UInt64) : Result UInt64 := do
  let bps := if basisPoints > maxSlippageBasisPoints then maxSlippageBasisPoints else basisPoints
  let m ← mulU64 p amount bps
  addU64 p amount (m / 10000)

/-- An amount to receive, with the slippage taken off. -/
def calculateWithSlippageSell (p : Profile) (amount basisPoints : UInt64) : Result UInt64 :=
  if amount ≤ basisPoints / 10000 then .ok 1
  else do
    let m ← mulU64 p amount basisPoints
    subU64 p amount (m / 10000)

/-- What a quote amount buys. -/
structure BuyQuoteInputResult where
  /-- Amount of base tokens received. -/
  base : UInt64
  /-- Effective quote amount after fee deduction. -/
  internalQuoteWithoutFees : UInt64
  /-- Maximum quote amount with slippage protection. -/
  maxQuote : UInt64
  deriving DecidableEq

/-- What a base amount sells for. -/
structure SellBaseInputResult where
  /-- Final quote amount received after fees. -/
  uiQuote : UInt64
  /-- Minimum quote amount with slippage protection. -/
  minQuote : UInt64
  /-- Raw quote amount before fee deduction. -/
  internalQuoteAmountOut : UInt64
  deriving DecidableEq

/-- Calculate base tokens received for a specific quote amount. -/
def buyQuoteInputInternal (p : Profile) (quote slippageBasisPoints baseReserve quoteReserve : UInt64)
    (coinCreator : Pubkey) : Result BuyQuoteInputResult := do
  bailIf (baseReserve = 0 ∨ quoteReserve = 0)
    "Invalid input: 'baseReserve' or 'quoteReserve' cannot be zero."
  let totalFeeBps := lpFeeBasisPoints + protocolFeeBasisPoints
    + if coinCreator = Pubkey.default then 0 else coinCreatorFeeBasisPoints
  let denominator := 10000 + totalFeeBps
  let effectiveQuote := quote.toNat * 10000 / denominator
  let numerator := baseReserve.toNat * effectiveQuote
  let denominatorEffective := quoteReserve.toNat + effectiveQuote
  bailIf (denominatorEffective = 0) "Pool would be depleted; denominator is zero."
  let baseAmountOut := asU64 (numerator / denominatorEffective)
  let maxQuote ← calculateWithSlippageBuy p quote slippageBasisPoints
  return { base := baseAmountOut
           internalQuoteWithoutFees := asU64 effectiveQuote
           maxQuote := maxQuote }

/-- The three fees on a sell's output, summed in `u64`. -/
def sellFees (p : Profile) (quoteAmountOut : UInt64) (coinCreator : Pubkey) : Result UInt64 := do
  let lpFee := asU64 (computeFee quoteAmountOut.toNat lpFeeBasisPoints)
  let protocolFee := asU64 (computeFee quoteAmountOut.toNat protocolFeeBasisPoints)
  let coinCreatorFee := if coinCreator = Pubkey.default then 0
    else asU64 (computeFee quoteAmountOut.toNat coinCreatorFeeBasisPoints)
  let fees ← addU64 p lpFee protocolFee
  addU64 p fees coinCreatorFee

/-- Calculate quote tokens received for selling a specific amount of base tokens. -/
def sellBaseInputInternal (p : Profile) (base slippageBasisPoints baseReserve quoteReserve : UInt64)
    (coinCreator : Pubkey) : Result SellBaseInputResult := do
  bailIf (baseReserve = 0 ∨ quoteReserve = 0)
    "Invalid input: 'baseReserve' or 'quoteReserve' cannot be zero."
  let quoteAmountOut := asU64 (quoteReserve.toNat * base.toNat / (baseReserve.toNat + base.toNat))
  let totalFees ← sellFees p quoteAmountOut coinCreator
  bailIf (totalFees > quoteAmountOut) "Fees exceed total output; final quote is negative."
  let finalQuote ← subU64 p quoteAmountOut totalFees
  let minQuote ← calculateWithSlippageSell p finalQuote slippageBasisPoints
  return { uiQuote := finalQuote
           minQuote := minQuote
           internalQuoteAmountOut := quoteAmountOut }

/-- Open a result that must be there, `.unwrap()`: an error becomes a panic. -/
def unwrap {α : Type} : Result α → Result α
  | .error (.err e) =>
    .error (.panic ("called `Result::unwrap()` on an `Err` value: \"" ++ e.msg ++ "\""))
  | r => r

/-! ### The quote in closed form -/

/-- The constant-product output of selling `base` into reserves `x` (base) and `y` (quote). -/
def quoteOut (base x y : ℕ) : ℕ := y * base / (x + base)

/-- The three fees on an output, each rounded up on its own. -/
def totalFees (coinCreator : Pubkey) (out : ℕ) : ℕ :=
  computeFee out lpFeeBasisPoints + computeFee out protocolFeeBasisPoints
    + if coinCreator = Pubkey.default then 0 else computeFee out coinCreatorFeeBasisPoints

/-- The bound for an expected amount and a slippage. -/
def minAfterSlippage (amount bps : ℕ) : ℕ :=
  if amount ≤ bps / 10000 then 1 else amount - amount * bps / 10000

theorem quoteOut_le (base x y : ℕ) : quoteOut base x y ≤ y := by
  refine Nat.div_le_of_le_mul ?_
  rw [Nat.mul_comm]
  exact Nat.mul_le_mul_right y (Nat.le_add_left base x)

theorem ceilDiv_mul_lt (a : ℕ) : 10000 * ceilDiv a 10000 < a + 10000 := by
  simp only [ceilDiv]
  omega

theorem le_ceilDiv_mul (a : ℕ) : a ≤ 10000 * ceilDiv a 10000 := by
  simp only [ceilDiv]
  omega

/-- The fees together, in basis points. -/
def feeBasisPoints (coinCreator : Pubkey) : ℕ := if coinCreator = Pubkey.default then 30 else 35

theorem feeBasisPoints_le (c : Pubkey) : feeBasisPoints c ≤ 35 := by
  unfold feeBasisPoints
  split_ifs <;> omega

/-- The fees are the basis points of the output, and less than three roundings more. -/
theorem totalFees_bounds (c : Pubkey) (out : ℕ) :
    out * feeBasisPoints c ≤ 10000 * totalFees c out ∧
      10000 * totalFees c out < out * feeBasisPoints c + 30000 := by
  have h₁ := ceilDiv_mul_lt (out * 25)
  have h₂ := ceilDiv_mul_lt (out * 5)
  have h₃ := le_ceilDiv_mul (out * 25)
  have h₄ := le_ceilDiv_mul (out * 5)
  unfold totalFees feeBasisPoints computeFee lpFeeBasisPoints protocolFeeBasisPoints
    coinCreatorFeeBasisPoints
  split_ifs <;> omega

/-- The fees are the smaller part of an output of 5 lamports or more. -/
theorem totalFees_le {c : Pubkey} {out : ℕ} (h : 5 ≤ out) : totalFees c out ≤ out := by
  have h₁ := (totalFees_bounds c out).2
  have h₂ : out * feeBasisPoints c ≤ out * 35 := Nat.mul_le_mul_left out (feeBasisPoints_le c)
  omega

/-- The net amount is at most the output less the basis points. -/
theorem net_upper (c : Pubkey) (out : ℕ) :
    10000 * (out - totalFees c out) ≤ out * (10000 - feeBasisPoints c) := by
  have h := (totalFees_bounds c out).1
  rw [Nat.mul_sub, Nat.mul_sub]
  omega

/-- The net amount falls short of the output less the basis points by less than three roundings. -/
theorem net_lower (c : Pubkey) (out : ℕ) :
    out * (10000 - feeBasisPoints c) < 10000 * (out - totalFees c out) + 30000 := by
  have h := (totalFees_bounds c out).2
  have h' := Nat.mul_le_mul_left out (feeBasisPoints_le c)
  rw [Nat.mul_sub, Nat.mul_sub]
  omega

theorem minAfterSlippage_lt {amount bps : ℕ} (hb : bps ≤ 10000) (h : ¬ amount ≤ bps / 10000) :
    10000 * minAfterSlippage amount bps < amount * (10000 - bps) + 10000 := by
  have h₁ := Nat.mul_le_mul_left amount hb
  rw [minAfterSlippage, if_neg h, Nat.mul_sub, Nat.mul_sub]
  omega

/-- The bound written for an output `r₀` is met by an output `r₁` of at least `1 - bps/10000` of it,
up to 5 lamports for the roundings. -/
theorem minQuote_le_net (c : Pubkey) {r₀ r₁ bps : ℕ} (hb : bps ≤ 10000)
    (h : r₀ * (10000 - bps) + 50000 ≤ r₁ * 10000) :
    minAfterSlippage (r₀ - totalFees c r₀) bps ≤ r₁ - totalFees c r₁ := by
  have hk := feeBasisPoints_le c
  have hlow := net_lower c r₁
  have hup := net_upper c r₀
  set n₀ := r₀ - totalFees c r₀
  set n₁ := r₁ - totalFees c r₁
  set v := 10000 - feeBasisPoints c with hv
  have hv' : 9965 ≤ v := by omega
  by_cases hsmall : n₀ ≤ bps / 10000
  · -- The bound is 1, and an output of 5 lamports leaves something after the fees.
    rw [minAfterSlippage, if_pos hsmall]
    have : 5 * 9965 ≤ r₁ * v := Nat.mul_le_mul (by omega) hv'
    omega
  · have hmin := minAfterSlippage_lt hb hsmall
    set u := 10000 - bps
    have h₁ : 10000 * n₀ * u ≤ r₀ * v * u := Nat.mul_le_mul_right u hup
    have h₂ : (r₀ * u + 50000) * v ≤ r₁ * 10000 * v := Nat.mul_le_mul_right v h
    nlinarith

/-! ### The functions compute it -/

theorem calculateWithSlippageSell_eq {p : Profile} {amount bps : UInt64}
    (h : amount.toNat * bps.toNat < 2 ^ 64) (hb : bps.toNat ≤ 10000) :
    calculateWithSlippageSell p amount bps = .ok (asU64 (minAfterSlippage amount.toNat bps.toNat)) := by
  have hdiv : (bps / 10000).toNat = bps.toNat / 10000 := UInt64.toNat_div bps 10000
  simp only [calculateWithSlippageSell, minAfterSlippage]
  simp only [UInt64.le_iff_toNat_le, hdiv]
  split_ifs with hle
  · rfl
  · have hm : (amount * bps).toNat = amount.toNat * bps.toNat := by
      rw [UInt64.toNat_mul, Nat.mod_eq_of_lt h]
    have hd : (amount * bps / 10000).toNat = amount.toNat * bps.toNat / 10000 := by
      rw [UInt64.toNat_div, hm]
      rfl
    have hs : (amount * bps / 10000).toNat ≤ amount.toNat := by
      rw [hd]
      have := Nat.mul_le_mul_left amount.toNat hb
      omega
    simp only [mulU64_ok h]
    show subU64 p amount (amount * bps / 10000) = _
    rw [subU64_ok hs]
    congr 1
    apply UInt64.toNat.inj
    rw [UInt64.toNat_sub_of_le _ _ (UInt64.le_iff_toNat_le.mpr hs), hd, toNat_asU64]
    exact lt_of_le_of_lt (Nat.sub_le _ _) (UInt64.toNat_lt _)

theorem computeFee_lt {amount bps : ℕ} (ha : amount < 2 ^ 64) (hb : bps ≤ 25) :
    computeFee amount bps < 2 ^ 62 := by
  have h := ceilDiv_mul_lt (amount * bps)
  have h' := Nat.mul_le_mul_left amount hb
  simp only [computeFee]
  omega

theorem sellFees_eq (p : Profile) (out : UInt64) (c : Pubkey) :
    ∃ f, sellFees p out c = .ok f ∧ f.toNat = totalFees c out.toNat := by
  have hfee : ∀ b, b ≤ 25 → (asU64 (computeFee out.toNat b)).toNat = computeFee out.toNat b ∧
      computeFee out.toNat b < 2 ^ 62 := by
    intro b hb
    have := computeFee_lt (UInt64.toNat_lt out) hb
    exact ⟨toNat_asU64 (by omega), this⟩
  obtain ⟨e₁, l₁⟩ := hfee lpFeeBasisPoints (by decide)
  obtain ⟨e₂, l₂⟩ := hfee protocolFeeBasisPoints (by decide)
  obtain ⟨e₃, l₃⟩ := hfee coinCreatorFeeBasisPoints (by decide)
  have hsum := addU64_ok (p := p) (show
    (asU64 (computeFee out.toNat lpFeeBasisPoints)).toNat +
      (asU64 (computeFee out.toNat protocolFeeBasisPoints)).toNat < 2 ^ 64 by omega)
  simp only [sellFees, totalFees]
  simp only [hsum]
  show ∃ f, addU64 p _ _ = _ ∧ _
  rw [addU64_ok]
  · refine ⟨_, rfl, ?_⟩
    split_ifs <;> simp only [UInt64.toNat_add, UInt64.toNat_zero, e₁, e₂, e₃] <;> omega
  · split_ifs <;> simp only [UInt64.toNat_add, UInt64.toNat_zero, e₁, e₂, e₃] <;> omega

/-- The sell quote in closed form: it is there as soon as the fees leave something and the bound is
computed. -/
theorem sellBaseInputInternal_cases {p : Profile} {base slip x y : UInt64} {c : Pubkey} {out : ℕ}
    (hout : out = quoteOut base.toNat x.toNat y.toNat) (hx : x ≠ 0) (hy : y ≠ 0) :
    sellBaseInputInternal p base slip x y c =
      if totalFees c out ≤ out then
        (calculateWithSlippageSell p (asU64 (out - totalFees c out)) slip).map fun minQuote =>
          { uiQuote := asU64 (out - totalFees c out)
            minQuote := minQuote
            internalQuoteAmountOut := asU64 out }
      else bail "Fees exceed total output; final quote is negative." := by
  have hlt : out < 2 ^ 64 := hout ▸ lt_of_le_of_lt (quoteOut_le _ _ _) (UInt64.toNat_lt y)
  have hcast : (asU64 out).toNat = out := toNat_asU64 hlt
  obtain ⟨f, hfees, hfn⟩ := sellFees_eq p (asU64 out) c
  rw [hcast] at hfn
  have hgt : f > asU64 out ↔ ¬ totalFees c out ≤ out := by
    rw [gt_iff_lt, UInt64.lt_iff_toNat_lt, hcast, hfn, not_le]
  have hzero : ¬ (x = 0 ∨ y = 0) := by simp [hx, hy]
  simp only [sellBaseInputInternal]
  simp only [quoteOut] at hout
  simp only [bailIf_neg _ hzero, ← hout, hfees, ok_bind]
  split_ifs with hf
  · have hle : f.toNat ≤ (asU64 out).toNat := by omega
    have hnet : asU64 out - f = asU64 (out - totalFees c out) := by
      apply UInt64.toNat.inj
      rw [UInt64.toNat_sub_of_le _ _ (UInt64.le_iff_toNat_le.mpr hle), hcast, hfn, toNat_asU64 (by omega)]
    rw [bailIf_neg _ fun h => hgt.mp h hf, ok_bind, subU64_ok hle, ok_bind, hnet]
    rcases calculateWithSlippageSell p (asU64 (out - totalFees c out)) slip with f | m <;> rfl
  · rw [bailIf, if_pos (hgt.mpr hf)]
    rfl

/-- The sell quote when neither reserve is empty, the fees leave something, and the slippage arithmetic
stays within `u64`. -/
theorem sellBaseInputInternal_eq {p : Profile} {base slip x y : UInt64} {c : Pubkey} {out : ℕ}
    (hout : out = quoteOut base.toNat x.toNat y.toNat) (hx : x ≠ 0) (hy : y ≠ 0)
    (hs : slip.toNat ≤ 10000) (hf : totalFees c out ≤ out)
    (hm : (out - totalFees c out) * slip.toNat < 2 ^ 64) :
    ∃ r, sellBaseInputInternal p base slip x y c = .ok r ∧
      r.uiQuote.toNat = out - totalFees c out ∧
      r.minQuote.toNat = minAfterSlippage (out - totalFees c out) slip.toNat := by
  have hlt : out < 2 ^ 64 := hout ▸ lt_of_le_of_lt (quoteOut_le _ _ _) (UInt64.toNat_lt y)
  have hnet : (asU64 (out - totalFees c out)).toNat = out - totalFees c out := toNat_asU64 (by omega)
  rw [sellBaseInputInternal_cases hout hx hy, if_pos hf, calculateWithSlippageSell_eq (hnet.symm ▸ hm) hs]
  refine ⟨_, rfl, hnet, ?_⟩
  dsimp only
  rw [hnet, toNat_asU64]
  simp only [minAfterSlippage]
  split_ifs <;> omega

end PumpSwapBot.Sdk
