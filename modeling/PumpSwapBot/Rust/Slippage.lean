import PumpSwapBot.Rust.Orders

/-!
# The least a trade must bring

Every order of the trader carries the slippage of the configuration, which is any `u64`. The SDK writes
into the instruction the least that the trade must bring: the quoted output less the slippage
(`calculate_with_slippage_sell` of `utils/calc/common.rs`).

## The model

Whether an operation overflows is decided by running it with the checks on: `Bounded` asks that the
arithmetic of the bound succeed there, whatever the profile of the build, and that the bound lie between
the quoted output and the output less the slippage.

## What is proved

* `bounded_iff` — for which outputs and slippages the bound is one: the output is not 0, and their
  product fits in a `u64` if the slippage is at most all of the output; beyond that only the smallest
  outputs have one.
* `buyBounded_iff`, `sellBounded_iff` — the same for what the SDK encodes, over the reserves and the
  amount.
-/

namespace PumpSwapBot.Sdk

open PumpSwapBot.Library

/-! ### The bound of an output -/

/-- A bound that was computed without overflow, at most the output and at least the output less the
slippage. -/
structure Bounded (output basisPoints minimum : UInt64) : Prop where
  computed : calculateWithSlippageSell .dev output basisPoints = .ok minimum
  le : minimum ≤ output
  ge : output.toNat - output.toNat * min basisPoints.toNat 10000 / 10000 ≤ minimum.toNat

/-- The outputs that have a bound: up to a slippage of all of the output those whose product with it is a
`u64`, and beyond that those of which the slippage is less than one too many, and those for which the
bound is 1. -/
def Boundable (output basisPoints : ℕ) : Prop :=
  1 ≤ output ∧
    if basisPoints ≤ 10000 then output * basisPoints < 2 ^ 64
    else output ≤ basisPoints / 10000 ∨ output * (basisPoints - 10000) < 10000

instance (output basisPoints : ℕ) : Decidable (Boundable output basisPoints) :=
  inferInstanceAs (Decidable (_ ∧ _))

section Bound

variable {p : Profile} {output basisPoints minimum : UInt64}

theorem checkedU64_dev {exact : Prop} [Decidable exact] {verb : String} {wrapped r : UInt64} :
    checkedU64 .dev exact verb wrapped = .ok r ↔ exact ∧ r = wrapped := by
  simp only [checkedU64]
  split_ifs with h
  · simp only [Except.ok.injEq, h, true_and]
    exact eq_comm
  · simp only [h, false_and]

theorem mulU64_dev {a b r : UInt64} : mulU64 .dev a b = .ok r ↔ a.toNat * b.toNat < 2 ^ 64 ∧ r = a * b :=
  checkedU64_dev

theorem subU64_dev {a b r : UInt64} : subU64 .dev a b = .ok r ↔ b.toNat ≤ a.toNat ∧ r = a - b := checkedU64_dev

/-- The part of an output that the slippage is, if the product fits. -/
theorem toNat_part (h : output.toNat * basisPoints.toNat < 2 ^ 64) :
    (output * basisPoints / 10000).toNat = output.toNat * basisPoints.toNat / 10000 := by
  rw [UInt64.toNat_div, UInt64.toNat_mul, Nat.mod_eq_of_lt h]
  rfl

/-- With the checks on, the bound is 1 or it is the output less the part, which fits. -/
theorem calculateWithSlippageSell_dev :
    calculateWithSlippageSell .dev output basisPoints = .ok minimum ↔
      output.toNat ≤ basisPoints.toNat / 10000 ∧ minimum = 1 ∨
        basisPoints.toNat / 10000 < output.toNat ∧ output.toNat * basisPoints.toNat < 2 ^ 64 ∧
          (output * basisPoints / 10000).toNat ≤ output.toNat ∧
          minimum = output - output * basisPoints / 10000 := by
  have hsmall : output ≤ basisPoints / 10000 ↔ output.toNat ≤ basisPoints.toNat / 10000 := by
    rw [UInt64.le_iff_toNat_le, UInt64.toNat_div]
    rfl
  simp only [calculateWithSlippageSell]
  simp only [hsmall]
  split_ifs with h
  · simp [h, eq_comm, not_lt_of_ge h]
  · rw [bind_eq_ok]
    simp only [mulU64_dev, subU64_dev, h, lt_of_not_ge h, false_and, true_and, false_or]
    constructor
    · rintro ⟨_, ⟨hfits, rfl⟩, hle, rfl⟩
      exact ⟨hfits, hle, rfl⟩
    · rintro ⟨hfits, hle, rfl⟩
      exact ⟨_, ⟨hfits, rfl⟩, hle, rfl⟩

/-- What is computed with the checks on is computed by every build. -/
theorem calculateWithSlippageSell_of_dev (p : Profile)
    (h : calculateWithSlippageSell .dev output basisPoints = .ok minimum) :
    calculateWithSlippageSell p output basisPoints = .ok minimum := by
  cases p with
  | dev => exact h
  | release =>
    simp only [calculateWithSlippageSell] at h ⊢
    split_ifs at h ⊢ with hsmall
    · exact h
    · obtain ⟨_, hmul, hsub⟩ := bind_eq_ok.mp h
      obtain ⟨hfits, rfl⟩ := mulU64_dev.mp hmul
      obtain ⟨hle, rfl⟩ := subU64_dev.mp hsub
      rw [mulU64_ok hfits, ok_bind]
      exact subU64_ok hle

/-- Beyond all of the output, the part is at most the output exactly if the excess is less than one. -/
theorem part_le_iff {n b : ℕ} (h : 10000 < b) : n * b / 10000 ≤ n ↔ n * (b - 10000) < 10000 := by
  have hsplit : n * b = n * (b - 10000) + n * 10000 := by
    rw [← Nat.mul_add, Nat.sub_add_cancel h.le]
  omega

/-- Up to all of the output, it is. -/
theorem part_le {n b : ℕ} (h : b ≤ 10000) : n * b / 10000 ≤ n := by
  have hmul := Nat.mul_le_mul_left n h
  omega

/-- The outputs that have a bound, by the two cases of its computation. -/
theorem boundable_iff {n b : ℕ} :
    Boundable n b ↔ 1 ≤ n ∧ n ≤ b / 10000 ∨ b / 10000 < n ∧ n * b < 2 ^ 64 ∧ n * b / 10000 ≤ n := by
  simp only [Boundable]
  split_ifs with h
  · have hpart := part_le (n := n) h
    have hmul := Nat.mul_le_mul_left n h
    omega
  · have hpart := part_le_iff (n := n) (not_le.mp h)
    have hsplit : n * b = n * (b - 10000) + n * 10000 := by
      rw [← Nat.mul_add, Nat.sub_add_cancel (not_le.mp h).le]
    have hexcess : n ≤ n * (b - 10000) := Nat.le_mul_of_pos_right n (by omega)
    omega

/-- **Which outputs have a bound.** -/
theorem bounded_iff : (∃ minimum, Bounded output basisPoints minimum) ↔ Boundable output.toNat basisPoints.toNat := by
  rw [boundable_iff]
  constructor
  · rintro ⟨minimum, hcomputed, hle, -⟩
    rw [UInt64.le_iff_toNat_le] at hle
    obtain ⟨hsmall, rfl⟩ | ⟨hlarge, hfits, hpart, -⟩ := calculateWithSlippageSell_dev.mp hcomputed
    · exact Or.inl ⟨hle, hsmall⟩
    · rw [toNat_part hfits] at hpart
      exact Or.inr ⟨hlarge, hfits, hpart⟩
  · rintro (⟨hpos, hsmall⟩ | ⟨hlarge, hfits, hpart⟩)
    · refine ⟨1, calculateWithSlippageSell_dev.mpr (Or.inl ⟨hsmall, rfl⟩), UInt64.le_iff_toNat_le.mpr hpos, ?_⟩
      rw [min_eq_right (by omega), Nat.mul_div_cancel _ (by decide), Nat.sub_self]
      exact Nat.zero_le _
    · rw [← toNat_part hfits] at hpart
      have hminimum : (output - output * basisPoints / 10000).toNat =
          output.toNat - output.toNat * basisPoints.toNat / 10000 := by
        rw [UInt64.toNat_sub_of_le _ _ (UInt64.le_iff_toNat_le.mpr hpart), toNat_part hfits]
      refine ⟨_, calculateWithSlippageSell_dev.mpr (Or.inr ⟨hlarge, hfits, hpart, rfl⟩), ?_, ?_⟩
      · rw [UInt64.le_iff_toNat_le, hminimum]
        exact Nat.sub_le _ _
      · rw [hminimum]
        rw [toNat_part hfits] at hpart
        rcases le_total basisPoints.toNat 10000 with h | h
        · rw [min_eq_left h]
        · rw [min_eq_right h, Nat.mul_div_cancel _ (by decide), Nat.sub_self]
          exact Nat.zero_le _

end Bound

/-! ### The quotes -/

/-- What a quote amount buys: the constant-product output of the amount less the fees. -/
def baseOut (coinCreator : Pubkey) (quote baseReserve quoteReserve : ℕ) : ℕ :=
  quoteOut (quote * 10000 / (10000 + feeBasisPoints coinCreator)) quoteReserve baseReserve

/-- What selling `base` brings after the fees. -/
def netOut (coinCreator : Pubkey) (base baseReserve quoteReserve : ℕ) : ℕ :=
  quoteOut base baseReserve quoteReserve - totalFees coinCreator (quoteOut base baseReserve quoteReserve)

/-- The most a buy may spend can be computed, which a build that checks for overflow insists on. -/
def MaxQuoteFits (p : Profile) (quote basisPoints : ℕ) : Prop :=
  p = .release ∨ quote * min basisPoints 9999 < 2 ^ 64 ∧ quote + quote * min basisPoints 9999 / 10000 < 2 ^ 64

/-- It returns no error: it has a value or it panics. -/
def Unrefused {α : Type} (r : Result α) : Prop := ∀ err, r ≠ .error (.err err)

section Unrefused

variable {α β : Type} {r : Result α}

theorem unrefused_ok (a : α) : Unrefused (.ok a : Result α) := by
  intro err h
  cases h

theorem Unrefused.bind (h : Unrefused r) {f : α → Result β} (hf : ∀ a, Unrefused (f a)) : Unrefused (r >>= f) := by
  intro err herr
  rcases r with (err' | msg) | a
  · exact h err' rfl
  · cases herr
  · exact hf a err herr

theorem Unrefused.map (h : Unrefused r) (f : α → β) : Unrefused (r.map f) := by
  intro err herr
  rcases r with (err' | msg) | a
  · exact h err' rfl
  · cases herr
  · cases herr

theorem unrefused_unwrap (r : Result α) : Unrefused (unwrap r) := by
  intro err herr
  rcases r with (err' | msg) | a <;> cases herr

theorem unrefused_checkedU64 (p : Profile) (exact : Prop) [Decidable exact] (verb : String) (wrapped : UInt64) :
    Unrefused (checkedU64 p exact verb wrapped) := by
  intro err
  simp only [checkedU64]
  split_ifs
  · simp
  · cases p <;> simp

theorem unrefused_calculateWithSlippageSell (p : Profile) (amount basisPoints : UInt64) :
    Unrefused (calculateWithSlippageSell p amount basisPoints) := by
  simp only [calculateWithSlippageSell]
  split_ifs
  · exact unrefused_ok 1
  · exact (unrefused_checkedU64 _ _ _ _).bind fun _ => unrefused_checkedU64 _ _ _ _

end Unrefused

section Quotes

variable {p : Profile} {amount slippage x y : UInt64} {c : Pubkey}

/-- The slippage a buy is computed with. -/
theorem toNat_clamped (basisPoints : UInt64) :
    (if basisPoints > maxSlippageBasisPoints then maxSlippageBasisPoints else basisPoints).toNat =
      min basisPoints.toNat 9999 := by
  have hmax : maxSlippageBasisPoints.toNat = 9999 := rfl
  split_ifs with h
  · rw [gt_iff_lt, UInt64.lt_iff_toNat_lt] at h
    omega
  · rw [gt_iff_lt, UInt64.lt_iff_toNat_lt] at h
    omega

theorem isOk_calculateWithSlippageBuy :
    (∃ m, calculateWithSlippageBuy p amount slippage = .ok m) ↔ MaxQuoteFits p amount.toNat slippage.toNat := by
  unfold calculateWithSlippageBuy MaxQuoteFits
  dsimp only
  rw [← toNat_clamped]
  generalize (if slippage > maxSlippageBasisPoints then maxSlippageBasisPoints else slippage) = bps
  cases p with
  | release =>
    refine iff_of_true ?_ (Or.inl rfl)
    simp [mulU64, addU64, checkedU64]
  | dev =>
    simp only [bind_eq_ok, mulU64_dev, addU64, checkedU64_dev, reduceCtorEq, false_or]
    constructor
    · rintro ⟨_, _, ⟨hmul, rfl⟩, hadd, -⟩
      rw [toNat_part hmul] at hadd
      exact ⟨hmul, hadd⟩
    · rintro ⟨hmul, hadd⟩
      rw [← toNat_part hmul] at hadd
      exact ⟨_, _, ⟨hmul, rfl⟩, hadd, rfl⟩

theorem netOut_lt (base : ℕ) : netOut c base x.toNat y.toNat < 2 ^ 64 :=
  (Nat.sub_le _ _).trans_lt ((quoteOut_le _ _ _).trans_lt y.toNat_lt)

theorem toNat_baseOut :
    (asU64 (baseOut c amount.toNat x.toNat y.toNat)).toNat = baseOut c amount.toNat x.toNat y.toNat :=
  toNat_asU64 ((quoteOut_le _ _ _).trans_lt x.toNat_lt)

/-- A buy is quoted as soon as the most it may spend is computed. -/
theorem buyQuoteInputInternal_eq (hx : x ≠ 0) (hy : y ≠ 0) :
    buyQuoteInputInternal p amount slippage x y c = (calculateWithSlippageBuy p amount slippage).map fun maxQuote =>
      { base := asU64 (baseOut c amount.toNat x.toNat y.toNat)
        internalQuoteWithoutFees := asU64 (amount.toNat * 10000 / (10000 + feeBasisPoints c))
        maxQuote := maxQuote } := by
  have hfees : 10000 + (lpFeeBasisPoints + protocolFeeBasisPoints +
      if c = Pubkey.default then 0 else coinCreatorFeeBasisPoints) = 10000 + feeBasisPoints c := by
    simp only [feeBasisPoints]
    split_ifs <;> rfl
  have hy' : y.toNat ≠ 0 := fun h => hy (UInt64.toNat.inj h)
  have hzero : ¬ (x = 0 ∨ y = 0) := by simp [hx, hy]
  have hdenominator : ¬ y.toNat + amount.toNat * 10000 / (10000 + feeBasisPoints c) = 0 := by
    intro h
    exact hy' (Nat.add_eq_zero_iff.mp h).1
  unfold buyQuoteInputInternal baseOut quoteOut
  dsimp only
  rw [hfees, bailIf_neg _ hzero, ok_bind, bailIf_neg _ hdenominator, ok_bind]
  rcases calculateWithSlippageBuy p amount slippage with f | m <;> rfl

end Quotes

/-! ### What is encoded -/

/-- The SDK refuses a buy with an error, or it encodes a bound of the output it quotes. -/
def BuyBounded (e : Env) (params : SwapParams) : Prop :=
  let amount := params.inputAmount.getD 0
  let slippage := params.slippageBasisPoints.getD defaultSlippage
  let p := params.protocolParams
  (∃ err, buildBuyInstructions e params = .error (.err err)) ∨
    ∃ ixs quote minimum flags ix, buildBuyInstructions e params = .ok ixs ∧
      buyQuoteInputInternal e.profile amount slippage p.poolBaseTokenReserves p.poolQuoteTokenReserves (creatorOf p) =
        .ok quote ∧
      Bounded quote.base slippage minimum ∧ ix ∈ ixs ∧
      IsTrade e params (buyExactQuoteInDiscriminator ++ leBytes 8 amount.toNat ++ leBytes 8 minimum.toNat ++ flags) ix

/-- The SDK refuses a sell with an error, or it encodes a bound of the output it quotes. -/
def SellBounded (e : Env) (params : SwapParams) : Prop :=
  let amount := params.inputAmount.getD 0
  let slippage := params.slippageBasisPoints.getD defaultSlippage
  let p := params.protocolParams
  (∃ err, buildSellInstructions e params = .error (.err err)) ∨
    ∃ ixs quote ix, buildSellInstructions e params = .ok ixs ∧
      sellBaseInputInternal e.profile amount slippage p.poolBaseTokenReserves p.poolQuoteTokenReserves (creatorOf p) =
        .ok quote ∧
      Bounded quote.uiQuote slippage quote.minQuote ∧ ix ∈ ixs ∧
      IsTrade e params (sellDiscriminator ++ leBytes 8 amount.toNat ++ leBytes 8 quote.minQuote.toNat) ix

/-- A trade on a pool quoted in wrapped SOL, neither reserve of which is empty, with its amount, its
slippage, the two reserves and the creator that it is quoted for. -/
structure WsolTrade (params : SwapParams) (amount slippage x y : UInt64) (c : Pubkey) : Prop where
  seed_eq : params.openSeedOptimize = false
  fixed_eq : params.fixedOutputAmount = none
  quoteMint_eq : params.protocolParams.quoteMint = wsolTokenAccount
  amount_eq : params.inputAmount = some amount
  slippage_eq : params.slippageBasisPoints = some slippage
  base_eq : params.protocolParams.poolBaseTokenReserves = x
  quote_eq : params.protocolParams.poolQuoteTokenReserves = y
  creator_eq : creatorOf params.protocolParams = c
  base_ne : x ≠ 0
  quote_ne : y ≠ 0

section Encoded

variable {e : Env} {params : SwapParams} {amount slippage x y : UInt64} {c : Pubkey}

theorem WsolTrade.quoted (h : WsolTrade params amount slippage x y c) :
    quoteIsWsolOrUsdc params.protocolParams.quoteMint = true := by
  simp [quoteIsWsolOrUsdc, h.quoteMint_eq]

/-- Of the pools quoted in wrapped SOL the SDK refuses those of USDC. -/
theorem WsolTrade.contains_iff (h : WsolTrade params amount slippage x y c) :
    poolContainsWsolOrUsdc params.protocolParams.baseMint params.protocolParams.quoteMint = true ↔
      params.protocolParams.baseMint ≠ usdcTokenAccount := by
  have hne : usdcTokenAccount ≠ wsolTokenAccount := by decide +kernel
  rw [h.quoteMint_eq]
  by_cases husdc : params.protocolParams.baseMint = usdcTokenAccount
  · simp [poolContainsWsolOrUsdc, husdc, hne, hne.symm]
  · simp [poolContainsWsolOrUsdc, husdc]

theorem WsolTrade.buyAmounts_eq (h : WsolTrade params amount slippage x y c) :
    buyAmounts e params = (unwrap (buyQuoteInputInternal e.profile amount slippage x y c)).map fun result =>
      (result.base, result.maxQuote) := by
  simp only [buyAmounts, h.quoted, if_true, h.fixed_eq, h.amount_eq, h.slippage_eq, h.base_eq, h.quote_eq, h.creator_eq,
    Option.getD_some, Option.getD_none]
  rcases unwrap (buyQuoteInputInternal e.profile amount slippage x y c) with f | result <;> rfl

theorem WsolTrade.sellAmounts_eq (h : WsolTrade params amount slippage x y c) :
    sellAmounts e params amount = (unwrap (sellBaseInputInternal e.profile amount slippage x y c)).map fun result =>
      (amount, result.minQuote) := by
  simp only [sellAmounts, h.quoted, if_true, h.fixed_eq, h.slippage_eq, h.base_eq, h.quote_eq, h.creator_eq,
    Option.getD_some, Option.getD_none]
  rcases unwrap (sellBaseInputInternal e.profile amount slippage x y c) with f | result <;> rfl

/-- The data of a buy that spends exactly its input. -/
theorem WsolTrade.buyData_eq (h : WsolTrade params amount slippage x y c)
    (hexact : params.useExactSolAmount.getD true = true) :
    ∃ flags, ∀ tokenAmount solAmount, buyData e params tokenAmount solAmount =
      (calculateWithSlippageSell e.profile tokenAmount slippage).map fun minimum =>
        buyExactQuoteInDiscriminator ++ leBytes 8 amount.toNat ++ leBytes 8 minimum.toNat ++ flags := by
  refine ⟨if params.protocolParams.isCashbackCoin then [1, 1] else [1, 0], fun tokenAmount solAmount => ?_⟩
  simp only [buyData, h.quoted, hexact, if_true, h.amount_eq, h.slippage_eq, Option.getD_some]
  rcases calculateWithSlippageSell e.profile tokenAmount slippage with f | minimum <;> rfl

theorem WsolTrade.amount_getD (h : WsolTrade params amount slippage x y c) : params.inputAmount.getD 0 = amount := by
  rw [h.amount_eq, Option.getD_some]

theorem WsolTrade.buy_refused (h : WsolTrade params amount slippage x y c)
    (hrefused : amount = 0 ∨ params.protocolParams.baseMint = usdcTokenAccount) :
    ∃ err, buildBuyInstructions e params = .error (.err err) := by
  simp only [buildBuyInstructions]
  rw [h.amount_getD]
  by_cases hin : amount = 0
  · rw [bailIf, if_pos hin]
    exact ⟨_, rfl⟩
  · have hpool := fun hcontains => h.contains_iff.mp hcontains (hrefused.resolve_left hin)
    rw [bailIf_neg _ hin, ok_bind, bailIf, if_pos hpool]
    exact ⟨_, rfl⟩

/-- Past its two refusals a buy fails by a panic only. -/
theorem WsolTrade.buy_unrefused (h : WsolTrade params amount slippage x y c)
    (hexact : params.useExactSolAmount.getD true = true) (hin : ¬ amount = 0)
    (husdc : params.protocolParams.baseMint ≠ usdcTokenAccount) : Unrefused (buildBuyInstructions e params) := by
  rw [← h.amount_getD] at hin
  obtain ⟨ixs, hbuild, -⟩ := buildBuyInstructions_eq (e := e) h.seed_eq hin (h.contains_iff.mpr husdc)
  obtain ⟨flags, hdata⟩ := h.buyData_eq (e := e) hexact
  rw [hbuild, h.buyAmounts_eq]
  refine ((unrefused_unwrap _).map _).bind fun amounts => ?_
  rw [hdata]
  exact ((unrefused_calculateWithSlippageSell _ _ _).map _).bind fun _ => unrefused_ok _

theorem WsolTrade.sell_refused (h : WsolTrade params amount slippage x y c)
    (husdc : params.protocolParams.baseMint = usdcTokenAccount) :
    ∃ err, buildSellInstructions e params = .error (.err err) := by
  have hpool := fun hcontains => h.contains_iff.mp hcontains husdc
  unfold buildSellInstructions
  dsimp only
  rw [bailIf, if_pos hpool]
  exact ⟨_, rfl⟩

/-- Past its refusal a sell fails by a panic only. -/
theorem WsolTrade.sell_unrefused (h : WsolTrade params amount slippage x y c)
    (husdc : params.protocolParams.baseMint ≠ usdcTokenAccount) : Unrefused (buildSellInstructions e params) := by
  have hpool := h.contains_iff.mpr husdc
  rcases hamounts : sellAmounts e params amount with f | amounts
  · have hbuild : buildSellInstructions e params = .error f := by
      simp only [buildSellInstructions]
      simp only [bailIf_neg _ (not_not.mpr hpool), h.amount_eq, okOr_some, hamounts, ok_bind, error_bind]
    rw [h.sellAmounts_eq] at hamounts
    intro err herr
    rw [hbuild] at herr
    cases herr
    exact (unrefused_unwrap _).map _ err hamounts
  · obtain ⟨ixs, _, hbuild, -⟩ := buildSellInstructions_of_amounts h.seed_eq hpool h.amount_eq hamounts
    rw [hbuild]
    exact unrefused_ok ixs

/-- **When a buy is bounded.** -/
theorem WsolTrade.buyBounded_iff (h : WsolTrade params amount slippage x y c)
    (hexact : params.useExactSolAmount.getD true = true) :
    BuyBounded e params ↔ amount = 0 ∨ params.protocolParams.baseMint = usdcTokenAccount ∨
      MaxQuoteFits e.profile amount.toNat slippage.toNat ∧
        Boundable (baseOut c amount.toNat x.toNat y.toNat) slippage.toNat := by
  simp only [BuyBounded, h.amount_eq, h.slippage_eq, h.base_eq, h.quote_eq, h.creator_eq, Option.getD_some]
  rw [← or_assoc (a := amount = 0)]
  by_cases hrefused : amount = 0 ∨ params.protocolParams.baseMint = usdcTokenAccount
  · exact iff_of_true (Or.inl (h.buy_refused hrefused)) (Or.inl hrefused)
  rw [or_iff_right hrefused]
  obtain ⟨hin, husdc⟩ := not_or.mp hrefused
  have hquote : buyQuoteInputInternal e.profile amount slippage x y c = _ :=
    buyQuoteInputInternal_eq h.base_ne h.quote_ne
  constructor
  · rintro (⟨err, herr⟩ | ⟨_, quote, minimum, _, ix, -, hok, hbounded, -⟩)
    · exact absurd herr (h.buy_unrefused hexact hin husdc err)
    · rw [hquote] at hok
      obtain ⟨maxQuote, hmax, rfl⟩ := Rust.exists_of_map_eq_ok hok
      rw [← toNat_baseOut]
      exact ⟨isOk_calculateWithSlippageBuy.mp ⟨maxQuote, hmax⟩, bounded_iff.mp ⟨minimum, hbounded⟩⟩
  · rintro ⟨hfits, hboundable⟩
    obtain ⟨maxQuote, hmax⟩ := isOk_calculateWithSlippageBuy.mpr hfits
    rw [← toNat_baseOut] at hboundable
    obtain ⟨minimum, hbounded⟩ := bounded_iff.mpr hboundable
    rw [← h.amount_getD] at hin
    obtain ⟨ixs, hbuild, htrade⟩ := buildBuyInstructions_eq (e := e) h.seed_eq hin (h.contains_iff.mpr husdc)
    obtain ⟨flags, hdata⟩ := h.buyData_eq (e := e) hexact
    rw [hmax] at hquote
    rw [h.buyAmounts_eq, hquote] at hbuild
    simp only [Except.map, unwrap, ok_bind, hdata, calculateWithSlippageSell_of_dev e.profile hbounded.computed]
      at hbuild
    obtain ⟨ix, hmem, hix⟩ := htrade (asU64 (baseOut c amount.toNat x.toNat y.toNat), maxQuote)
      (buyExactQuoteInDiscriminator ++ leBytes 8 amount.toNat ++ leBytes 8 minimum.toNat ++ flags)
    exact Or.inr ⟨_, _, minimum, flags, ix, hbuild, hquote, hbounded, hmem, hix⟩

/-- **When a sell is bounded.** -/
theorem WsolTrade.sellBounded_iff (h : WsolTrade params amount slippage x y c) :
    SellBounded e params ↔ params.protocolParams.baseMint = usdcTokenAccount ∨
      Boundable (netOut c amount.toNat x.toNat y.toNat) slippage.toNat := by
  simp only [SellBounded, h.amount_eq, h.slippage_eq, h.base_eq, h.quote_eq, h.creator_eq, Option.getD_some]
  by_cases husdc : params.protocolParams.baseMint = usdcTokenAccount
  · exact iff_of_true (Or.inl (h.sell_refused husdc)) (Or.inl husdc)
  rw [or_iff_right husdc]
  have hnet : (asU64 (netOut c amount.toNat x.toNat y.toNat)).toNat = netOut c amount.toNat x.toNat y.toNat :=
    toNat_asU64 (netOut_lt _)
  have hquote : sellBaseInputInternal e.profile amount slippage x y c = _ :=
    sellBaseInputInternal_cases rfl h.base_ne h.quote_ne
  constructor
  · rintro (⟨err, herr⟩ | ⟨_, quote, ix, -, hok, hbounded, -⟩)
    · exact absurd herr (h.sell_unrefused husdc err)
    · rw [hquote] at hok
      split_ifs at hok with hfees
      · obtain ⟨minQuote, hmin, rfl⟩ := Rust.exists_of_map_eq_ok hok
        rw [← hnet]
        exact bounded_iff.mp ⟨minQuote, hbounded⟩
      · cases hok
  · intro hboundable
    -- the output is not 0, so that the fees leave something
    have hfees : totalFees c (quoteOut amount.toNat x.toNat y.toNat) ≤ quoteOut amount.toNat x.toNat y.toNat := by
      have hpos := hboundable.1
      rw [netOut] at hpos
      omega
    rw [← hnet] at hboundable
    obtain ⟨minimum, hbounded⟩ := bounded_iff.mpr hboundable
    have hmin := calculateWithSlippageSell_of_dev e.profile hbounded.computed
    rw [netOut] at hmin
    rw [if_pos hfees, hmin] at hquote
    have hamounts : sellAmounts e params amount = .ok (amount, minimum) := by
      rw [h.sellAmounts_eq, hquote]
      rfl
    obtain ⟨ixs, ix, hbuild, hmem, hix⟩ := buildSellInstructions_of_amounts h.seed_eq (h.contains_iff.mpr husdc)
      h.amount_eq hamounts
    rw [h.quoted] at hix
    exact Or.inr ⟨ixs, _, ix, hbuild, hquote, hbounded, hmem, hix⟩

end Encoded

end PumpSwapBot.Sdk

namespace PumpSwapBot.Rust

open PumpSwapBot.Sdk PumpSwapBot.Library

/-! ### The trader's orders -/

/-- The inputs of a buy that is bounded or refused: a product that fits, and an output that has a bound. -/
def BuyFits (e : Env) (basisPoints : UInt64) (info : TradeInfo) (solAmount : UInt64) : Prop :=
  solAmount = 0 ∨ info.baseMint = usdcTokenAccount ∨
    MaxQuoteFits e.profile solAmount.toNat basisPoints.toNat ∧
      Boundable (baseOut (creatorOf (buildPumpswapParamsFromTradeInfo info)) solAmount.toNat
        info.poolBaseTokenReserves.toNat info.poolQuoteTokenReserves.toNat) basisPoints.toNat

/-- The inputs of a sell that is bounded or refused. -/
def SellFits (basisPoints : UInt64) (info : TradeInfo) (tokenBalance : UInt64) : Prop :=
  info.baseMint = usdcTokenAccount ∨
    Boundable (netOut (creatorOf (buildPumpswapParamsFromTradeInfo info)) tokenBalance.toNat
      info.poolBaseTokenReserves.toNat info.poolQuoteTokenReserves.toNat) basisPoints.toNat

section Orders

variable {config : BotConfig} {payer : Pubkey} {outcome : SwqosConfig → InitOutcome} {fallback : InitOutcome} {e : Env}
  {info : TradeInfo}

/-- A buy order for a pool quoted in wrapped SOL. -/
theorem wsolTrade_buy (hquote : info.quoteMint = wsolTokenAccount) (hx : info.poolBaseTokenReserves ≠ 0)
    (hy : info.poolQuoteTokenReserves ≠ 0) (solAmount : UInt64) (hash : Hash) :
    WsolTrade (buyTrade config payer outcome fallback info solAmount hash) solAmount config.slippageBps
      info.poolBaseTokenReserves info.poolQuoteTokenReserves (creatorOf (buildPumpswapParamsFromTradeInfo info)) :=
  ⟨rfl, rfl, hquote, rfl, rfl, rfl, rfl, rfl, hx, hy⟩

/-- A sell order for a pool quoted in wrapped SOL. -/
theorem wsolTrade_sell (hquote : info.quoteMint = wsolTokenAccount) (hx : info.poolBaseTokenReserves ≠ 0)
    (hy : info.poolQuoteTokenReserves ≠ 0) (tokenBalance : UInt64) (hash : Hash) :
    WsolTrade (sellTrade config payer outcome fallback info tokenBalance hash) tokenBalance config.slippageBps
      info.poolBaseTokenReserves info.poolQuoteTokenReserves (creatorOf (buildPumpswapParamsFromTradeInfo info)) :=
  ⟨rfl, rfl, hquote, rfl, rfl, rfl, rfl, rfl, hx, hy⟩

/-- **Which orders are bounded.** Whatever the configuration, every order for a pool quoted in wrapped SOL, neither
reserve of which is empty, is refused by the SDK or carries a bound of the output it is quoted at, exactly if its inputs
fit. -/
theorem slippage_bounded_iff (hquote : info.quoteMint = wsolTokenAccount) (hx : info.poolBaseTokenReserves ≠ 0)
    (hy : info.poolQuoteTokenReserves ≠ 0) :
    let t := Trader.newWithOptions config payer outcome fallback
    (∀ a solAmount params result, (t.buy a info solAmount).1.call = some (params, result) →
      (BuyBounded e (t.client.buySwapParams params) ↔ BuyFits e config.slippageBps info solAmount)) ∧
    (∀ a params result, (t.sell e a info).call = some (params, result) →
      (SellBounded e (t.client.sellSwapParams params) ↔
        SellFits config.slippageBps info (t.getTokenBalance e a info.baseMint))) := by
  intro t
  constructor
  · intro a solAmount params result hcall
    obtain ⟨hash, rfl⟩ := Trader.buy_call_eq hcall
    exact (wsolTrade_buy hquote hx hy solAmount hash).buyBounded_iff rfl
  · intro a params result hcall
    obtain ⟨hash, rfl⟩ := Trader.sell_call_eq hcall
    exact (wsolTrade_sell hquote hx hy _ hash).sellBounded_iff

end Orders

/-- With a slippage of 5% the orders of the sample are bounded. -/
theorem slippage_bounded_sample :
    let t := sampleTrader false
    BuyBounded sampleEnv (t.client.buySwapParams (t.buyParams sampleInfo 10000000 sampleHash)) ∧
      SellBounded sampleEnv (t.client.sellSwapParams (t.sellParams sampleInfo
        (t.getTokenBalance sampleEnv sampleAnswers sampleInfo.baseMint) sampleHash)) := by
  intro t
  have hbalance : t.getTokenBalance sampleEnv sampleAnswers sampleInfo.baseMint = 5000000 :=
    getTokenBalance_sample false
  have hne : t.getTokenBalance sampleEnv sampleAnswers sampleInfo.baseMint ≠ 0 := by
    rw [hbalance]
    decide
  obtain ⟨hbuy, hsell⟩ := @slippage_bounded_iff (sampleConfig false) sampleWallet (fun _ => sampleReady) sampleReady
    sampleEnv sampleInfo rfl (by decide) (by decide)
  constructor
  · refine (hbuy sampleAnswers 10000000 _ _ (Trader.buy_call t sampleInfo rfl (by decide) rfl)).mpr ?_
    exact Or.inr (Or.inr ⟨Or.inl rfl, by decide +kernel⟩)
  · refine (hsell sampleAnswers _ _ (Trader.sell_call hne rfl)).mpr (Or.inr ?_)
    rw [hbalance]
    decide +kernel

/-- With a slippage of 200%, which the configuration accepts, neither order of the sample is: the least that the sell
must bring is more than what it is quoted at. -/
theorem slippage_above_all :
    let config := { sampleConfig false with slippageBps := 20000 }
    let t := Trader.newWithOptions config sampleWallet (fun _ => sampleReady) sampleReady
    (∃ params result, (t.buy sampleAnswers sampleInfo 10000000).1.call = some (params, result) ∧
      ¬ BuyBounded sampleEnv (t.client.buySwapParams params)) ∧
    (∃ params result, (t.sell sampleEnv sampleAnswers sampleInfo).call = some (params, result) ∧
      ¬ SellBounded sampleEnv (t.client.sellSwapParams params)) ∧
    ∃ quote, sellBaseInputInternal sampleEnv.profile 5000000 20000 sampleInfo.poolBaseTokenReserves
        sampleInfo.poolQuoteTokenReserves (creatorOf (buildPumpswapParamsFromTradeInfo sampleInfo)) = .ok quote ∧
      quote.uiQuote < quote.minQuote := by
  intro config t
  have hbalance : t.getTokenBalance sampleEnv sampleAnswers sampleInfo.baseMint = 5000000 := by decide +kernel
  have hne : t.getTokenBalance sampleEnv sampleAnswers sampleInfo.baseMint ≠ 0 := by
    rw [hbalance]
    decide
  have hbase : sampleInfo.baseMint ≠ usdcTokenAccount := by decide +kernel
  refine ⟨⟨_, _, Trader.buy_call t sampleInfo rfl (by decide) rfl, fun h => ?_⟩,
    ⟨_, _, Trader.sell_call hne rfl, fun h => ?_⟩, _, rfl, by decide +kernel⟩
  · have hfits := ((wsolTrade_buy rfl (by decide) (by decide) 10000000 sampleHash).buyBounded_iff rfl).mp h
    exact absurd ((hfits.resolve_left (by decide)).resolve_left hbase).2 (by decide +kernel)
  · have hfits := ((wsolTrade_sell rfl (by decide) (by decide) _ sampleHash).sellBounded_iff).mp h
    rw [hbalance] at hfits
    exact absurd (hfits.resolve_left hbase) (by decide +kernel)

end PumpSwapBot.Rust
