import PumpSwapBot.Node.Price
import PumpSwapBot.Rust.Orders
import PumpSwapBot.Rust.Strategy
import Mathlib.Data.Rat.Lemmas
import Mathlib.Tactic.FieldSimp

/-!
# The two prices of a position

A position is opened at the price of a pool's reserves and watched at the price of its latest
record. Here the two are compared, for the same reserves, and so are the bound a sell is sent with,
which comes from the reserves of the buy, and what the pool would pay now.

## What is proved

* `calculatePriceFromPool_ne_record` — at the same reserves the two prices of the Rust bot never agree; those
  of the Node bot agree when wrapped SOL is the quote.
* `sell_meets_bound` — the bound of a sell is met at the current reserves if the output has not fallen by
  more than the slippage, up to the roundings of the fees.
-/

namespace PumpSwapBot.Rust

open PumpSwapBot.Sdk PumpSwapBot.Library

/-! ### Pool and record -/

/-- A swap event on the pool of some trade data, at the same reserves, in which wrapped SOL is one side and
a token the other. -/
structure OnPool (info : TradeInfo) (e : SwapEvent) : Prop where
  base : e.baseMint = info.baseMint
  quote : e.quoteMint = info.quoteMint
  baseReserves : e.poolBaseTokenReserves = info.poolBaseTokenReserves
  quoteReserves : e.poolQuoteTokenReserves = info.poolQuoteTokenReserves
  /-- One side is wrapped SOL and the other is not. -/
  oneWsol : info.baseMint = wsolTokenAccount ↔ info.quoteMint ≠ wsolTokenAccount
  base_ne : info.poolBaseTokenReserves ≠ 0
  quote_ne : info.poolQuoteTokenReserves ≠ 0

/-- The same data in the Node bot. -/
def nodeTradeInfo (info : TradeInfo) : Node.TradeInfo where
  pool := info.pool
  baseMint := info.baseMint
  quoteMint := info.quoteMint
  poolBaseTokenAccount := info.poolBaseTokenAccount
  poolQuoteTokenAccount := info.poolQuoteTokenAccount
  poolBaseTokenReserves := info.poolBaseTokenReserves.toNat
  poolQuoteTokenReserves := info.poolQuoteTokenReserves.toNat
  coinCreatorVaultAta := info.coinCreatorVaultAta
  coinCreatorVaultAuthority := info.coinCreatorVaultAuthority
  baseTokenProgram := info.baseTokenProgram
  quoteTokenProgram := info.quoteTokenProgram
  feeRecipient := info.feeRecipient
  isCashbackCoin := info.isCashbackCoin
  isMayhemMode := info.isMayhemMode

/-- The same event in the Node bot. -/
def nodeEvent (isBuy : Bool) (e : SwapEvent) : Node.PumpSwapEvent where
  baseMint := e.baseMint.toText
  quoteMint := e.quoteMint.toText
  poolBaseTokenReserves := e.poolBaseTokenReserves.toNat
  poolQuoteTokenReserves := e.poolQuoteTokenReserves.toNat
  timestamp := e.timestamp
  signature := e.signature
  isBuy := isBuy

/-- No two reserves have the ratio of the square root of 1000. -/
theorem sq_ne_thousand_mul_sq {x y : ℕ} (hy : y ≠ 0) : (x : ℚ) ^ 2 ≠ 1000 * (y : ℚ) ^ 2 := by
  intro h
  have hsq : IsSquare ((1000 : ℕ) : ℚ) := by
    refine ⟨x / y, ?_⟩
    field_simp
    push_cast
    linarith
  rw [Rat.isSquare_natCast_iff] at hsq
  obtain ⟨r, hr⟩ := hsq
  have hlt : r < 32 := by nlinarith
  have hgt : 31 < r := by nlinarith
  omega

theorem toNat_ne_zero {n : UInt64} (h : n ≠ 0) : n.toNat ≠ 0 := fun h' => h (UInt64.toNat.inj h')

/-- The update of an event on a pool: the token's reserves and those of wrapped SOL, whichever side they are. -/
theorem OnPool.handleSwap_eq {info : TradeInfo} {e : SwapEvent} {p : Profile} {isBuy : Bool} {u : TransactionUpdate}
    (h : OnPool info e) (hu : handleSwap p isBuy e = .ok (some u)) :
    (info.quoteMint = wsolTokenAccount ∧ u.tokenAmount = info.poolBaseTokenReserves ∧
        u.solAmount = info.poolQuoteTokenReserves) ∨
      (info.quoteMint ≠ wsolTokenAccount ∧ u.tokenAmount = info.poolQuoteTokenReserves ∧
        u.solAmount = info.poolBaseTokenReserves) := by
  unfold handleSwap at hu
  dsimp only at hu
  split_ifs at hu with hnone hb
  · cases hu
  · obtain ⟨blocktimeUs, -, hu⟩ := bind_eq_ok.mp hu
    cases hu
    exact Or.inr ⟨h.oneWsol.mp (h.base ▸ hb), h.quoteReserves, h.baseReserves⟩
  · obtain ⟨blocktimeUs, -, hu⟩ := bind_eq_ok.mp hu
    cases hu
    have hq : info.quoteMint = wsolTokenAccount := by
      by_contra hq
      exact hb (h.base.trans (h.oneWsol.mpr hq))
    exact Or.inl ⟨hq, h.baseReserves, h.quoteReserves⟩

/-- The price of a record of non-zero amounts. -/
theorem record_price {u : TransactionUpdate} (h : u.tokenAmount ≠ 0) :
    u.record.effectivePrice = (u.solAmount.toNat : ℚ) / u.tokenAmount.toNat / 1000 := by
  have hpos : u.tokenAmount > 0 := UInt64.pos_iff_ne_zero.mpr h
  exact if_pos hpos

theorem profitPct_ne_zero {buyPrice price : ℚ} (hpos : 0 < buyPrice) (hne : price ≠ buyPrice) :
    profitPct buyPrice price ≠ 0 := by
  simp only [profitPct]
  rw [if_pos hpos]
  have hsub : price - buyPrice ≠ 0 := sub_ne_zero.mpr hne
  positivity

/-- The price of the pool, in positive amounts. -/
theorem OnPool.price {info : TradeInfo} {e : SwapEvent} (h : OnPool info e) :
    0 < (info.poolBaseTokenReserves.toNat : ℚ) ∧ 0 < (info.poolQuoteTokenReserves.toNat : ℚ) ∧
      calculatePriceFromPool info = (info.poolQuoteTokenReserves.toNat : ℚ) / info.poolBaseTokenReserves.toNat := by
  have hx : 0 < (info.poolBaseTokenReserves.toNat : ℚ) :=
    Nat.cast_pos.mpr (Nat.pos_of_ne_zero (toNat_ne_zero h.base_ne))
  have hy : 0 < (info.poolQuoteTokenReserves.toNat : ℚ) :=
    Nat.cast_pos.mpr (Nat.pos_of_ne_zero (toNat_ne_zero h.quote_ne))
  exact ⟨hx, hy, if_neg hx.ne'⟩

/-- At the same reserves the price of the pool is not that of the record: it is a thousand times as high
if wrapped SOL is the quote, and has its sides exchanged as well if it is the base. -/
theorem OnPool.price_ne {info : TradeInfo} {e : SwapEvent} {p : Profile} {isBuy : Bool} {u : TransactionUpdate}
    (h : OnPool info e) (hu : handleSwap p isBuy e = .ok (some u)) :
    u.record.effectivePrice ≠ calculatePriceFromPool info := by
  obtain ⟨hx, hy, hprice⟩ := h.price
  rw [hprice]
  rcases h.handleSwap_eq hu with ⟨-, htoken, hsol⟩ | ⟨-, htoken, hsol⟩
  · rw [record_price (by rw [htoken]; exact h.base_ne), htoken, hsol]
    have hpos : 0 < (info.poolQuoteTokenReserves.toNat : ℚ) / info.poolBaseTokenReserves.toNat := by positivity
    intro heq
    linarith
  · rw [record_price (by rw [htoken]; exact h.quote_ne), htoken, hsol]
    intro heq
    refine sq_ne_thousand_mul_sq (toNat_ne_zero h.quote_ne) (x := info.poolBaseTokenReserves.toNat) ?_
    field_simp at heq
    linarith

/-- The Node bot's update of an event on a pool, and when its price is that of the pool. -/
theorem OnPool.node_price_iff {info : TradeInfo} {e : SwapEvent} (h : OnPool info e) (isBuy : Bool) :
    ∃ u, Node.processPumpSwapEvent (nodeEvent isBuy e) = some u ∧
      (Node.calculatePriceFromPool (.exact 53) (nodeTradeInfo info) = (u.record (.exact 53)).price ↔
        info.quoteMint = wsolTokenAccount ∨ info.poolBaseTokenReserves = info.poolQuoteTokenReserves) := by
  obtain ⟨hx, hy, -⟩ := h.price
  have hwsol : ∀ k : Pubkey, k.toText = Node.wsolMint ↔ k = wsolTokenAccount := by
    intro k
    rw [show Node.wsolMint = wsolTokenAccount.toText by decide +kernel, Pubkey.toText_inj]
  have hpool : Node.calculatePriceFromPool (.exact 53) (nodeTradeInfo info) =
      (info.poolQuoteTokenReserves.toNat : ℚ) / info.poolBaseTokenReserves.toNat / 1000 := if_neg hx.ne'
  have hrecord : ∀ sol token : ℚ, 0 < token →
      Node.calculatePriceFromAmounts (.exact 53) sol token = sol / token / 1000 := fun _ _ htoken => if_neg htoken.not_ge
  rw [hpool]
  by_cases hq : info.quoteMint = wsolTokenAccount
  · have hb : info.baseMint ≠ wsolTokenAccount := fun hb => h.oneWsol.mp hb hq
    refine ⟨_, if_neg (by simp [nodeEvent, hwsol, h.quote, hq]), iff_of_true ?_ (Or.inl hq)⟩
    simp only [Node.TransactionUpdate.record, Node.createTradeRecord, nodeEvent, hwsol, h.base, hb, if_false,
      h.baseReserves, h.quoteReserves, hrecord _ _ hx]
  · have hb : info.baseMint = wsolTokenAccount := h.oneWsol.mpr hq
    refine ⟨_, if_neg (by simp [nodeEvent, hwsol, h.base, hb]), ?_⟩
    simp only [Node.TransactionUpdate.record, Node.createTradeRecord, nodeEvent, hwsol, h.base, hb, if_true,
      h.baseReserves, h.quoteReserves, hrecord _ _ hy, hq, false_or]
    constructor
    · intro heq
      field_simp at heq
      have hsame := (pow_left_inj₀ hy.le hx.le two_ne_zero).mp heq
      exact UInt64.toNat.inj (Nat.cast_injective hsame.symm)
    · intro heq
      rw [heq]

/-- **The two prices of a position never agree.** At the same reserves of a pool of wrapped SOL and a token,
the price a position is opened at is not the price of the record, so that a position checked at unchanged
reserves has a gain or a loss. In the Node bot the two prices agree exactly if wrapped SOL is the
quote, or the reserves are equal. -/
theorem calculatePriceFromPool_ne_record {info : TradeInfo} {e : SwapEvent} {p : Profile} {isBuy : Bool}
    {u : TransactionUpdate} (h : OnPool info e)
    (hu : handleEvent p (if isBuy then .buy e else .sell e) = .ok (some u)) :
    calculatePriceFromPool info ≠ u.record.effectivePrice ∧
      profitPct (calculatePriceFromPool info) u.record.effectivePrice ≠ 0 ∧
      ∃ u', Node.processPumpSwapEvent (nodeEvent isBuy e) = some u' ∧
        (Node.calculatePriceFromPool (.exact 53) (nodeTradeInfo info) = (u'.record (.exact 53)).price ↔
          info.quoteMint = wsolTokenAccount ∨ info.poolBaseTokenReserves = info.poolQuoteTokenReserves) := by
  have hswap : handleSwap p isBuy e = .ok (some u) := by
    rw [← hu]
    cases isBuy <;> rfl
  have hne := h.price_ne hswap
  obtain ⟨hx, hy, hprice⟩ := h.price
  have hpos : 0 < calculatePriceFromPool info := by
    rw [hprice]
    positivity
  exact ⟨hne.symm, profitPct_ne_zero hpos hne, h.node_price_iff isBuy⟩

/-- A swap on the sample's pool. -/
def sampleEvent : SwapEvent where
  baseMint := sampleMint
  quoteMint := wsolTokenAccount
  poolBaseTokenReserves := 200000000000
  poolQuoteTokenReserves := 100000000000
  timestamp := 1700000000
  signature := "a"

/-- The update it leads to. -/
def sampleUpdate : TransactionUpdate where
  mint := "2b1kV6DkPAnxd5ixfnxCpjxmKwqjjaYmCZfHsFu24GXo"
  tokenAmount := 200000000000
  solAmount := 100000000000
  isBuy := true
  signature := "a"
  blocktimeUs := 1700000000000000

/-- The sample's two prices differ. -/
theorem calculatePriceFromPool_ne_sample :
    calculatePriceFromPool sampleInfo ≠ sampleUpdate.record.effectivePrice := by
  have hone : sampleInfo.baseMint = wsolTokenAccount ↔ sampleInfo.quoteMint ≠ wsolTokenAccount := by
    decide +kernel
  have hpool : OnPool sampleInfo sampleEvent := ⟨rfl, rfl, rfl, rfl, hone, by decide, by decide⟩
  have hu : handleEvent .release (if true then .buy sampleEvent else .sell sampleEvent) = .ok (some sampleUpdate) := by
    decide +kernel
  exact (calculatePriceFromPool_ne_record hpool hu).1

/-- At unchanged reserves the sample's position shows a loss of 99.9 percent. -/
theorem profitPct_sample :
    handleEvent .release (.buy sampleEvent) = .ok (some sampleUpdate) ∧
      calculatePriceFromPool sampleInfo = 1 / 2 ∧ sampleUpdate.record.effectivePrice = 1 / 2000 ∧
      profitPct (calculatePriceFromPool sampleInfo) sampleUpdate.record.effectivePrice = -999 / 10 := by
  decide +kernel

/-! ### The bound of a sell -/

section Bound

variable {config : BotConfig} {payer : Pubkey} {outcome : SwqosConfig → InitOutcome} {fallback : InitOutcome} {e : Env}

/-- **When a sell's bound is met.** A position in a pool quoted in wrapped SOL is sold with a bound computed
from the reserves kept at the buy. Let `r₀` be what the balance would bring at those reserves and `r₁` at
the current ones, before fees. If `r₁` is at least `r₀` less the slippage, and 5 lamports more for
the roundings of the fees, the bound is at most the net amount at the current reserves. -/
theorem sell_meets_bound {info : TradeInfo} (record : TokenTradeRecord) {tokenBalance : UInt64} {hash : Hash}
    {r₀ r₁ : ℕ} {creator : Pubkey} (hquote : info.quoteMint = wsolTokenAccount)
    (hbase : info.baseMint ≠ usdcTokenAccount) (hslip : config.slippageBps.toNat ≤ 10000)
    (hcreator : creator = creatorOf (buildPumpswapParamsFromTradeInfo info))
    (hr₀ : r₀ = quoteOut tokenBalance.toNat info.poolBaseTokenReserves.toNat info.poolQuoteTokenReserves.toNat)
    (hr₁ : r₁ = quoteOut tokenBalance.toNat record.tokenAmount.toNat record.solAmount.toNat)
    (hx₀ : info.poolBaseTokenReserves ≠ 0) (hy₀ : info.poolQuoteTokenReserves ≠ 0) (hx₁ : record.tokenAmount ≠ 0)
    (hfees : totalFees creator r₀ ≤ r₀) (hfit : (r₀ - totalFees creator r₀) * config.slippageBps.toNat < 2 ^ 64)
    (hkept : r₀ * (10000 - config.slippageBps.toNat) + 50000 ≤ r₁ * 10000) :
    ∃ ixs ix minQuote quote,
      buildSellInstructions e (sellTrade config payer outcome fallback info tokenBalance hash) = .ok ixs ∧ ix ∈ ixs ∧
      IsTrade e (sellTrade config payer outcome fallback info tokenBalance hash)
        (sellDiscriminator ++ leBytes 8 tokenBalance.toNat ++ leBytes 8 minQuote.toNat) ix ∧
      sellBaseInputInternal e.profile tokenBalance 0 record.tokenAmount record.solAmount creator = .ok quote ∧
      minQuote ≤ quote.uiQuote := by
  obtain ⟨cached, hcached, -, hmin⟩ := sellBaseInputInternal_eq (p := e.profile) hr₀ hx₀ hy₀ hslip hfees hfit
  have hfive : 5 ≤ r₁ := by omega
  have hy₁ : record.solAmount ≠ 0 := by
    intro hy
    rw [hr₁, hy, quoteOut, UInt64.toNat_zero, Nat.zero_mul, Nat.zero_div] at hfive
    omega
  have hzero : (0 : UInt64).toNat ≤ 10000 := by decide
  obtain ⟨quote, hcurrent, hnet, -⟩ := sellBaseInputInternal_eq (p := e.profile) (c := creator) hr₁ hx₁ hy₁ hzero
    (totalFees_le hfive) (by simp)
  have hpool : poolContainsWsolOrUsdc info.baseMint info.quoteMint = true := by
    simp [poolContainsWsolOrUsdc, hquote, hbase]
  have hquoted : quoteIsWsolOrUsdc info.quoteMint = true := by simp [quoteIsWsolOrUsdc, hquote]
  have hamounts : sellAmounts e (sellTrade config payer outcome fallback info tokenBalance hash) tokenBalance =
      .ok (tokenBalance, cached.minQuote) := sellAmounts_of_quoted hquoted rfl (hcreator ▸ hcached)
  obtain ⟨ixs, ix, hixs, hmem, htrade⟩ := buildSellInstructions_of_amounts rfl hpool rfl hamounts
  have hdata : sellData (quoteIsWsolOrUsdc info.quoteMint) tokenBalance cached.minQuote =
      sellDiscriminator ++ leBytes 8 tokenBalance.toNat ++ leBytes 8 cached.minQuote.toNat := by
    rw [sellData, if_pos hquoted]
  refine ⟨ixs, ix, cached.minQuote, quote, hixs, hmem, hdata ▸ htrade, hcurrent, ?_⟩
  rw [UInt64.le_iff_toNat_le, hmin, hnet]
  exact minQuote_le_net creator hslip hkept

end Bound

/-- A record of the sample's pool with given reserves. -/
def sampleRecord (tokenAmount solAmount : UInt64) : TokenTradeRecord :=
  .fromTransaction "2b1kV6DkPAnxd5ixfnxCpjxmKwqjjaYmCZfHsFu24GXo" tokenAmount solAmount false "c" 1700000002000000

/-- At unchanged reserves the bound of the sample's sell is met. -/
theorem sell_meets_bound_sample :
    ∃ ixs ix minQuote quote,
      buildSellInstructions sampleEnv (sellTrade (sampleConfig false) sampleWallet (fun _ => sampleReady) sampleReady
        sampleInfo 5000000 sampleHash) = .ok ixs ∧ ix ∈ ixs ∧
      IsTrade sampleEnv (sellTrade (sampleConfig false) sampleWallet (fun _ => sampleReady) sampleReady
        sampleInfo 5000000 sampleHash) (sellDiscriminator ++ leBytes 8 5000000 ++ leBytes 8 minQuote.toNat) ix ∧
      sellBaseInputInternal sampleEnv.profile 5000000 0 200000000000 100000000000
        (creatorOf (buildPumpswapParamsFromTradeInfo sampleInfo)) = .ok quote ∧
      minQuote ≤ quote.uiQuote :=
  sell_meets_bound (sampleRecord 200000000000 100000000000) rfl (by decide +kernel) (by decide) rfl rfl rfl
    (by decide) (by decide) (by decide) (by decide +kernel) (by decide +kernel) (by decide +kernel)

/-- After a fall of the pool the bot decides to sell the sample, with a bound the pool does not pay. -/
theorem sell_misses_bound :
    let record := sampleRecord 220000000000 90000000000
    let creator := creatorOf (buildPumpswapParamsFromTradeInfo sampleInfo)
    shouldSell (sampleConfig false)
        (profitPct (calculatePriceFromPool sampleInfo) record.effectivePrice) = true ∧
      ∃ ixs cached current,
        buildSellInstructions sampleEnv (sellTrade (sampleConfig false) sampleWallet (fun _ => sampleReady) sampleReady
          sampleInfo 5000000 sampleHash) = .ok ixs ∧
        (ixs.filter fun ix => ix.programId = ammProgram).map Instruction.data =
          [sellDiscriminator ++ leBytes 8 5000000 ++ leBytes 8 cached.minQuote.toNat] ∧
        sellBaseInputInternal .release 5000000 500 sampleInfo.poolBaseTokenReserves sampleInfo.poolQuoteTokenReserves
          creator = .ok cached ∧
        sellBaseInputInternal .release 5000000 500 record.tokenAmount record.solAmount creator = .ok current ∧
        current.uiQuote < cached.minQuote := by
  intro record creator
  obtain ⟨ixs, hixs, hdata⟩ := exists_of_map_eq_ok (r := buildSellInstructions sampleEnv (sellTrade (sampleConfig false)
      sampleWallet (fun _ => sampleReady) sampleReady sampleInfo 5000000 sampleHash))
    (f := fun ixs => (ixs.filter fun ix => ix.programId = ammProgram).map Instruction.data)
    (b := [sellDiscriminator ++ leBytes 8 5000000 ++ leBytes 8 2367816]) (by decide +kernel)
  exact ⟨by decide +kernel, ixs, ⟨2492437, 2367816, 2499937⟩, ⟨2039271, 1937308, 2045408⟩, hixs, hdata,
    by decide +kernel⟩

end PumpSwapBot.Rust
