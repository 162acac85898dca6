import PumpSwapBot.Sdk.Calc
import PumpSwapBot.Sdk.Pool
import PumpSwapBot.Sdk.Swqos

/-!
# Building the instructions of a trade

The PumpSwap instruction builder (`instruction/pumpswap.rs`) with what it calls: wrapping and
unwrapping SOL (`trading/common/wsol_manager.rs`), creating and closing token accounts
(`common/fast_fn.rs`, `common/seed.rs`, `common/spl_token.rs`).

## The model

The instructions are built as the source builds them, accounts and data in full. What the builder
takes from outside its parameters is an `Env`: address derivation, the two cached rents, the system
program's instruction for an account with a seed, the random choice among the Mayhem fee
recipients, and the build profile.

## What is proved

Without seed optimisation, `buildBuyInstructions_trade` and `buildSellInstructions_trade` give the
instruction of the list that trades: its data, and the accounts it begins with, among them the
wallet's associated token accounts. `buildSellInstructions_of_amounts` says that a sell is built as
soon as its amounts are.
-/

namespace PumpSwapBot.Sdk

open PumpSwapBot.Library

/-- An account an instruction uses. -/
structure AccountMeta where
  pubkey : Pubkey
  isSigner : Bool
  isWritable : Bool
  deriving DecidableEq

/-- A writable account. -/
def AccountMeta.new (pubkey : Pubkey) (isSigner : Bool) : AccountMeta := ⟨pubkey, isSigner, true⟩

/-- A read-only account. -/
def AccountMeta.newReadonly (pubkey : Pubkey) (isSigner : Bool) : AccountMeta := ⟨pubkey, isSigner, false⟩

/-- An instruction of a transaction. -/
structure Instruction where
  programId : Pubkey
  accounts : List AccountMeta
  data : List UInt8
  deriving DecidableEq

/-- What the builder takes from outside its parameters. -/
structure Env where
  /-- Address derivation. -/
  derivation : Derivation
  /-- Overflow checks. -/
  profile : Profile
  /-- The cached rent of a token account, all ones before it is known. -/
  splTokenRent : UInt64
  /-- The same under Token-2022. -/
  splToken2022Rent : UInt64
  /-- The system program's `create_account_with_seed`: from, to, base, seed, lamports, space, owner. -/
  createAccountWithSeed : Pubkey → Pubkey → Pubkey → String → UInt64 → UInt64 → Pubkey → Instruction
  /-- Which Mayhem fee recipient the random choice falls on. -/
  mayhemChoice : Fin 8

/-- A block hash. -/
abbrev Hash := List UInt8

/-- A durable nonce, which can take the place of a recent block hash. -/
structure DurableNonceInfo where
  nonceAccount : Option Pubkey
  currentNonce : Option Hash
  deriving DecidableEq

/-- The parameters of a trade as the executor gets them. -/
structure SwapParams where
  /-- The wallet. -/
  payer : Pubkey
  tradeType : TradeType
  inputMint : Pubkey
  outputMint : Pubkey
  inputAmount : Option UInt64
  slippageBasisPoints : Option UInt64
  recentBlockhash : Option Hash
  waitTxConfirmed : Bool
  protocolParams : PumpSwapParams
  /-- Whether token accounts are derived from seeds. -/
  openSeedOptimize : Bool
  swqosClients : List SwqosClient
  durableNonce : Option DurableNonceInfo
  withTip : Bool
  createInputMintAta : Bool
  closeInputMintAta : Bool
  createOutputMintAta : Bool
  closeOutputMintAta : Bool
  fixedOutputAmount : Option UInt64
  gasFeeStrategy : GasFeeStrategy
  checkMinTip : Bool
  /-- Whether a buy spends exactly its input, the default. -/
  useExactSolAmount : Option Bool

/-! ### Token accounts -/

/-- The instruction that gives an account its owner. -/
def initializeAccount3 (tokenProgramId accountPubkey mintPubkey ownerPubkey : Pubkey) : Instruction where
  programId := tokenProgramId
  accounts := [.new accountPubkey false, .newReadonly mintPubkey false]
  data := 18 :: ownerPubkey.bytes

/-- The instructions that create a token account from a seed; they need the cached rent. -/
def createAssociatedTokenAccountUseSeed (e : Env) (payer owner mint tokenProgramId : Pubkey) :
    Result (List Instruction) := do
  let rent := if tokenProgramId = tokenProgram2022 then e.splToken2022Rent else e.splTokenRent
  bailIf (rent = 0xffffffffffffffff) "Rent not initialized"
  let ataLike ← orFail (e.derivation.createWithSeed payer (mintSeed mint) tokenProgramId)
  return [e.createAccountWithSeed payer ataLike payer (mintSeed mint) rent 165 tokenProgramId,
    initializeAccount3 tokenProgramId ataLike mint owner]

/-- The instructions that create a token account unless it exists. -/
def createAssociatedTokenAccountIdempotentFastUseSeed (e : Env) (payer owner mint tokenProgramId : Pubkey)
    (useSeed : Bool) : Result (List Instruction) :=
  if seedApplies mint tokenProgramId useSeed then
    match createAssociatedTokenAccountUseSeed e payer owner mint tokenProgramId with
    | .error (.err err) => .error (.panic ("called `Result::unwrap()` on an `Err` value: " ++ err.debug))
    | r => r
  else .ok [{
    programId := associatedTokenProgramId
    accounts := [.new payer true,
      .new (getAssociatedTokenAddressWithProgramIdFast e.derivation owner mint tokenProgramId) false,
      .newReadonly owner false,
      .newReadonly mint false,
      .newReadonly systemProgram false,
      .newReadonly tokenProgramId false]
    data := [1] }]

/-- The instruction that closes a token account. -/
def closeAccount (tokenProgramId accountPubkey destinationPubkey ownerPubkey : Pubkey)
    (signerPubkeys : List Pubkey) : Instruction where
  programId := tokenProgramId
  accounts := [.new accountPubkey false, .new destinationPubkey false,
    .newReadonly ownerPubkey signerPubkeys.isEmpty] ++ signerPubkeys.map (AccountMeta.newReadonly · true)
  data := [9]

/-- The wallet's account of wrapped SOL. -/
def wsolAccount (e : Env) (payer : Pubkey) : Pubkey :=
  getAssociatedTokenAddressWithProgramIdFast e.derivation payer wsolTokenAccount tokenProgram

/-- The system program's transfer. -/
def systemTransfer (source target : Pubkey) (lamports : UInt64) : Instruction where
  programId := systemProgram
  accounts := [.new source true, .new target false]
  data := leBytes 4 2 ++ leBytes 8 lamports.toNat

/-- Create the account of wrapped SOL. -/
def createWsolAta (e : Env) (payer : Pubkey) : Result (List Instruction) :=
  createAssociatedTokenAccountIdempotentFastUseSeed e payer payer wsolTokenAccount tokenProgram false

/-- Wrap an amount of SOL. -/
def handleWsol (e : Env) (payer : Pubkey) (amountIn : UInt64) : Result (List Instruction) := do
  let create ← createWsolAta e payer
  return create ++ [systemTransfer payer (wsolAccount e payer) amountIn,
    { programId := tokenProgram, accounts := [.new (wsolAccount e payer) false], data := [17] }]

/-- Unwrap what is left. -/
def closeWsol (e : Env) (payer : Pubkey) : List Instruction :=
  [closeAccount tokenProgram (wsolAccount e payer) payer payer []]

/-! ### The trade -/

/-- The first bytes of a buy. -/
def buyDiscriminator : List UInt8 := [102, 6, 61, 18, 1, 218, 235, 234]

/-- The first bytes of a buy that spends exactly its quote amount. -/
def buyExactQuoteInDiscriminator : List UInt8 := [198, 46, 21, 82, 180, 217, 232, 112]

/-- The first bytes of a sell. -/
def sellDiscriminator : List UInt8 := [51, 230, 133, 164, 1, 127, 131, 173]

/-- One of the two mints is wrapped SOL or USDC, and they are not one of each. -/
def poolContainsWsolOrUsdc (baseMint quoteMint : Pubkey) : Bool :=
  let isWsol := (baseMint = wsolTokenAccount ∧ quoteMint ≠ usdcTokenAccount) ∨
    (quoteMint = wsolTokenAccount ∧ baseMint ≠ usdcTokenAccount)
  let isUsdc := (baseMint = usdcTokenAccount ∧ quoteMint ≠ wsolTokenAccount) ∨
    (quoteMint = usdcTokenAccount ∧ baseMint ≠ wsolTokenAccount)
  isWsol ∨ isUsdc

/-- Whether the pool is quoted in wrapped SOL or USDC. -/
def quoteIsWsolOrUsdc (quoteMint : Pubkey) : Bool :=
  quoteMint = wsolTokenAccount ∨ quoteMint = usdcTokenAccount

/-- The creator a quote is computed for: none for a pool with the default vault authority. -/
def creatorOf (p : PumpSwapParams) : Pubkey :=
  if p.coinCreatorVaultAuthority ≠ defaultCoinCreatorVaultAuthority then p.coinCreatorVaultAuthority
  else Pubkey.default

/-- The recipient of the fee and its token account: a Mayhem recipient, paid in wrapped SOL, in
mayhem mode. -/
def feeRecipientOf (e : Env) (p : PumpSwapParams) : Pubkey × Pubkey :=
  let recipient := if p.isMayhemMode then mayhemFeeRecipients.getD e.mayhemChoice mayhemFeeRecipient
    else feeRecipient
  (recipient, feeRecipientAta e.derivation recipient (if p.isMayhemMode then wsolTokenAccount else p.quoteMint))

/-- The accounts every trade begins with. -/
def tradeAccounts (e : Env) (payer : Pubkey) (p : PumpSwapParams)
    (userBaseTokenAccount userQuoteTokenAccount : Pubkey) : List AccountMeta :=
  [.new p.pool false,
   .new payer true,
   .newReadonly globalAccount false,
   .newReadonly p.baseMint false,
   .newReadonly p.quoteMint false,
   .new userBaseTokenAccount false,
   .new userQuoteTokenAccount false,
   .new p.poolBaseTokenAccount false,
   .new p.poolQuoteTokenAccount false,
   .newReadonly (feeRecipientOf e p).1 false,
   .new (feeRecipientOf e p).2 false,
   .newReadonly p.baseTokenProgram false,
   .newReadonly p.quoteTokenProgram false,
   .newReadonly systemProgram false,
   .newReadonly associatedTokenProgramId false,
   .newReadonly eventAuthority false,
   .newReadonly ammProgram false,
   .new p.coinCreatorVaultAta false,
   .newReadonly p.coinCreatorVaultAuthority false]

/-- The volume accumulators, where the trade is a buy for the program. -/
def volumeAccounts (e : Env) (payer : Pubkey) (isProgramBuy : Bool) : Result (List AccountMeta) :=
  if isProgramBuy then do
    let uva ← okOr "user_volume_accumulator PDA derivation failed"
      (getUserVolumeAccumulatorPda e.derivation payer)
    return [.new globalVolumeAccumulator false, .new uva false]
  else .ok []

/-- The v2 pool, which ends every list of accounts. -/
def poolV2Account (e : Env) (baseMint : Pubkey) : Result (List AccountMeta) := do
  let poolV2 ← okOr ("pool_v2 PDA derivation failed for base_mint " ++ baseMint.toText)
    (getPoolV2Pda e.derivation baseMint)
  return [.newReadonly poolV2 false]

/-- The instruction that trades: the accounts above, those particular to the trade, and its data. -/
def tradeInstruction (e : Env) (payer : Pubkey) (p : PumpSwapParams)
    (userBaseTokenAccount userQuoteTokenAccount : Pubkey) (particular : List AccountMeta) (data : List UInt8) :
    Instruction where
  programId := ammProgram
  accounts := tradeAccounts e payer p userBaseTokenAccount userQuoteTokenAccount ++ particular
  data := data

/-- The two amounts of a buy, in the words of the source: the output expected and what may be
spent. Against the orientation it is a sell of the base. -/
def buyAmounts (e : Env) (params : SwapParams) : Result (UInt64 × UInt64) := do
  let p := params.protocolParams
  let slippage := params.slippageBasisPoints.getD defaultSlippage
  let amount := params.inputAmount.getD 0
  let (tokenAmount, solAmount) ←
    if quoteIsWsolOrUsdc p.quoteMint then
      (unwrap (buyQuoteInputInternal e.profile amount slippage p.poolBaseTokenReserves
        p.poolQuoteTokenReserves (creatorOf p))).map fun result => (result.base, result.maxQuote)
    else
      (unwrap (sellBaseInputInternal e.profile amount slippage p.poolBaseTokenReserves
        p.poolQuoteTokenReserves (creatorOf p))).map fun result => (result.minQuote, amount)
  return (params.fixedOutputAmount.getD tokenAmount, solAmount)

/-- The data of a buy. -/
def buyData (e : Env) (params : SwapParams) (tokenAmount solAmount : UInt64) : Result (List UInt8) :=
  let p := params.protocolParams
  let trackVolume : List UInt8 := if p.isCashbackCoin then [1, 1] else [1, 0]
  if quoteIsWsolOrUsdc p.quoteMint then
    if params.useExactSolAmount.getD true then do
      let minBaseAmountOut ← calculateWithSlippageSell e.profile tokenAmount
        (params.slippageBasisPoints.getD defaultSlippage)
      return buyExactQuoteInDiscriminator ++ leBytes 8 (params.inputAmount.getD 0).toNat
        ++ leBytes 8 minBaseAmountOut.toNat ++ trackVolume
    else
      .ok (buyDiscriminator ++ leBytes 8 tokenAmount.toNat ++ leBytes 8 solAmount.toNat ++ trackVolume)
  else
    .ok (sellDiscriminator ++ leBytes 8 solAmount.toNat ++ leBytes 8 tokenAmount.toNat)

/-- Wrap what a buy spends: exactly its input, or up to the maximum. -/
def buyWrap (e : Env) (params : SwapParams) (solAmount : UInt64) : Result (List Instruction) :=
  if params.createInputMintAta then
    handleWsol e params.payer
      (if quoteIsWsolOrUsdc params.protocolParams.quoteMint && params.useExactSolAmount.getD true
        then params.inputAmount.getD 0 else solAmount)
  else .ok []

/-- Create the account of the token bought. -/
def buyCreate (e : Env) (params : SwapParams) : Result (List Instruction) :=
  let p := params.protocolParams
  let quoted := quoteIsWsolOrUsdc p.quoteMint
  if params.createOutputMintAta then
    createAssociatedTokenAccountIdempotentFastUseSeed e params.payer params.payer
      (if quoted then p.baseMint else p.quoteMint)
      (if quoted then p.baseTokenProgram else p.quoteTokenProgram) params.openSeedOptimize
  else .ok []

/-- The extra account of a buy of a coin with cashback. -/
def buyCashback (e : Env) (params : SwapParams) : List AccountMeta :=
  if params.protocolParams.isCashbackCoin then
    match getUserVolumeAccumulatorWsolAta e.derivation params.payer with
    | some wsolAta => [.new wsolAta false]
    | none => []
  else []

/-- The instructions of a buy. -/
def buildBuyInstructions (e : Env) (params : SwapParams) : Result (List Instruction) := do
  let p := params.protocolParams
  bailIf (params.inputAmount.getD 0 = 0) "Amount cannot be zero"
  bailIf (¬ poolContainsWsolOrUsdc p.baseMint p.quoteMint) "Pool must contain WSOL or USDC"
  let amounts ← buyAmounts e params
  let userBaseTokenAccount ← getAssociatedTokenAddressWithProgramIdFastUseSeed e.derivation params.payer
    p.baseMint p.baseTokenProgram params.openSeedOptimize
  let userQuoteTokenAccount ← getAssociatedTokenAddressWithProgramIdFastUseSeed e.derivation params.payer
    p.quoteMint p.quoteTokenProgram params.openSeedOptimize
  let wrap ← buyWrap e params amounts.2
  let create ← buyCreate e params
  let volume ← volumeAccounts e params.payer (quoteIsWsolOrUsdc p.quoteMint)
  let poolV2 ← poolV2Account e p.baseMint
  let data ← buyData e params amounts.1 amounts.2
  return wrap ++ create ++ [tradeInstruction e params.payer p userBaseTokenAccount userQuoteTokenAccount
      (volume ++ [.newReadonly feeConfig false, .newReadonly feeProgram false] ++ buyCashback e params ++ poolV2)
      data]
    ++ (if params.closeInputMintAta then closeWsol e params.payer else [])

/-- The two amounts of a sell: what is sold and the least to receive. Against the orientation it is
a buy of the base. -/
def sellAmounts (e : Env) (params : SwapParams) (inputAmount : UInt64) : Result (UInt64 × UInt64) := do
  let p := params.protocolParams
  let slippage := params.slippageBasisPoints.getD defaultSlippage
  let (tokenAmount, solAmount) ←
    if quoteIsWsolOrUsdc p.quoteMint then
      (unwrap (sellBaseInputInternal e.profile inputAmount slippage p.poolBaseTokenReserves
        p.poolQuoteTokenReserves (creatorOf p))).map fun result => (inputAmount, result.minQuote)
    else
      (unwrap (buyQuoteInputInternal e.profile inputAmount slippage p.poolBaseTokenReserves
        p.poolQuoteTokenReserves (creatorOf p))).map fun result => (result.maxQuote, result.base)
  return (tokenAmount, params.fixedOutputAmount.getD solAmount)

/-- The data of a sell. -/
def sellData (quoted : Bool) (tokenAmount solAmount : UInt64) : List UInt8 :=
  if quoted then sellDiscriminator ++ leBytes 8 tokenAmount.toNat ++ leBytes 8 solAmount.toNat
  else buyDiscriminator ++ leBytes 8 solAmount.toNat ++ leBytes 8 tokenAmount.toNat

/-- The extra accounts of a sell of a coin with cashback. -/
def sellCashback (e : Env) (params : SwapParams) : List AccountMeta :=
  let p := params.protocolParams
  if p.isCashbackCoin then
    match getUserVolumeAccumulatorQuoteAta e.derivation params.payer p.quoteMint p.quoteTokenProgram,
      getUserVolumeAccumulatorPda e.derivation params.payer with
    | some quoteAta, some accumulator => [.new quoteAta false, .new accumulator false]
    | _, _ => []
  else []

/-- Create the account a sell pays into. -/
def sellCreate (e : Env) (params : SwapParams) : Result (List Instruction) :=
  if params.createOutputMintAta then createWsolAta e params.payer else .ok []

/-- Close the account of the token sold. -/
def sellClose (params : SwapParams) (userBaseTokenAccount userQuoteTokenAccount : Pubkey) : List Instruction :=
  let p := params.protocolParams
  let quoted := quoteIsWsolOrUsdc p.quoteMint
  if params.closeInputMintAta then
    [closeAccount (if quoted then p.baseTokenProgram else p.quoteTokenProgram)
      (if quoted then userBaseTokenAccount else userQuoteTokenAccount) params.payer params.payer [params.payer]]
  else []

/-- The instructions of a sell. -/
def buildSellInstructions (e : Env) (params : SwapParams) : Result (List Instruction) := do
  let p := params.protocolParams
  bailIf (¬ poolContainsWsolOrUsdc p.baseMint p.quoteMint) "Pool must contain WSOL or USDC"
  let inputAmount ← okOr "Token amount is not set" params.inputAmount
  let amounts ← sellAmounts e params inputAmount
  let userBaseTokenAccount ← getAssociatedTokenAddressWithProgramIdFastUseSeed e.derivation params.payer
    p.baseMint p.baseTokenProgram params.openSeedOptimize
  let userQuoteTokenAccount ← getAssociatedTokenAddressWithProgramIdFastUseSeed e.derivation params.payer
    p.quoteMint p.quoteTokenProgram params.openSeedOptimize
  let create ← sellCreate e params
  let volume ← volumeAccounts e params.payer (!quoteIsWsolOrUsdc p.quoteMint)
  let poolV2 ← poolV2Account e p.baseMint
  return create ++ [tradeInstruction e params.payer p userBaseTokenAccount userQuoteTokenAccount
      (volume ++ [.newReadonly feeConfig false, .newReadonly feeProgram false] ++ sellCashback e params ++ poolV2)
      (sellData (quoteIsWsolOrUsdc p.quoteMint) amounts.1 amounts.2)]
    ++ (if params.closeOutputMintAta then closeWsol e params.payer else [])
    ++ sellClose params userBaseTokenAccount userQuoteTokenAccount

/-! ### The instruction that trades -/

section Trade

variable {e : Env} {params : SwapParams}

/-- An instruction that trades on the pool of the parameters with the wallet's two associated token
accounts. -/
structure IsTrade (e : Env) (params : SwapParams) (data : List UInt8) (ix : Instruction) : Prop where
  /-- It is for the PumpSwap program. -/
  programId_eq : ix.programId = ammProgram
  /-- Its data. -/
  data_eq : ix.data = data
  /-- The accounts it begins with. -/
  accounts_eq : tradeAccounts e params.payer params.protocolParams
    (getAssociatedTokenAddressWithProgramId e.derivation params.payer params.protocolParams.baseMint
      params.protocolParams.baseTokenProgram)
    (getAssociatedTokenAddressWithProgramId e.derivation params.payer params.protocolParams.quoteMint
      params.protocolParams.quoteTokenProgram) <+: ix.accounts

/-- The user's base-token account stands sixth. -/
theorem IsTrade.userBase {data : List UInt8} {ix : Instruction} (h : IsTrade e params data ix) :
    ix.accounts[5]? = some (.new (getAssociatedTokenAddressWithProgramId e.derivation params.payer
      params.protocolParams.baseMint params.protocolParams.baseTokenProgram) false) := by
  obtain ⟨rest, hrest⟩ := h.accounts_eq
  rw [← hrest]
  rfl

theorem isTrade_tradeInstruction (e : Env) (params : SwapParams) (particular : List AccountMeta) (data : List UInt8) :
    IsTrade e params data (tradeInstruction e params.payer params.protocolParams
      (getAssociatedTokenAddressWithProgramId e.derivation params.payer params.protocolParams.baseMint
        params.protocolParams.baseTokenProgram)
      (getAssociatedTokenAddressWithProgramId e.derivation params.payer params.protocolParams.quoteMint
        params.protocolParams.quoteTokenProgram) particular data) :=
  ⟨rfl, rfl, List.prefix_append _ _⟩

/-- Without a seed the instructions that create an account are there. -/
theorem createAssociatedTokenAccount_ok (e : Env) (payer owner mint program : Pubkey) :
    ∃ ixs, createAssociatedTokenAccountIdempotentFastUseSeed e payer owner mint program false = .ok ixs := by
  have h : ¬ seedApplies mint program false := by simp [seedApplies]
  simp only [createAssociatedTokenAccountIdempotentFastUseSeed]
  rw [if_neg h]
  exact ⟨_, rfl⟩

theorem createWsolAta_ok (e : Env) (payer : Pubkey) : ∃ ixs, createWsolAta e payer = .ok ixs :=
  createAssociatedTokenAccount_ok e payer payer wsolTokenAccount tokenProgram

/-- **A built buy trades** with the wallet's associated token accounts, once seed optimisation is
off. -/
theorem buildBuyInstructions_trade {ixs : List Instruction} (hs : params.openSeedOptimize = false)
    (h : buildBuyInstructions e params = .ok ixs) :
    ∃ amounts data ix, buyAmounts e params = .ok amounts ∧ buyData e params amounts.1 amounts.2 = .ok data ∧
      ix ∈ ixs ∧ IsTrade e params data ix := by
  simp only [buildBuyInstructions] at h
  simp only [hs, getAssociatedTokenAddressWithProgramIdFastUseSeed_false, ok_bind] at h
  obtain ⟨_, -, h⟩ := bind_eq_ok.mp h
  obtain ⟨_, -, h⟩ := bind_eq_ok.mp h
  obtain ⟨amounts, hamounts, h⟩ := bind_eq_ok.mp h
  obtain ⟨wrap, -, h⟩ := bind_eq_ok.mp h
  obtain ⟨create, -, h⟩ := bind_eq_ok.mp h
  obtain ⟨volume, -, h⟩ := bind_eq_ok.mp h
  obtain ⟨poolV2, -, h⟩ := bind_eq_ok.mp h
  obtain ⟨data, hdata, h⟩ := bind_eq_ok.mp h
  cases h
  exact ⟨amounts, data, _, hamounts, hdata,
    List.mem_append_left _ (List.mem_append_right _ (List.mem_singleton.mpr rfl)),
    isTrade_tradeInstruction e params _ data⟩

/-- **A built sell trades** with the wallet's associated token accounts, once seed optimisation is
off. -/
theorem buildSellInstructions_trade {ixs : List Instruction} (hs : params.openSeedOptimize = false)
    (h : buildSellInstructions e params = .ok ixs) :
    ∃ inputAmount amounts ix, params.inputAmount = some inputAmount ∧
      sellAmounts e params inputAmount = .ok amounts ∧ ix ∈ ixs ∧
      IsTrade e params (sellData (quoteIsWsolOrUsdc params.protocolParams.quoteMint) amounts.1 amounts.2) ix := by
  simp only [buildSellInstructions] at h
  simp only [hs, getAssociatedTokenAddressWithProgramIdFastUseSeed_false, ok_bind] at h
  obtain ⟨_, -, h⟩ := bind_eq_ok.mp h
  obtain ⟨inputAmount, hin, h⟩ := bind_eq_ok.mp h
  obtain ⟨amounts, hamounts, h⟩ := bind_eq_ok.mp h
  obtain ⟨create, -, h⟩ := bind_eq_ok.mp h
  obtain ⟨volume, -, h⟩ := bind_eq_ok.mp h
  obtain ⟨poolV2, -, h⟩ := bind_eq_ok.mp h
  cases h
  exact ⟨inputAmount, amounts, _, okOr_eq_ok.mp hin, hamounts,
    List.mem_append_left _ (List.mem_append_left _ (List.mem_append_right _ (List.mem_singleton.mpr rfl))),
    isTrade_tradeInstruction e params _ _⟩

/-- **A buy is built** as soon as its amounts and its data are, once seed optimisation is off: nothing
else in it can fail. -/
theorem buildBuyInstructions_eq (hs : params.openSeedOptimize = false) (hin : ¬ params.inputAmount.getD 0 = 0)
    (hpool : poolContainsWsolOrUsdc params.protocolParams.baseMint params.protocolParams.quoteMint = true) :
    ∃ ixs : UInt64 × UInt64 → List UInt8 → List Instruction,
      buildBuyInstructions e params = (do
        let amounts ← buyAmounts e params
        let data ← buyData e params amounts.1 amounts.2
        return ixs amounts data) ∧
      ∀ amounts data, ∃ ix ∈ ixs amounts data, IsTrade e params data ix := by
  obtain ⟨wrap, hwrap⟩ : ∃ wrap : UInt64 → List Instruction, ∀ solAmount,
      buyWrap e params solAmount = .ok (wrap solAmount) := by
    obtain ⟨create, hcreate⟩ := createWsolAta_ok e params.payer
    simp only [buyWrap, handleWsol]
    rw [hcreate]
    by_cases h : params.createInputMintAta
    · simp only [h, if_true]
      exact ⟨_, fun _ => rfl⟩
    · simp only [h]
      exact ⟨fun _ => [], fun _ => rfl⟩
  obtain ⟨create, hcreate⟩ : ∃ ixs, buyCreate e params = .ok ixs := by
    unfold buyCreate
    dsimp only
    rw [hs]
    by_cases h : params.createOutputMintAta
    · rw [if_pos h]
      exact createAssociatedTokenAccount_ok _ _ _ _ _
    · rw [if_neg h]
      exact ⟨_, rfl⟩
  obtain ⟨volume, hvolume⟩ : ∃ accounts,
      volumeAccounts e params.payer (quoteIsWsolOrUsdc params.protocolParams.quoteMint) = .ok accounts := by
    simp only [volumeAccounts]
    split_ifs <;> exact ⟨_, rfl⟩
  obtain ⟨poolV2, hpoolV2⟩ : ∃ accounts, poolV2Account e params.protocolParams.baseMint = .ok accounts := ⟨_, rfl⟩
  simp only [buildBuyInstructions]
  simp only [bailIf_neg _ hin, bailIf_neg _ (not_not.mpr hpool), hs,
    getAssociatedTokenAddressWithProgramIdFastUseSeed_false, hwrap, hcreate, hvolume, hpoolV2, ok_bind]
  refine ⟨_, rfl, fun amounts data => ?_⟩
  exact ⟨_, List.mem_append_left _ (List.mem_append_right _ (List.mem_singleton.mpr rfl)),
    isTrade_tradeInstruction e params _ data⟩

/-- The amounts of a sell into a pool quoted in wrapped SOL or USDC. -/
theorem sellAmounts_of_quoted {inputAmount : UInt64} {r : SellBaseInputResult}
    (hquoted : quoteIsWsolOrUsdc params.protocolParams.quoteMint = true) (hfixed : params.fixedOutputAmount = none)
    (hr : sellBaseInputInternal e.profile inputAmount (params.slippageBasisPoints.getD defaultSlippage)
      params.protocolParams.poolBaseTokenReserves params.protocolParams.poolQuoteTokenReserves
      (creatorOf params.protocolParams) = .ok r) :
    sellAmounts e params inputAmount = .ok (inputAmount, r.minQuote) := by
  unfold sellAmounts
  dsimp only
  rw [if_pos hquoted, hr, hfixed]
  rfl

/-- **A sell is built** as soon as its amounts are, once seed optimisation is off: its data holds
them, and it trades with the wallet's associated token accounts. -/
theorem buildSellInstructions_of_amounts {inputAmount tokenAmount solAmount : UInt64}
    (hs : params.openSeedOptimize = false)
    (hpool : poolContainsWsolOrUsdc params.protocolParams.baseMint params.protocolParams.quoteMint = true)
    (hin : params.inputAmount = some inputAmount)
    (hamounts : sellAmounts e params inputAmount = .ok (tokenAmount, solAmount)) :
    ∃ ixs ix, buildSellInstructions e params = .ok ixs ∧ ix ∈ ixs ∧
      IsTrade e params
        (sellData (quoteIsWsolOrUsdc params.protocolParams.quoteMint) tokenAmount solAmount) ix := by
  obtain ⟨create, hcreate⟩ : ∃ ixs, sellCreate e params = .ok ixs := by
    simp only [sellCreate]
    split_ifs
    · exact createWsolAta_ok e params.payer
    · exact ⟨_, rfl⟩
  obtain ⟨volume, hvolume⟩ : ∃ accounts,
      volumeAccounts e params.payer (!quoteIsWsolOrUsdc params.protocolParams.quoteMint) = .ok accounts := by
    simp only [volumeAccounts]
    split_ifs <;> exact ⟨_, rfl⟩
  simp only [buildSellInstructions]
  simp only [bailIf_neg _ (not_not.mpr hpool), hin, okOr_some, hamounts, hs,
    getAssociatedTokenAddressWithProgramIdFastUseSeed_false, hcreate, hvolume, ok_bind, poolV2Account, getPoolV2Pda]
  exact ⟨_, _, rfl,
    List.mem_append_left _ (List.mem_append_left _ (List.mem_append_right _ (List.mem_singleton.mpr rfl))),
    isTrade_tradeInstruction e params _ _⟩

end Trade

end PumpSwapBot.Sdk
