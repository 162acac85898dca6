import PumpSwapBot.Sdk.Basic

/-!
# The accounts of PumpSwap

The addresses the SDK knows by heart (`constants/accounts.rs`, `instruction/utils/pumpswap.rs`)
and those it derives: program addresses and associated token accounts.

## The model

Deriving an address is the Solana SDK's business (SHA-256 and a curve test), so the two functions
are a parameter `Derivation` of everything that derives one. The SDK's caches
(`get_cached_pda`, the table of associated token addresses) hold what the functions they cache
return, and are left out.
-/

namespace PumpSwapBot.Sdk

open PumpSwapBot.Library

/-! ### Constants -/

/-- The system program. -/
def systemProgram : Pubkey := pubkey "11111111111111111111111111111111"

/-- The Token program. -/
def tokenProgram : Pubkey := pubkey "TokenkegQfeZyiNwAJbNbGKPFXCWuBvf9Ss623VQ5DA"

/-- The Token-2022 program. -/
def tokenProgram2022 : Pubkey := pubkey "TokenzQdBNbLqP5VEhdkAS6EPFLC1PHnBqCXEpPxuEb"

/-- The mint that stands for native SOL. -/
def solTokenAccount : Pubkey := pubkey "So11111111111111111111111111111111111111111"

/-- The mint of wrapped SOL. -/
def wsolTokenAccount : Pubkey := pubkey "So11111111111111111111111111111111111111112"

/-- The mint of USDC. -/
def usdcTokenAccount : Pubkey := pubkey "EPjFWdd5AufqSSqeM2qN1xzybapC8G4wEGGkZwyTDt1v"

/-- The program of the associated token accounts. -/
def associatedTokenProgramId : Pubkey := pubkey "ATokenGPvbdGVxr1b2hvZbsiqW5xWH25efTNsLJA8knL"

/-- The PumpSwap program. -/
def ammProgram : Pubkey := pubkey "pAMMBay6oceH9fJKBRHGP5D4bD4sWpmSwMn52FMfXEA"

/-- The bonding-curve program, whose `pool-authority` creates the canonical pools. -/
def pumpProgramId : Pubkey := pubkey "6EF8rrecthR5Dkzon8Nwu78hRvfCKubJ14M5uBEwF6P"

/-- The recipient of the protocol's fee. -/
def feeRecipient : Pubkey := pubkey "62qc2CNXwrYqQScmEdiZFFAnJR262PxWEuNQtxfafNgV"

/-- The global account. -/
def globalAccount : Pubkey := pubkey "ADyA8hdefvWN2dbGGWFotbzWxrAvLW83WG6QCVXvJKqw"

/-- The authority for program events. -/
def eventAuthority : Pubkey := pubkey "GS4CU59F31iL7aR2Q8zVS8DRrcRnXX1yjQ66TqNVQnaR"

/-- The fee program. -/
def feeProgram : Pubkey := pubkey "pfeeUxB6jkeY1Hxd7CsFCAjcbHA9rWtchMGdZ6VojVZ"

/-- The global volume accumulator. -/
def globalVolumeAccumulator : Pubkey := pubkey "C2aFPdENg4A2HQsmrd5rTw5TaYBX5Ku887cWjbFKtZpw"

/-- The fee configuration. -/
def feeConfig : Pubkey := pubkey "5PHirr8joyTMp9JMm6nW7hNDVyEYdkzDqazxPD7RaTjx"

/-- The creator vault authority of a pool without a creator. -/
def defaultCoinCreatorVaultAuthority : Pubkey := pubkey "8N3GDaZ2iwN65oxVatKTLPNooAVUJTbfiVJ1ahyqwjSk"

/-- The default Mayhem fee recipient, the first of `mayhemFeeRecipients`. -/
def mayhemFeeRecipient : Pubkey := pubkey "GesfTA3X2arioaHp8bbKdjG9vJtskViWACZoYvxp4twS"

/-- The Mayhem fee recipients, any one of which may be used. -/
def mayhemFeeRecipients : List Pubkey :=
  [mayhemFeeRecipient,
   pubkey "4budycTjhs9fD6xw62VBducVTNgMgJJ5BgtKq7mAZwn6",
   pubkey "8SBKzEQU4nLSzcwF4a74F2iaUDQyTfjGndn6qUWBnrpR",
   pubkey "4UQeTP1T39KZ9Sfxzo3WR5skgsaP6NZa87BAkuazLEKH",
   pubkey "8sNeir4QsLsJdYpc9RZacohhK1Y5FLU3nC5LXgYB4aa6",
   pubkey "Fh9HmeLNUMVCvejxCtCL2DbYaRyBFVJ5xrWkLnMH6fdk",
   pubkey "463MEnMeGyJekNZFQSTUABBEbLnvMTALbT6ZmsxAbAdq",
   pubkey "6AUH3WEHucYZyC61hqpqYUWVto5qA5hjHuNQ32GNnNxA"]

/-- The bytes of an ASCII text, `b"…"`. -/
def ascii (s : String) : List UInt8 := s.toList.map fun c => UInt8.ofNat c.toNat

/-! ### Derived addresses -/

/-- The Solana SDK's address derivation. -/
structure Derivation where
  /-- The address a program derives from seeds, `Pubkey::find_program_address`. -/
  findProgramAddress : List (List UInt8) → Pubkey → Pubkey
  /-- The address derived from a base, a seed and an owner, `Pubkey::create_with_seed`. -/
  createWithSeed : Pubkey → String → Pubkey → Except Error Pubkey

variable (d : Derivation)

/-- The associated token account of a wallet for a mint under a token program. -/
def getAssociatedTokenAddressWithProgramId (walletAddress tokenMintAddress tokenProgramId : Pubkey) : Pubkey :=
  d.findProgramAddress [walletAddress.bytes, tokenProgramId.bytes, tokenMintAddress.bytes]
    associatedTokenProgramId

/-- Two token programs never give a wallet the same account for a mint. -/
def Derivation.InjectiveInProgram : Prop :=
  ∀ walletAddress tokenMintAddress,
    Function.Injective (getAssociatedTokenAddressWithProgramId d walletAddress tokenMintAddress)

/-- The associated token account under the default token program. -/
def getAssociatedTokenAddress (walletAddress tokenMintAddress : Pubkey) : Pubkey :=
  getAssociatedTokenAddressWithProgramId d walletAddress tokenMintAddress tokenProgram

/-- The 64-bit FNV-1a hash of a byte string. -/
def fnv (bs : List UInt8) : UInt64 :=
  bs.foldl (fun h b => (h ^^^ b.toUInt64) * 0x100000001b3) 0xcbf29ce484222325

/-- The seed of a mint: the low 32 bits of its hash in eight lower-case hexadecimal digits. -/
def mintSeed (mint : Pubkey) : String :=
  let v := (fnv mint.bytes).toNat % 2 ^ 32
  String.ofList ((List.range 8).map fun i =>
    let nibble := v / 2 ^ (28 - i * 4) % 16
    if nibble ≤ 9 then Char.ofNat (48 + nibble) else Char.ofNat (97 + (nibble - 10)))

/-- The token account derived from a seed. -/
def getAssociatedTokenAddressWithProgramIdUseSeed (walletAddress tokenMintAddress tokenProgramId : Pubkey) :
    Result Pubkey :=
  orFail (d.createWithSeed walletAddress (mintSeed tokenMintAddress) tokenProgramId)

/-- Whether the account of a mint is derived from a seed: only if asked for, never for SOL or
wrapped SOL, and only under a known token program. -/
def seedApplies (mint tokenProgramId : Pubkey) (useSeed : Bool) : Prop :=
  useSeed = true ∧ mint ≠ wsolTokenAccount ∧ mint ≠ solTokenAccount ∧
    (tokenProgramId = tokenProgram ∨ tokenProgramId = tokenProgram2022)

instance (mint tokenProgramId : Pubkey) (useSeed : Bool) : Decidable (seedApplies mint tokenProgramId useSeed) :=
  inferInstanceAs (Decidable (_ ∧ _))

/-- The token account of a wallet, from a seed where that applies. -/
def getAssociatedTokenAddressWithProgramIdFastUseSeed (walletAddress tokenMintAddress tokenProgramId : Pubkey)
    (useSeed : Bool) : Result Pubkey :=
  if seedApplies tokenMintAddress tokenProgramId useSeed then
    match getAssociatedTokenAddressWithProgramIdUseSeed d walletAddress tokenMintAddress tokenProgramId with
    | .error (.err e) =>
      .error (.panic ("called `Result::unwrap()` on an `Err` value: " ++ e.debug))
    | r => r
  else .ok (getAssociatedTokenAddressWithProgramId d walletAddress tokenMintAddress tokenProgramId)

/-- The token account of a wallet, never from a seed. -/
def getAssociatedTokenAddressWithProgramIdFast (walletAddress tokenMintAddress tokenProgramId : Pubkey) :
    Pubkey :=
  getAssociatedTokenAddressWithProgramId d walletAddress tokenMintAddress tokenProgramId

@[simp] theorem getAssociatedTokenAddressWithProgramIdFastUseSeed_false (w m t : Pubkey) :
    getAssociatedTokenAddressWithProgramIdFastUseSeed d w m t false =
      .ok (getAssociatedTokenAddressWithProgramId d w m t) := by
  simp [getAssociatedTokenAddressWithProgramIdFastUseSeed, seedApplies]

/-- The address of a mint's v2 pool. -/
def getPoolV2Pda (baseMint : Pubkey) : Option Pubkey :=
  some (d.findProgramAddress [ascii "pool-v2", baseMint.bytes] ammProgram)

/-- The creator of a mint's canonical pool. -/
def getPumpPoolAuthorityPda (mint : Pubkey) : Pubkey :=
  d.findProgramAddress [ascii "pool-authority", mint.bytes] pumpProgramId

/-- The address of a mint's canonical pool, of index 0 and quoted in wrapped SOL. -/
def getCanonicalPoolPda (mint : Pubkey) : Pubkey :=
  d.findProgramAddress
    [ascii "pool", leBytes 2 0, (getPumpPoolAuthorityPda d mint).bytes, mint.bytes, wsolTokenAccount.bytes]
    ammProgram

/-- The authority of a creator's vault. -/
def coinCreatorVaultAuthority (coinCreator : Pubkey) : Pubkey :=
  d.findProgramAddress [ascii "creator_vault", coinCreator.bytes] ammProgram

/-- The token account of a creator's vault. -/
def coinCreatorVaultAta (coinCreator quoteMint : Pubkey) : Pubkey :=
  getAssociatedTokenAddressWithProgramId d (coinCreatorVaultAuthority d coinCreator) quoteMint tokenProgram

/-- The token account of a fee recipient. -/
def feeRecipientAta (feeRecipient quoteMint : Pubkey) : Pubkey :=
  getAssociatedTokenAddressWithProgramIdFast d feeRecipient quoteMint tokenProgram

/-- A user's volume accumulator. -/
def getUserVolumeAccumulatorPda (user : Pubkey) : Option Pubkey :=
  some (d.findProgramAddress [ascii "user_volume_accumulator", user.bytes] ammProgram)

/-- The wrapped-SOL account of a user's volume accumulator. -/
def getUserVolumeAccumulatorWsolAta (user : Pubkey) : Option Pubkey := do
  let accumulator ← getUserVolumeAccumulatorPda d user
  return getAssociatedTokenAddressWithProgramIdFast d accumulator wsolTokenAccount tokenProgram

/-- The quote-token account of a user's volume accumulator. -/
def getUserVolumeAccumulatorQuoteAta (user quoteMint quoteTokenProgram : Pubkey) : Option Pubkey := do
  let accumulator ← getUserVolumeAccumulatorPda d user
  return getAssociatedTokenAddressWithProgramIdFast d accumulator quoteMint quoteTokenProgram

end PumpSwapBot.Sdk
