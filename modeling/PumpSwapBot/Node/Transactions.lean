import PumpSwapBot.Node.Price
import PumpSwapBot.Sdk.Instruction
import Mathlib.Tactic.NormNum

/-!
# Transactions read by the Node bot

How the Node bot reads a swap out of a transaction (`grpcSubscriber.ts`): the arguments of an instruction, the mint
among its accounts, the first swap of a transaction, and the update that is handed to the store.

## The model

* A `Buffer` is a list of bytes, a `bigint` read from it a natural number. `Buffer.from` copies an array of bytes, and
  gives the UTF-8 bytes of a text.
* The library hands a legacy message with `accountKeys` and `instructions`, whose data is a base-58 text, and a
  version-0 message with `staticAccountKeys` and `compiledInstructions`, whose data is an array of bytes. A property
  that is not there is `undefined`, here `none`; using it is a `TypeError`, here an error with its message. A legacy
  message has the properties of a version-0 one as well, through getters that decode the texts.
* The bot tells the versions apart by a property `versioned` of the transaction. A transaction of the library has only
  its message and its signatures; any other property is in `others`.
* Addresses loaded from lookup tables are in no list of the message, so an account index can be out of range.
-/

namespace PumpSwapBot.Node

open PumpSwapBot.Library
open PumpSwapBot.Sdk

/-! ### The arguments of a swap -/

/-- `PUMPSWAP_BUY_DISCRIMINATOR`. -/
def pumpswapBuyDiscriminator : List UInt8 := [102, 6, 61, 18, 1, 218, 235, 234]

/-- `PUMPSWAP_BUY_EXACT_QUOTE_IN_DISCRIMINATOR`. -/
def pumpswapBuyExactQuoteInDiscriminator : List UInt8 := [198, 46, 21, 82, 180, 217, 232, 112]

/-- `PUMPSWAP_SELL_DISCRIMINATOR`. -/
def pumpswapSellDiscriminator : List UInt8 := [51, 230, 133, 164, 1, 127, 131, 173]

/-- What is read from the data of an instruction. -/
structure ParsedInstruction where
  isBuy : Bool
  tokenAmount : ℕ
  solAmount : ℕ
  deriving DecidableEq

/-- The number in the eight bytes at an offset. -/
def readBigUInt64LE (data : List UInt8) (offset : ℕ) : ℕ := leNat ((data.drop offset).take 8)

/-- The arguments of a swap, none for any other instruction. -/
def parseInstructionData (data : List UInt8) : Option ParsedInstruction :=
  if data.length < 24 then none
  else
    let discriminator := data.take 8
    if discriminator = pumpswapBuyDiscriminator then
      some { isBuy := true, tokenAmount := readBigUInt64LE data 8, solAmount := readBigUInt64LE data 16 }
    else if discriminator = pumpswapBuyExactQuoteInDiscriminator then
      -- here the second number is the least amount of tokens the trader accepts
      some { isBuy := true, tokenAmount := readBigUInt64LE data 16, solAmount := readBigUInt64LE data 8 }
    else if discriminator = pumpswapSellDiscriminator then
      some { isBuy := false, tokenAmount := readBigUInt64LE data 8, solAmount := readBigUInt64LE data 16 }
    else none

/-- The three instructions that swap. -/
inductive SwapKind where
  | buy
  | buyExactQuoteIn
  | sell
  deriving DecidableEq

/-- The first eight bytes of a swap. -/
def SwapKind.discriminator : SwapKind → List UInt8
  | .buy => pumpswapBuyDiscriminator
  | .buyExactQuoteIn => pumpswapBuyExactQuoteInDiscriminator
  | .sell => pumpswapSellDiscriminator

/-- The data of a swap: its kind, the exact amount, the limit for the other amount, and what may follow. -/
def SwapKind.data (kind : SwapKind) (exact limit : UInt64) (rest : List UInt8) : List UInt8 :=
  kind.discriminator ++ leBytes 8 exact.toNat ++ leBytes 8 limit.toNat ++ rest

/-- What the bot takes the arguments of a swap for. -/
def SwapKind.parsed (kind : SwapKind) (exact limit : UInt64) : ParsedInstruction :=
  match kind with
  | .buy => { isBuy := true, tokenAmount := exact.toNat, solAmount := limit.toNat }
  | .buyExactQuoteIn => { isBuy := true, tokenAmount := limit.toNat, solAmount := exact.toNat }
  | .sell => { isBuy := false, tokenAmount := exact.toNat, solAmount := limit.toNat }

/-! ### The mint of a swap -/

/-- Whether an address passes for the mint: no well-known program, not spelled with a leading `p`, and its first byte is
not zero. -/
def MayBeMint (key : Pubkey) : Prop :=
  let base58 := key.toText
  base58 ≠ wsolMint ∧
    base58 ≠ "11111111111111111111111111111111" ∧
    base58 ≠ "TokenkegQfeZyiNwAJbNbGKPFXCWuBvf9Ss623VQ5DA" ∧
    base58 ≠ "ATokenGPvbdGVxr1b2hvZbsiqW5xWH25efTNsLJA8knL" ∧
    base58 ≠ ammProgram.toText ∧
    base58 ≠ "SysvarRent111111111111111111111111111111111" ∧
    ¬ "p".toList <+: base58.toList ∧
    key.bytes.head? ≠ some 0

instance (key : Pubkey) : Decidable (MayBeMint key) := inferInstanceAs (Decidable (_ ∧ _))

/-- The first address that passes for a mint. An address that is not there has no `toBase58`. -/
def extractMintFromAccountKeys : List (Option Pubkey) → Except String (Option String)
  | [] => .ok none
  | none :: _ => .error "Cannot read properties of undefined (reading 'toBase58')"
  | some key :: keys => if MayBeMint key then .ok (some key.toText) else extractMintFromAccountKeys keys

/-! ### The first swap of a transaction -/

/-- An instruction of a version-0 message. -/
structure CompiledInstruction where
  programIdIndex : ℕ
  accountKeyIndexes : List ℕ
  data : List UInt8
  deriving DecidableEq

/-- An instruction of a legacy message. -/
structure LegacyInstruction where
  programIdIndex : ℕ
  accounts : List ℕ
  /-- The base-58 text of the data. -/
  data : String
  deriving DecidableEq

/-- The message of a transaction as the library hands it over. -/
inductive Message where
  | legacy (accountKeys : List Pubkey) (instructions : List LegacyInstruction)
  | v0 (staticAccountKeys : List Pubkey) (compiledInstructions : List CompiledInstruction)

/-- The property `accountKeys`. -/
def Message.accountKeys : Message → Option (List Pubkey)
  | .legacy accountKeys _ => some accountKeys
  | .v0 _ _ => none

/-- The property `instructions`. -/
def Message.instructions : Message → Option (List LegacyInstruction)
  | .legacy _ instructions => some instructions
  | .v0 _ _ => none

/-- The property `staticAccountKeys`. -/
def Message.staticAccountKeys : Message → List Pubkey
  | .legacy accountKeys _ => accountKeys
  | .v0 staticAccountKeys _ => staticAccountKeys

/-- The instruction of a version-0 message for one of a legacy message, with its text decoded. -/
def LegacyInstruction.compiled (ix : LegacyInstruction) : Except String CompiledInstruction :=
  match Base58.decodeAll ix.data with
  | some data => .ok { programIdIndex := ix.programIdIndex, accountKeyIndexes := ix.accounts, data := data }
  | none => .error "Non-base58 character"

/-- The property `compiledInstructions`. -/
def Message.compiledInstructions : Message → Except String (List CompiledInstruction)
  | .legacy _ instructions => instructions.mapM LegacyInstruction.compiled
  | .v0 _ compiledInstructions => .ok compiledInstructions

/-- The property `transaction` of a response: the message and the signatures. -/
structure Transaction where
  message : Message
  signatures : List String
  /-- The names of further properties. -/
  others : List String := []

/-- The names of its properties, for `in`. -/
def Transaction.properties (tx : Transaction) : List String := "message" :: "signatures" :: tx.others

/-- What is read from a transaction. -/
structure ParsedTransaction where
  mint : String
  tokenAmount : ℕ
  solAmount : ℕ
  isBuy : Bool
  deriving DecidableEq

/-- The loop over the instructions, their data in buffers: the first swap with a mint. -/
def parseInstructions (accountKeys : List Pubkey) :
    List CompiledInstruction → Except String (Option ParsedTransaction)
  | [] => .ok none
  | ix :: ixs =>
    if accountKeys[ix.programIdIndex]? = some ammProgram then
      match parseInstructionData ix.data with
      | some parsed =>
        match extractMintFromAccountKeys (ix.accountKeyIndexes.map fun idx => accountKeys[idx]?) with
        | .ok (some mint) => .ok (some {
            mint := mint
            tokenAmount := parsed.tokenAmount
            solAmount := parsed.solAmount
            isBuy := parsed.isBuy })
        | .ok none => parseInstructions accountKeys ixs
        | .error e => .error e
      | none => parseInstructions accountKeys ixs
    else parseInstructions accountKeys ixs

/-- The UTF-8 bytes of a text, `Buffer.from(text)`. -/
def bufferFromText (text : String) : List UInt8 := text.toList.flatMap String.utf8EncodeChar

/-- An instruction of a legacy message with `Buffer.from(ix.data)`. -/
def LegacyInstruction.buffered (ix : LegacyInstruction) : CompiledInstruction where
  programIdIndex := ix.programIdIndex
  accountKeyIndexes := ix.accounts
  data := bufferFromText ix.data

/-- The first swap, read through the properties of a version-0 message. -/
def parseVersionedTransaction (tx : Transaction) : Except String (Option ParsedTransaction) := do
  let compiledInstructions ← tx.message.compiledInstructions
  parseInstructions tx.message.staticAccountKeys compiledInstructions

/-- The first swap, read through the properties of a legacy message. -/
def parseLegacyTransaction (tx : Transaction) : Except String (Option ParsedTransaction) :=
  match tx.message.instructions with
  | none => .error "Cannot read properties of undefined (reading 'length')"
  | some instructions =>
    -- a message with `instructions` has `accountKeys`
    parseInstructions (tx.message.accountKeys.getD []) (instructions.map LegacyInstruction.buffered)

/-- The first swap of a transaction: the version of the message is told by a property of the transaction. -/
def parseTransaction (tx : Transaction) : Except String (Option ParsedTransaction) :=
  if "versioned" ∈ tx.properties then parseVersionedTransaction tx else parseLegacyTransaction tx

/-- The time of an update: that of the block if it is known, and of the clock if not. -/
def blocktimeUs (blockTime : Option ℚ) (now : ℚ) : ℚ :=
  match blockTime with
  | some t => if t = 0 then now * 1000 else t * 1000000
  | none => now * 1000

/-- The update for a swap: its numbers are doubles, as `Number` makes them. -/
def ParsedTransaction.update (number : Rounding 53) (parsed : ParsedTransaction) (signature : String) (blocktime : ℚ) :
    TransactionUpdate where
  mint := parsed.mint
  tokenAmount := number.round parsed.tokenAmount
  solAmount := number.round parsed.solAmount
  isBuy := parsed.isBuy
  signature := signature
  blocktimeUs := blocktime

/-! ### What is taken for a swap -/

theorem SwapKind.length_discriminator (kind : SwapKind) : kind.discriminator.length = 8 := by cases kind <;> rfl

theorem leNat_leBytes_toNat (n : UInt64) : leNat (leBytes 8 n.toNat) = n.toNat := leNat_leBytes n.toNat_lt

/-- The arguments are read where the program has them. -/
theorem parseInstructionData_data (kind : SwapKind) (exact limit : UInt64) (rest : List UInt8) :
    parseInstructionData (kind.data exact limit rest) = some (kind.parsed exact limit) := by
  have hlen : ¬ (kind.data exact limit rest).length < 24 := by
    simp [SwapKind.data, kind.length_discriminator]
    omega
  have htake : (kind.data exact limit rest).take 8 = kind.discriminator := by
    simp [SwapKind.data, kind.length_discriminator]
  have hfirst : readBigUInt64LE (kind.data exact limit rest) 8 = exact.toNat := by
    rw [readBigUInt64LE, ← leNat_leBytes_toNat exact]
    simp [SwapKind.data, kind.length_discriminator]
  have hsecond : readBigUInt64LE (kind.data exact limit rest) 16 = limit.toNat := by
    have hdrop : kind.discriminator.drop 16 = [] := by simp [kind.length_discriminator]
    rw [readBigUInt64LE, ← leNat_leBytes_toNat limit]
    simp [SwapKind.data, List.drop_append, kind.length_discriminator, hdrop]
  rw [parseInstructionData, if_neg hlen]
  simp only [htake, hfirst, hsecond]
  cases kind <;> rfl

theorem leBytes_readBigUInt64LE {data : List UInt8} {offset : ℕ} (h : offset + 8 ≤ data.length) :
    leBytes 8 (UInt64.ofNat (readBigUInt64LE data offset)).toNat = (data.drop offset).take 8 := by
  have hl : ((data.drop offset).take 8).length = 8 := by
    simp
    omega
  have hlt := leNat_lt ((data.drop offset).take 8)
  rw [hl] at hlt
  rw [readBigUInt64LE, UInt64.toNat_ofNat_of_lt' hlt]
  nth_rewrite 1 [← hl]
  exact leBytes_leNat _

theorem eq_data_of_take {data : List UInt8} {kind : SwapKind} (hlen : 24 ≤ data.length)
    (h : data.take 8 = kind.discriminator) :
    data = kind.data (UInt64.ofNat (readBigUInt64LE data 8)) (UInt64.ofNat (readBigUInt64LE data 16))
      (data.drop 24) := by
  rw [SwapKind.data, leBytes_readBigUInt64LE (by omega), leBytes_readBigUInt64LE (by omega), ← h]
  calc data = data.take 8 ++ data.drop 8 := (List.take_append_drop 8 data).symm
    _ = data.take 8 ++ ((data.drop 8).take 8 ++ data.drop 16) := by
      rw [← List.take_append_drop 8 (data.drop 8), List.drop_drop, List.take_left' (by simp; omega)]
    _ = data.take 8 ++ ((data.drop 8).take 8 ++ ((data.drop 16).take 8 ++ data.drop 24)) := by
      rw [← List.take_append_drop 8 (data.drop 16), List.drop_drop, List.take_left' (by simp; omega)]
    _ = _ := by simp only [List.append_assoc]

theorem toNat_readBigUInt64LE (data : List UInt8) (offset : ℕ) :
    (UInt64.ofNat (readBigUInt64LE data offset)).toNat = readBigUInt64LE data offset := by
  apply UInt64.toNat_ofNat_of_lt'
  have hlt := leNat_lt ((data.drop offset).take 8)
  have hle : 256 ^ ((data.drop offset).take 8).length ≤ 256 ^ 8 :=
    Nat.pow_le_pow_right (by decide) (List.length_take_le 8 _)
  exact hlt.trans_le hle

/-- What is taken for a swap is one. -/
theorem parseInstructionData_eq_some {data : List UInt8} {p : ParsedInstruction} :
    parseInstructionData data = some p ↔
      ∃ kind : SwapKind, ∃ exact limit rest, data = kind.data exact limit rest ∧ p = kind.parsed exact limit := by
  constructor
  · intro h
    rw [parseInstructionData] at h
    dsimp only at h
    split_ifs at h with hlen hbuy hexact hsell
    all_goals
      obtain rfl := (Option.some.inj h).symm
      rw [not_lt] at hlen
    · refine ⟨.buy, _, _, _, eq_data_of_take hlen hbuy, ?_⟩
      simp only [SwapKind.parsed, toNat_readBigUInt64LE]
    · refine ⟨.buyExactQuoteIn, _, _, _, eq_data_of_take hlen hexact, ?_⟩
      simp only [SwapKind.parsed, toNat_readBigUInt64LE]
    · refine ⟨.sell, _, _, _, eq_data_of_take hlen hsell, ?_⟩
      simp only [SwapKind.parsed, toNat_readBigUInt64LE]
  · rintro ⟨kind, exact, limit, rest, rfl, rfl⟩
    exact parseInstructionData_data kind exact limit rest

/-! ### What the SDK writes -/

/-- What is taken for a swap has the length and the first bytes of one. -/
theorem parseInstructionData_isSome_iff (data : List UInt8) :
    (parseInstructionData data).isSome = true ↔ 24 ≤ data.length ∧ ∃ kind : SwapKind, kind.discriminator <+: data := by
  rw [Option.isSome_iff_exists]
  constructor
  · rintro ⟨p, hp⟩
    obtain ⟨kind, exact, limit, rest, rfl, -⟩ := parseInstructionData_eq_some.mp hp
    refine ⟨?_, kind, ?_⟩
    · simp [SwapKind.data, kind.length_discriminator]
      omega
    · simp only [SwapKind.data, List.append_assoc]
      exact List.prefix_append _ _
  · rintro ⟨hlen, kind, hkind⟩
    have htake : data.take 8 = kind.discriminator := by
      rw [List.prefix_iff_eq_take.mp hkind, kind.length_discriminator]
    rw [eq_data_of_take hlen htake]
    exact ⟨_, parseInstructionData_data kind _ _ _⟩

section Builder

variable (e : Env) {params : SwapParams} (tokenAmount solAmount : UInt64) (rest : List UInt8)

/-- Whether the builder tells the program to track the volume, which follows the arguments of a buy. -/
def trackVolumeOf (p : Sdk.PumpSwapParams) : List UInt8 := if p.isCashbackCoin then [1, 1] else [1, 0]

theorem quoteIsWsolOrUsdc_wsol {quoteMint : Pubkey} (h : quoteMint = wsolTokenAccount) :
    quoteIsWsolOrUsdc quoteMint = true := by
  simp [quoteIsWsolOrUsdc, h]

theorem buyData_of_max (hquote : params.protocolParams.quoteMint = wsolTokenAccount)
    (hexact : params.useExactSolAmount.getD true = false) :
    buyData e params tokenAmount solAmount =
      .ok (SwapKind.buy.data tokenAmount solAmount (trackVolumeOf params.protocolParams)) := by
  simp only [buyData]
  rw [if_pos (quoteIsWsolOrUsdc_wsol hquote), hexact]
  rfl

theorem buyData_of_exact (hquote : params.protocolParams.quoteMint = wsolTokenAccount)
    (hexact : params.useExactSolAmount.getD true = true) :
    buyData e params tokenAmount solAmount =
      (calculateWithSlippageSell e.profile tokenAmount (params.slippageBasisPoints.getD defaultSlippage)).map fun least =>
        SwapKind.buyExactQuoteIn.data (params.inputAmount.getD 0) least (trackVolumeOf params.protocolParams) := by
  simp only [buyData]
  rw [if_pos (quoteIsWsolOrUsdc_wsol hquote), if_pos hexact]
  rcases calculateWithSlippageSell e.profile tokenAmount (params.slippageBasisPoints.getD defaultSlippage) <;> rfl

theorem sellData_eq (hquote : params.protocolParams.quoteMint = wsolTokenAccount) :
    sellData (quoteIsWsolOrUsdc params.protocolParams.quoteMint) tokenAmount solAmount =
      SwapKind.sell.data tokenAmount solAmount [] := by
  rw [quoteIsWsolOrUsdc_wsol hquote, SwapKind.data, List.append_nil]
  rfl

theorem SwapKind.data_append (kind : SwapKind) (exact limit : UInt64) (track rest : List UInt8) :
    kind.data exact limit track ++ rest = kind.data exact limit (track ++ rest) := by
  simp only [SwapKind.data, List.append_assoc]

end Builder

/-- **The decoder of the Node bot reads what the builder of the SDK writes.** It takes for a swap exactly the buffers of
at least 24 bytes with one of the three discriminators. For all amounts it reads those that were written, whatever
follows; and so it reads the data that the builder writes for a pool quoted in wrapped SOL. -/
theorem parseInstructionData_reads :
    (∀ data, (parseInstructionData data).isSome = true ↔
      24 ≤ data.length ∧ (pumpswapBuyDiscriminator <+: data ∨ pumpswapBuyExactQuoteInDiscriminator <+: data ∨
        pumpswapSellDiscriminator <+: data)) ∧
    (∀ (first second : UInt64) rest,
      parseInstructionData (buyDiscriminator ++ leBytes 8 first.toNat ++ leBytes 8 second.toNat ++ rest) =
        some { isBuy := true, tokenAmount := first.toNat, solAmount := second.toNat } ∧
      parseInstructionData (buyExactQuoteInDiscriminator ++ leBytes 8 first.toNat ++ leBytes 8 second.toNat ++ rest) =
        some { isBuy := true, tokenAmount := second.toNat, solAmount := first.toNat } ∧
      parseInstructionData (sellDiscriminator ++ leBytes 8 first.toNat ++ leBytes 8 second.toNat ++ rest) =
        some { isBuy := false, tokenAmount := first.toNat, solAmount := second.toNat }) ∧
    ∀ (e : Env) (params : SwapParams) (tokenAmount solAmount : UInt64) rest,
      params.protocolParams.quoteMint = wsolTokenAccount →
      (∀ data, buyData e params tokenAmount solAmount = .ok data → params.useExactSolAmount.getD true = false →
        parseInstructionData (data ++ rest) =
          some { isBuy := true, tokenAmount := tokenAmount.toNat, solAmount := solAmount.toNat }) ∧
      (∀ data, buyData e params tokenAmount solAmount = .ok data → params.useExactSolAmount.getD true = true →
        ∃ least, calculateWithSlippageSell e.profile tokenAmount
            (params.slippageBasisPoints.getD defaultSlippage) = .ok least ∧
          parseInstructionData (data ++ rest) =
            some { isBuy := true, tokenAmount := least.toNat, solAmount := (params.inputAmount.getD 0).toNat }) ∧
      parseInstructionData
          (sellData (quoteIsWsolOrUsdc params.protocolParams.quoteMint) tokenAmount solAmount ++ rest) =
        some { isBuy := false, tokenAmount := tokenAmount.toNat, solAmount := solAmount.toNat } := by
  refine ⟨fun data => ?_, fun first second rest => ?_, fun e params tokenAmount solAmount rest hquote => ⟨?_, ?_, ?_⟩⟩
  · rw [parseInstructionData_isSome_iff]
    refine and_congr_right fun _ => ⟨?_, ?_⟩
    · rintro ⟨_ | _ | _, hkind⟩
      · exact Or.inl hkind
      · exact Or.inr (Or.inl hkind)
      · exact Or.inr (Or.inr hkind)
    · rintro (hkind | hkind | hkind)
      · exact ⟨.buy, hkind⟩
      · exact ⟨.buyExactQuoteIn, hkind⟩
      · exact ⟨.sell, hkind⟩
  · exact ⟨parseInstructionData_data .buy first second rest,
      parseInstructionData_data .buyExactQuoteIn first second rest, parseInstructionData_data .sell first second rest⟩
  · intro data hdata hexact
    rw [buyData_of_max e tokenAmount solAmount hquote hexact] at hdata
    cases hdata
    rw [SwapKind.data_append, parseInstructionData_data]
    rfl
  · intro data hdata hexact
    rw [buyData_of_exact e tokenAmount solAmount hquote hexact] at hdata
    rcases hleast : calculateWithSlippageSell e.profile tokenAmount
      (params.slippageBasisPoints.getD defaultSlippage) with f | least
    · rw [hleast] at hdata
      cases hdata
    · rw [hleast] at hdata
      cases hdata
      refine ⟨least, rfl, ?_⟩
      rw [SwapKind.data_append, parseInstructionData_data]
      rfl
  · rw [sellData_eq tokenAmount solAmount hquote, SwapKind.data_append, parseInstructionData_data]
    rfl

/-! ### The price of a swap -/

/-- The price stored for a swap: what is read from its data goes through the update to the record. -/
def storedPrice (number : Rounding 53) (data : List UInt8) (mint signature : String) (blocktime : ℚ) : Option ℚ :=
  (parseInstructionData data).map fun parsed =>
    ((ParsedTransaction.update number
      { mint := mint, tokenAmount := parsed.tokenAmount, solAmount := parsed.solAmount, isBuy := parsed.isBuy }
      signature blocktime).record number).price

/-- One number of tokens or lamports is not above another by more than one part in 2^50. -/
def AlmostLe (a b : ℕ) : Prop := (a : ℚ) ≤ b * (1 + 1 / 2 ^ 50)

theorem AlmostLe.of_hidden {a b : ℕ} (h : Rounding.Hidden 53 3 a b) : AlmostLe a b := by
  have hb : (0 : ℚ) ≤ b := Nat.cast_nonneg b
  have herrors : ((1 : ℚ) + 1 / 2 ^ 53) ^ 3 ≤ (1 - 1 / 2 ^ 53) ^ 3 * (1 + 1 / 2 ^ 50) := by norm_num
  have hpos : (0 : ℚ) < (1 - 1 / 2 ^ 53) ^ 3 := by norm_num
  refine le_of_mul_le_mul_left ?_ hpos
  calc (1 - 1 / 2 ^ 53) ^ 3 * (a : ℚ) ≤ (1 + 1 / 2 ^ 53) ^ 3 * b := h
    _ ≤ (1 - 1 / 2 ^ 53) ^ 3 * (1 + 1 / 2 ^ 50) * b := mul_le_mul_of_nonneg_right herrors hb
    _ = (1 - 1 / 2 ^ 53) ^ 3 * (b * (1 + 1 / 2 ^ 50)) := by ring

section Limits

variable {number : Rounding 53} {sol token a b : ℕ}

/-- The price of two amounts that were read. -/
theorem calculatePriceFromAmounts_natCast (htoken : token ≠ 0) :
    calculatePriceFromAmounts number (number.round sol) (number.round token) =
      number.div (number.div (number.round sol) (number.round token)) 1000 := by
  have hpos : 0 < number.round token := Rounding.round_pos (Nat.cast_pos.mpr (Nat.pos_of_ne_zero htoken))
  rw [calculatePriceFromAmounts, if_neg (not_le.mpr hpos)]

theorem calculatePriceFromAmounts_zero : calculatePriceFromAmounts number (number.round sol) (number.round (0 : ℕ)) = 0 := by
  simp [calculatePriceFromAmounts]

theorem calculatePriceFromAmounts_pos (hsol : sol ≠ 0) (htoken : token ≠ 0) :
    0 < calculatePriceFromAmounts number (number.round sol) (number.round token) := by
  have hpos : ∀ {n : ℕ}, n ≠ 0 → 0 < number.round n := fun hn =>
    Rounding.round_pos (Nat.cast_pos.mpr (Nat.pos_of_ne_zero hn))
  rw [calculatePriceFromAmounts_natCast htoken, Rounding.pos_div_iff (by norm_num), Rounding.pos_div_iff (hpos htoken).le]
  exact ⟨⟨hpos hsol, (hpos htoken).ne'⟩, by norm_num⟩

/-- Equal prices of a number of tokens come from SOL amounts that are almost equal. -/
theorem almostLe_of_sol (htoken : token ≠ 0)
    (h : calculatePriceFromAmounts number (number.round a) (number.round token) =
      calculatePriceFromAmounts number (number.round b) (number.round token)) : AlmostLe a b := by
  have hpos : 0 < number.round token := Rounding.round_pos (Nat.cast_pos.mpr (Nat.pos_of_ne_zero htoken))
  have hround : ∀ {n : ℕ}, 0 ≤ number.round n := Rounding.round_nonneg (Nat.cast_nonneg _)
  have hratio : ∀ {n : ℕ}, 0 ≤ number.div (number.round n) (number.round token) := Rounding.nonneg_div hround hpos.le
  rw [calculatePriceFromAmounts_natCast htoken, calculatePriceFromAmounts_natCast htoken] at h
  have hthousand : Rounding.Hidden 53 1 (number.div (number.round a) (number.round token))
      (number.div (number.round b) (number.round token)) :=
    .of_div (by norm_num) (.of_round (div_nonneg hratio (by norm_num)) (div_nonneg hratio (by norm_num))
      (Rounding.hidden_zero_iff.mpr h.le))
  have htokens : Rounding.Hidden 53 2 (number.round a) (number.round b) :=
    .of_div hpos (.of_round (div_nonneg hround hpos.le) (div_nonneg hround hpos.le) hthousand)
  exact .of_hidden (.of_round (Nat.cast_nonneg a) (Nat.cast_nonneg b) htokens)

/-- Equal prices of a SOL amount come from numbers of tokens that are almost equal. -/
theorem almostLe_of_token (hsol : sol ≠ 0)
    (h : calculatePriceFromAmounts number (number.round sol) (number.round a) =
      calculatePriceFromAmounts number (number.round sol) (number.round b)) : AlmostLe a b := by
  rcases eq_or_ne a 0 with rfl | ha
  · rw [AlmostLe, Nat.cast_zero]
    positivity
  rcases eq_or_ne b 0 with rfl | hb
  · rw [calculatePriceFromAmounts_zero] at h
    exact absurd h (calculatePriceFromAmounts_pos hsol ha).ne'
  have hpos : ∀ {n : ℕ}, n ≠ 0 → 0 < number.round n := fun hn =>
    Rounding.round_pos (Nat.cast_pos.mpr (Nat.pos_of_ne_zero hn))
  have hratio : ∀ {n : ℕ}, n ≠ 0 → 0 ≤ number.div (number.round sol) (number.round n) := fun hn =>
    Rounding.nonneg_div (hpos hsol).le (hpos hn).le
  rw [calculatePriceFromAmounts_natCast ha, calculatePriceFromAmounts_natCast hb] at h
  have hthousand : Rounding.Hidden 53 1 (number.div (number.round sol) (number.round b))
      (number.div (number.round sol) (number.round a)) :=
    .of_div (by norm_num) (.of_round (div_nonneg (hratio hb) (by norm_num)) (div_nonneg (hratio ha) (by norm_num))
      (Rounding.hidden_zero_iff.mpr h.ge))
  have htokens : Rounding.Hidden 53 2 (number.round a) (number.round b) :=
    .of_div_left (hpos hsol) (hpos hb) (hpos ha) (.of_round (div_nonneg (hpos hsol).le (hpos hb).le)
      (div_nonneg (hpos hsol).le (hpos ha).le) hthousand)
  exact .of_hidden (.of_round (Nat.cast_nonneg a) (Nat.cast_nonneg b) htokens)

end Limits

/-- The price that is stored for a swap of a kind. -/
def SwapKind.price (number : Rounding 53) (kind : SwapKind) (exact limit : UInt64) : ℚ :=
  calculatePriceFromAmounts number (number.round (kind.parsed exact limit).solAmount)
    (number.round (kind.parsed exact limit).tokenAmount)

theorem storedPrice_data (number : Rounding 53) (kind : SwapKind) (exact limit : UInt64) (rest : List UInt8)
    (mint signature : String) (blocktime : ℚ) :
    storedPrice number (kind.data exact limit rest) mint signature blocktime = some (kind.price number exact limit) := by
  rw [storedPrice, parseInstructionData_data]
  rfl

/-- Without an exact amount the price is zero. -/
theorem SwapKind.price_zero (number : Rounding 53) (kind : SwapKind) (limit : UInt64) : kind.price number 0 limit = 0 := by
  cases kind with
  | buy => exact calculatePriceFromAmounts_zero
  | sell => exact calculatePriceFromAmounts_zero
  | buyExactQuoteIn =>
    show calculatePriceFromAmounts number (number.round (0 : ℕ)) (number.round limit.toNat) = 0
    rcases eq_or_ne limit.toNat 0 with hlimit | hlimit
    · rw [hlimit]
      exact calculatePriceFromAmounts_zero
    · rw [calculatePriceFromAmounts_natCast hlimit]
      simp [Rounding.div]

/-- With one, equal prices come from limits that are almost equal. -/
theorem SwapKind.almostLe_of_price {number : Rounding 53} {kind : SwapKind} {exact limit limit' : UInt64} (hexact : exact ≠ 0)
    (h : kind.price number exact limit = kind.price number exact limit') : AlmostLe limit.toNat limit'.toNat := by
  have hne : exact.toNat ≠ 0 := fun hzero => hexact (UInt64.toNat_inj.mp hzero)
  cases kind with
  | buy => exact almostLe_of_sol hne h
  | sell => exact almostLe_of_sol hne h
  | buyExactQuoteIn => exact almostLe_of_token hne h

/-- **The limit moves the price, unless the exact amount is zero.** For each kind of swap and each exact amount, all limits
give one price exactly if the amount is zero; else two limits that give one price are equal, up to one part in 2^50. -/
theorem storedPrice_eq_iff (number : Rounding 53) (kind : SwapKind) (exact : UInt64) (rest : List UInt8) (mint : String) :
    ∃ price : UInt64 → ℚ,
      (∀ limit signature blocktime,
        storedPrice number (kind.data exact limit rest) mint signature blocktime = some (price limit)) ∧
      ((∀ limit limit', price limit = price limit') ↔ exact = 0) ∧
      ∀ limit limit', price limit = price limit' →
        exact = 0 ∨ AlmostLe limit.toNat limit'.toNat ∧ AlmostLe limit'.toNat limit.toNat := by
  refine ⟨kind.price number exact, fun limit signature blocktime => storedPrice_data _ _ _ _ _ _ _ _, ⟨fun hall => ?_, ?_⟩,
    fun limit limit' hprice => ?_⟩
  · by_contra hexact
    -- two limits of which one is twice the other
    have htwice : (2 : UInt64).toNat = 2 ∧ (1 : UInt64).toNat = 1 := ⟨rfl, rfl⟩
    exact absurd (SwapKind.almostLe_of_price hexact (hall 2 1)) (by norm_num [AlmostLe, htwice])
  · rintro rfl limit limit'
    rw [kind.price_zero, kind.price_zero]
  · by_cases hexact : exact = 0
    · exact Or.inl hexact
    · exact Or.inr ⟨SwapKind.almostLe_of_price hexact hprice, SwapKind.almostLe_of_price hexact hprice.symm⟩

/-- Two buys of 1000 tokens, one with a limit of 2000 and one with a limit of 4000, are stored at different prices. -/
theorem storedPrice_buy_limit :
    storedPrice .binary64 (SwapKind.buy.data 1000 2000 []) "mint" "a" 1 = some (Rounding.binary64.round (1 / 500)) ∧
      storedPrice .binary64 (SwapKind.buy.data 1000 4000 []) "mint" "b" 1 = some (Rounding.binary64.round (1 / 250)) ∧
      storedPrice .binary64 (SwapKind.buy.data 1000 2000 []) "mint" "a" 1 ≠
        storedPrice .binary64 (SwapKind.buy.data 1000 4000 []) "mint" "b" 1 := by
  decide +kernel

/-! ### The accounts of a swap -/

/-- The first address that passes for a mint is returned. -/
theorem extractMintFromAccountKeys_map_some (keys : List Pubkey) :
    extractMintFromAccountKeys (keys.map some) = .ok ((keys.find? fun key => MayBeMint key).map Pubkey.toText) := by
  induction keys with
  | nil => rfl
  | cons key keys ih =>
    rw [List.map_cons, extractMintFromAccountKeys, List.find?_cons]
    split_ifs with h
    · simp [h]
    · simpa [h] using ih

theorem toText_wsolTokenAccount : wsolTokenAccount.toText = wsolMint := by decide +kernel

theorem not_mayBeMint_wsol : ¬ MayBeMint wsolTokenAccount := fun h => h.1 toText_wsolTokenAccount

/-- The mint of a swap is found if it passes for one, and so does no other address before it. -/
theorem extractMintFromAccountKeys_swap_iff {pool user globalConfig baseMint quoteMint mint : Pubkey}
    {rest : List Pubkey}
    (hmints : baseMint = wsolTokenAccount ∧ quoteMint = mint ∨ quoteMint = wsolTokenAccount ∧ baseMint = mint) :
    extractMintFromAccountKeys ((pool :: user :: globalConfig :: baseMint :: quoteMint :: rest).map some) =
        .ok (some mint.toText) ↔
      MayBeMint mint ∧ ∀ key, [pool, user, globalConfig].find? (fun key => MayBeMint key) = some key → key = mint := by
  have hfound : ∀ o : Option Pubkey, o.map Pubkey.toText = some mint.toText ↔ o = some mint := by
    intro o
    rcases o with _ | key
    · simp
    · simp [Pubkey.toText_inj]
  rw [extractMintFromAccountKeys_map_some, Except.ok.injEq, hfound]
  have hsplit : pool :: user :: globalConfig :: baseMint :: quoteMint :: rest =
    [pool, user, globalConfig] ++ ([baseMint, quoteMint] ++ rest) := rfl
  have hpair : [baseMint, quoteMint].find? (fun key => MayBeMint key) = if MayBeMint mint then some mint else none := by
    obtain ⟨rfl, rfl⟩ | ⟨rfl, rfl⟩ := hmints
    · by_cases h : MayBeMint quoteMint <;> simp [not_mayBeMint_wsol, h]
    · by_cases h : MayBeMint baseMint <;> simp [not_mayBeMint_wsol, h]
  rw [hsplit, List.find?_append, List.find?_append, hpair]
  rcases hfirst : [pool, user, globalConfig].find? (fun key => MayBeMint key) with _ | key
  · by_cases hmint : MayBeMint mint
    · simp [hmint]
    · simp only [hmint, if_false, Option.none_or, false_and, iff_false]
      intro h
      exact hmint (by simpa using List.find?_some h)
  · have hkey : MayBeMint key := by simpa using List.find?_some hfirst
    simp only [Option.some_or, Option.some.injEq, forall_eq']
    constructor
    · rintro rfl
      exact ⟨hkey, rfl⟩
    · exact fun h => h.2

/-- An address of one byte repeated, after a first one. -/
def sampleKey (first byte : UInt8) : Pubkey := ⟨first :: List.replicate 31 byte, rfl⟩

/-- With a pool, a user and a config that begin with a zero byte the mint is found. -/
theorem extractMintFromAccountKeys_swap_found :
    extractMintFromAccountKeys
        ([sampleKey 0 1, sampleKey 0 2, sampleKey 0 3, sampleKey 9 9, wsolTokenAccount].map some) =
      .ok (some (sampleKey 9 9).toText) :=
  (extractMintFromAccountKeys_swap_iff (Or.inr ⟨rfl, rfl⟩)).mpr (by decide +kernel)

/-- With a pool that begins with another byte the address of the pool is returned. -/
theorem extractMintFromAccountKeys_pool :
    extractMintFromAccountKeys
        ([sampleKey 7 1, sampleKey 0 2, sampleKey 0 3, sampleKey 9 9, wsolTokenAccount].map some) =
      .ok (some (sampleKey 7 1).toText) ∧
      extractMintFromAccountKeys
        ([sampleKey 7 1, sampleKey 0 2, sampleKey 0 3, sampleKey 9 9, wsolTokenAccount].map some) ≠
      .ok (some (sampleKey 9 9).toText) := by
  decide +kernel

/-! ### Messages -/

/-- The first swap of a list of instructions. -/
def firstSwap (accountKeys : List Pubkey) (ixs : List CompiledInstruction) : Option ParsedInstruction :=
  ixs.findSome? fun ix =>
    if accountKeys[ix.programIdIndex]? = some ammProgram then parseInstructionData ix.data else none

/-- The amounts and the direction. -/
def ParsedTransaction.swap (parsed : ParsedTransaction) : ParsedInstruction where
  isBuy := parsed.isBuy
  tokenAmount := parsed.tokenAmount
  solAmount := parsed.solAmount

theorem parseInstructions_eq_none {accountKeys : List Pubkey} {ixs : List CompiledInstruction}
    (h : ∀ ix ∈ ixs, parseInstructionData ix.data = none) : parseInstructions accountKeys ixs = .ok none := by
  induction ixs with
  | nil => rfl
  | cons ix ixs ih =>
    obtain ⟨hix, hixs⟩ := List.forall_mem_cons.mp h
    rw [parseInstructions, hix]
    simp [ih hixs]

/-- No text is the data of a swap: the bytes of a discriminator do not stand next to each other in UTF-8. -/
theorem parseInstructionData_text (text : String) : parseInstructionData (bufferFromText text) = none := by
  rw [Option.eq_none_iff_forall_ne_some]
  intro p hp
  obtain ⟨kind, exact, limit, rest, hdata, -⟩ := parseInstructionData_eq_some.mp hp
  have hchain : (bufferFromText text).IsChain Utf8Next := (isChain_utf8 text.toList).1
  rw [hdata, SwapKind.data, List.append_assoc, List.append_assoc] at hchain
  have hdiscriminator := hchain.left_of_append
  cases kind with
  | buy => exact absurd hdiscriminator (by decide)
  | buyExactQuoteIn => exact absurd hdiscriminator (by decide)
  | sell => exact absurd hdiscriminator (by decide)

theorem parseTransaction_v0 (accountKeys : List Pubkey) (ixs : List CompiledInstruction) (signatures : List String) :
    parseTransaction { message := .v0 accountKeys ixs, signatures := signatures } =
      .error "Cannot read properties of undefined (reading 'length')" := rfl

theorem parseTransaction_legacy (accountKeys : List Pubkey) (texts : List LegacyInstruction) (signatures : List String) :
    parseTransaction { message := .legacy accountKeys texts, signatures := signatures } = .ok none := by
  show parseInstructions accountKeys (texts.map LegacyInstruction.buffered) = .ok none
  apply parseInstructions_eq_none
  intro ix hix
  obtain ⟨t, -, rfl⟩ := List.mem_map.mp hix
  exact parseInstructionData_text t.data

/-- A transaction of the library gives no swap: a version-0 message is an exception, and in a legacy message none is
seen. -/
theorem parseTransaction_library {tx : Transaction} (h : tx.others = []) (parsed : ParsedTransaction) :
    parseTransaction tx ≠ .ok (some parsed) := by
  obtain ⟨message, signatures, others⟩ := tx
  subst h
  cases message with
  | legacy accountKeys texts =>
    rw [parseTransaction_legacy]
    simp
  | v0 accountKeys ixs =>
    rw [parseTransaction_v0]
    simp

/-- No message with a swap gives it: a version-0 message is an exception, and in a legacy message no swap is seen. -/
theorem parseTransaction_misses_swap {m : Message} {ixs : List CompiledInstruction} (signatures : List String)
    (hixs : m.compiledInstructions = .ok ixs) :
    ∀ swap, firstSwap m.staticAccountKeys ixs = some swap →
      (¬ ∃ parsed, parseTransaction { message := m, signatures := signatures } = .ok (some parsed) ∧
        parsed.swap = swap) ∧
      (∀ accountKeys texts, m = .legacy accountKeys texts →
        parseTransaction { message := m, signatures := signatures } ≠
          parseTransaction { message := .v0 accountKeys ixs, signatures := signatures }) := by
  intro swap _
  cases m with
  | legacy accountKeys texts =>
    constructor
    · rintro ⟨parsed, h, -⟩
      exact parseTransaction_library rfl parsed h
    · intro keys texts' h
      rw [parseTransaction_legacy, parseTransaction_v0]
      simp
  | v0 accountKeys ixs =>
    constructor
    · rintro ⟨parsed, h, -⟩
      exact parseTransaction_library rfl parsed h
    · intro keys texts' h
      cases h

/-- A buy of 1000 tokens for at most 2000. -/
def sampleSwap : CompiledInstruction where
  programIdIndex := 0
  accountKeyIndexes := [2]
  data := SwapKind.buy.data 1000 2000 []

/-- A legacy message with this buy. -/
def sampleMessage : Message :=
  .legacy [ammProgram, tokenProgram, sampleKey 7 7]
    [{ programIdIndex := 0, accounts := [2], data := "AJTQ2h9DXrC7nqyhyGaQvgge78p2GSCyD" }]

theorem sampleMessage_compiledInstructions : sampleMessage.compiledInstructions = .ok [sampleSwap] := by decide +kernel

theorem sampleMessage_firstSwap :
    firstSwap sampleMessage.staticAccountKeys [sampleSwap] = some (SwapKind.buy.parsed 1000 2000) := by decide +kernel

/-- The buy is missed in the legacy message. -/
theorem parseTransaction_misses_swap_sample :
    firstSwap sampleMessage.staticAccountKeys [sampleSwap] = some (SwapKind.buy.parsed 1000 2000) ∧
      ¬ ∃ parsed, parseTransaction { message := sampleMessage, signatures := [] } = .ok (some parsed) ∧
        parsed.swap = SwapKind.buy.parsed 1000 2000 :=
  ⟨sampleMessage_firstSwap,
    (parseTransaction_misses_swap [] sampleMessage_compiledInstructions _ sampleMessage_firstSwap).1⟩

/-- The buy is missed in a legacy message, and the same message in version 0 is an exception. -/
theorem parseTransaction_sampleMessage :
    firstSwap sampleMessage.staticAccountKeys [sampleSwap] = some (SwapKind.buy.parsed 1000 2000) ∧
      parseTransaction { message := sampleMessage, signatures := [] } = .ok none ∧
      parseTransaction { message := .v0 sampleMessage.staticAccountKeys [sampleSwap], signatures := [] } =
        .error "Cannot read properties of undefined (reading 'length')" :=
  ⟨sampleMessage_firstSwap, parseTransaction_legacy _ _ [], parseTransaction_v0 _ _ _⟩

end PumpSwapBot.Node
