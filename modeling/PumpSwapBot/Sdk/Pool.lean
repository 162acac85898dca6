import PumpSwapBot.Sdk.Accounts
import Mathlib.Data.List.Sort

/-!
# Pools on the chain

How the SDK finds the pool of a mint and what it makes of it
(`instruction/utils/pumpswap.rs`, `instruction/utils/pumpswap_types.rs` and
`trading/core/params.rs`): the 244-byte account decoded field by field, the four-step lookup
`findByMint`, and `PumpSwapParams` built from a pool and its two balances.

## The model

An `Rpc` is what the node answers while one lookup runs: every query of the lookup is a function
of its arguments, with an error for an answer. A search that takes more than three seconds is given
up (`timedOut`). An RPC error's text is the node's and stays a parameter.

## What is proved

* `poolDecode_mints` — a decoded pool's two mints are the bytes at offsets 35 and 67 of its data,
  which are the offsets 43 and 75 of the account that the two searches filter by.
* `findByMint_ok` — what a successful lookup found, step by step: the four steps of the source in
  order, each reached only when the ones before it found nothing.
-/

namespace PumpSwapBot.Sdk

open PumpSwapBot.Library

/-! ### The pool account -/

/-- A PumpSwap pool. -/
structure Pool where
  poolBump : UInt8
  index : UInt16
  creator : Pubkey
  baseMint : Pubkey
  quoteMint : Pubkey
  lpMint : Pubkey
  poolBaseTokenAccount : Pubkey
  poolQuoteTokenAccount : Pubkey
  lpSupply : UInt64
  coinCreator : Pubkey
  isMayhemMode : Bool
  /-- Whether this pool's coin has cashback enabled. -/
  isCashbackCoin : Bool
  /-- Reserved for future fields. -/
  reserved : List UInt8
  deriving DecidableEq

/-- The length of a pool's data. -/
def poolSize : ℕ := 244

/-- Read an address. -/
def readPubkey (bs : List UInt8) : Option (Pubkey × List UInt8) :=
  if h : 32 ≤ bs.length then some (⟨bs.take 32, by simpa using h⟩, bs.drop 32) else none

/-- Read a little-endian number of `k` bytes. -/
def readLe (k : ℕ) (bs : List UInt8) : Option (ℕ × List UInt8) := do
  let (x, rest) ← takeBytes k bs
  return (leNat x, rest)

/-- Read a Boolean: a byte other than 0 and 1 is refused. -/
def readBool (bs : List UInt8) : Option (Bool × List UInt8) := do
  let (n, rest) ← readLe 1 bs
  if n = 0 then return (false, rest) else if n = 1 then return (true, rest) else none

/-- The Borsh decoding of a pool: the fields in order, and nothing after them. -/
def Pool.fromSlice (bs : List UInt8) : Option Pool := do
  let (poolBump, bs) ← readLe 1 bs
  let (index, bs) ← readLe 2 bs
  let (creator, bs) ← readPubkey bs
  let (baseMint, bs) ← readPubkey bs
  let (quoteMint, bs) ← readPubkey bs
  let (lpMint, bs) ← readPubkey bs
  let (poolBaseTokenAccount, bs) ← readPubkey bs
  let (poolQuoteTokenAccount, bs) ← readPubkey bs
  let (lpSupply, bs) ← readLe 8 bs
  let (coinCreator, bs) ← readPubkey bs
  let (isMayhemMode, bs) ← readBool bs
  let (isCashbackCoin, bs) ← readBool bs
  let (reserved, bs) ← takeBytes 7 bs
  if bs = [] then
    return { poolBump := UInt8.ofNat poolBump, index := UInt16.ofNat index, creator, baseMint, quoteMint, lpMint,
             poolBaseTokenAccount, poolQuoteTokenAccount, lpSupply := asU64 lpSupply, coinCreator,
             isMayhemMode, isCashbackCoin, reserved }
  else none

/-- Decode a pool from the first 244 bytes of its data. -/
def poolDecode (data : List UInt8) : Option Pool :=
  if data.length < poolSize then none else Pool.fromSlice (data.take poolSize)

theorem readPubkey_eq_some {bs : List UInt8} {k : Pubkey} {rest : List UInt8}
    (h : readPubkey bs = some (k, rest)) : k.bytes = bs.take 32 ∧ rest = bs.drop 32 := by
  simp only [readPubkey] at h
  split_ifs at h with hl
  simp only [Option.some.injEq, Prod.mk.injEq] at h
  obtain ⟨rfl, rfl⟩ := h
  exact ⟨rfl, rfl⟩

theorem readLe_eq_some {k : ℕ} {bs : List UInt8} {n : ℕ} {rest : List UInt8}
    (h : readLe k bs = some (n, rest)) : rest = bs.drop k := by
  simp only [readLe, Option.bind_eq_bind, Option.bind_eq_some_iff, Prod.exists] at h
  obtain ⟨x, rest', hx, h⟩ := h
  obtain ⟨-, -, rfl⟩ := takeBytes_eq_some.mp hx
  simp only [Option.pure_def, Option.some.injEq, Prod.mk.injEq] at h
  exact h.2.symm

/-- The bytes of a decoded pool's mints: 32 at offset 35, and 32 at offset 67. -/
theorem poolDecode_mints {data : List UInt8} {pool : Pool} (h : poolDecode data = some pool) :
    pool.baseMint.bytes = (data.drop 35).take 32 ∧ pool.quoteMint.bytes = (data.drop 67).take 32 := by
  unfold poolDecode poolSize at h
  split_ifs at h with hl
  unfold Pool.fromSlice at h
  -- The fields before the second mint fix where the two mints are; the others only have to be there.
  obtain ⟨⟨_, _⟩, h₁, h⟩ := Option.bind_eq_some_iff.mp h
  obtain ⟨⟨_, _⟩, h₂, h⟩ := Option.bind_eq_some_iff.mp h
  obtain ⟨⟨_, _⟩, h₃, h⟩ := Option.bind_eq_some_iff.mp h
  obtain ⟨⟨_, _⟩, h₄, h⟩ := Option.bind_eq_some_iff.mp h
  obtain ⟨⟨_, _⟩, h₅, h⟩ := Option.bind_eq_some_iff.mp h
  obtain ⟨⟨_, _⟩, -, h⟩ := Option.bind_eq_some_iff.mp h
  obtain ⟨⟨_, _⟩, -, h⟩ := Option.bind_eq_some_iff.mp h
  obtain ⟨⟨_, _⟩, -, h⟩ := Option.bind_eq_some_iff.mp h
  obtain ⟨⟨_, _⟩, -, h⟩ := Option.bind_eq_some_iff.mp h
  obtain ⟨⟨_, _⟩, -, h⟩ := Option.bind_eq_some_iff.mp h
  obtain ⟨⟨_, _⟩, -, h⟩ := Option.bind_eq_some_iff.mp h
  obtain ⟨⟨_, _⟩, -, h⟩ := Option.bind_eq_some_iff.mp h
  obtain ⟨⟨_, _⟩, -, h⟩ := Option.bind_eq_some_iff.mp h
  dsimp only at h
  split_ifs at h
  simp only [Option.pure_def, Option.some.injEq] at h
  subst h
  have e₁ := readLe_eq_some h₁
  have e₂ := readLe_eq_some h₂
  have e₃ := (readPubkey_eq_some h₃).2
  obtain ⟨e₄, e₄'⟩ := readPubkey_eq_some h₄
  have e₅ := (readPubkey_eq_some h₅).1
  subst e₁ e₂ e₃ e₄'
  simp only [e₄, e₅, List.drop_drop, List.drop_take, List.take_take]
  exact ⟨rfl, rfl⟩

/-! ### The lookup -/

/-- An account of the chain. -/
structure Account where
  /-- The program that owns it. -/
  owner : Pubkey
  /-- Its data. -/
  data : List UInt8
  deriving DecidableEq

/-- The answers of the node to the queries of one lookup. -/
structure Rpc where
  /-- The account at an address. -/
  getAccount : Pubkey → Except Error Account
  /-- The accounts of the PumpSwap program of a given size with a given address at a given offset. -/
  getProgramAccounts : ℕ → ℕ → Pubkey → Except Error (List (Pubkey × Account))
  /-- Whether the search at an offset takes more than three seconds. -/
  timedOut : ℕ → Bool
  /-- The text of the amount held by a token account. -/
  getTokenAccountBalance : Pubkey → Except Error String

/-- The part of a slice from an index on, `&data[n..]`, which must be there. -/
def sliceFrom (n : ℕ) (data : List UInt8) : Result (List UInt8) :=
  if n ≤ data.length then .ok (data.drop n)
  else .error (.panic ("range start index " ++ toString n ++ " out of range for slice of length "
    ++ toString data.length))

/-- The pool at an address. -/
def fetchPool (rpc : Rpc) (poolAddress : Pubkey) : Result Pool := do
  let account ← orFail (rpc.getAccount poolAddress)
  bailIf (account.owner ≠ ammProgram) "Account is not owned by PumpSwap program"
  let data ← sliceFrom 8 account.data
  okOr "Failed to decode pool" (poolDecode data)

/-- The size of a pool account under the Token program. -/
def poolDataLenSpl : ℕ := 8 + 244

/-- The size of a pool account under the Token-2022 program. -/
def poolDataLenT22 : ℕ := 643

/-- The pool accounts of both sizes; a search that fails counts as empty. -/
def getProgramAccountsBothSizes (rpc : Rpc) (memcmpOffset : ℕ) (mint : Pubkey) : List (Pubkey × Account) :=
  let answer size := match rpc.getProgramAccounts size memcmpOffset mint with
    | .ok accounts => accounts
    | .error _ => []
  answer poolDataLenSpl ++ answer poolDataLenT22

/-- The accounts that decode to a pool. -/
def decodePoolAccounts (accounts : List (Pubkey × Account)) : List (Pubkey × Pool) :=
  accounts.filterMap fun (addr, acc) =>
    if acc.data.length > 8 then (poolDecode (acc.data.drop 8)).map fun pool => (addr, pool) else none

/-- The deepest first: `sort_by(|a, b| b.1.lp_supply.cmp(&a.1.lp_supply))`, which keeps the order of
equal pools. -/
def sortByLpSupply (pools : List (Pubkey × Pool)) : List (Pubkey × Pool) :=
  pools.insertionSort fun a b => b.2.lpSupply ≤ a.2.lpSupply

/-- Search the pools with a mint at an offset and take the deepest; `undecoded` is the text for
accounts none of which is a pool. -/
def findByOffset (rpc : Rpc) (memcmpOffset : ℕ) (undecoded : String) (mint : Pubkey) :
    Result (Pubkey × Pool) := do
  let accounts := getProgramAccountsBothSizes rpc memcmpOffset mint
  bailIf (accounts = []) ("No pool found for mint " ++ mint.toText)
  match sortByLpSupply (decodePoolAccounts accounts) with
  | [] => bail (undecoded ++ mint.toText)
  | deepest :: _ => return deepest

/-- The deepest pool with the mint as base. -/
def findByBaseMint (rpc : Rpc) (baseMint : Pubkey) : Result (Pubkey × Pool) :=
  findByOffset rpc 43 "No valid pool decoded for mint " baseMint

/-- The deepest pool with the mint as quote. -/
def findByQuoteMint (rpc : Rpc) (quoteMint : Pubkey) : Result (Pubkey × Pool) :=
  findByOffset rpc 75 "No valid pool decoded for quote_mint " quoteMint

/-- What one step of the lookup comes to: a pool, or lines for the diagnosis. -/
abbrev Step := Except (List String) (Pubkey × Pool)

/-- Look for the pool of a mint at a derived address: it counts if the mint is its base. -/
def probe (rpc : Rpc) (name : String) (mint address : Pubkey) : Result Step := do
  let line := name ++ "=" ++ address.toText
  match ← caught (fetchPool rpc address) with
  | .ok pool =>
    if pool.baseMint = mint then return .ok (address, pool)
    else return .error [line, name ++ " 账户存在但 base_mint 不匹配"]
  | .error e => return .error [line, name ++ " get_account/decode 失败: " ++ e.msg]

/-- Look for the pool of a mint by a search, for three seconds. -/
def search (timedOut : Bool) (name : String) (found : Result (Pubkey × Pool)) : Result Step := do
  if timedOut then return .error ["getProgramAccounts(" ++ name ++ "): timed out (3s)"]
  else match ← caught found with
    | .ok r => return .ok r
    | .error e => return .error ["getProgramAccounts(" ++ name ++ "): " ++ e.msg]

/-- Go on to the next step with the diagnosis so far, unless a pool was found. -/
def orElse (step : Step) (next : List String → Result (Pubkey × Pool)) : Result (Pubkey × Pool) :=
  match step with
  | .ok r => .ok r
  | .error diag => next diag

/-- The PumpSwap pool of a mint: at the v2 address, at the canonical address, by a search for the
mint as base, by a search for the mint as quote. -/
def findByMint (d : Derivation) (rpc : Rpc) (mint : Pubkey) : Result (Pubkey × Pool) := do
  let v2 ← match getPoolV2Pda d mint with
    | some poolAddress => probe rpc "PDA(v2)" mint poolAddress
    | none => .ok (.error [])
  orElse v2 fun diag₁ => do
  let canonical ← probe rpc "canonical" mint (getCanonicalPoolPda d mint)
  orElse canonical fun diag₂ => do
  let byBase ← search (rpc.timedOut 43) "base_mint" (findByBaseMint rpc mint)
  orElse byBase fun diag₃ => do
  let byQuote ← search (rpc.timedOut 75) "quote_mint" (findByQuoteMint rpc mint)
  orElse byQuote fun diag₄ =>
  bail ("No pool found for mint " ++ mint.toText ++ ". diag: "
    ++ "; ".intercalate (diag₁ ++ diag₂ ++ diag₃ ++ diag₄))

/-! ### What a lookup finds -/

/-- The pool at an address, if there is one with the mint as base. -/
def poolAt (rpc : Rpc) (mint address : Pubkey) : Option (Pubkey × Pool) :=
  match fetchPool rpc address with
  | .ok pool => if pool.baseMint = mint then some (address, pool) else none
  | .error _ => none

/-- The deepest pool a search answers with in time. -/
def deepest (rpc : Rpc) (memcmpOffset : ℕ) (mint : Pubkey) : Option (Pubkey × Pool) :=
  if rpc.timedOut memcmpOffset then none
  else (sortByLpSupply (decodePoolAccounts (getProgramAccountsBothSizes rpc memcmpOffset mint))).head?

/-- The pool with the mint as base that the first three steps of the lookup come to. -/
def poolOfBase (d : Derivation) (rpc : Rpc) (mint : Pubkey) : Option (Pubkey × Pool) :=
  ((getPoolV2Pda d mint).bind (poolAt rpc mint)).or
    ((poolAt rpc mint (getCanonicalPoolPda d mint)).or (deepest rpc 43 mint))

theorem probe_eq_ok {rpc : Rpc} {name : String} {mint address : Pubkey} {step : Step}
    (h : probe rpc name mint address = .ok step) : step.toOption = poolAt rpc mint address := by
  obtain ⟨o, ho, h⟩ := bind_eq_ok.mp h
  simp only [poolAt]
  rw [caught_eq_ok ho]
  rcases o with e | pool
  · cases h
    rfl
  · dsimp only [orFail] at h ⊢
    split_ifs at h ⊢ <;> cases h <;> rfl

theorem findByOffset_eq_ok {rpc : Rpc} {offset : ℕ} {undecoded : String} {mint : Pubkey} {r : Pubkey × Pool} :
    findByOffset rpc offset undecoded mint = .ok r ↔
      (sortByLpSupply (decodePoolAccounts (getProgramAccountsBothSizes rpc offset mint))).head? = some r := by
  unfold findByOffset
  dsimp only
  by_cases hnil : getProgramAccountsBothSizes rpc offset mint = []
  · -- No account, hence no pool.
    simp [hnil, bailIf, bail, decodePoolAccounts, sortByLpSupply]
  · rw [bailIf_neg _ hnil, ok_bind]
    rcases sortByLpSupply (decodePoolAccounts (getProgramAccountsBothSizes rpc offset mint)) with _ | ⟨q, qs⟩
    · simp [bail]
    · simp [pure, Except.pure]

theorem search_eq_ok {rpc : Rpc} {offset : ℕ} {name undecoded : String} {mint : Pubkey} {step : Step}
    (h : search (rpc.timedOut offset) name (findByOffset rpc offset undecoded mint) = .ok step) :
    step.toOption = deepest rpc offset mint := by
  simp only [search] at h
  simp only [deepest]
  split_ifs at h ⊢
  · cases h
    rfl
  · obtain ⟨o, ho, h⟩ := bind_eq_ok.mp h
    have hf := caught_eq_ok ho
    rcases o with e | r
    · cases h
      rcases hd : (sortByLpSupply (decodePoolAccounts (getProgramAccountsBothSizes rpc offset mint))).head? with _ | r
      · rfl
      · rw [findByOffset_eq_ok.mpr hd] at hf
        cases hf
    · cases h
      exact (findByOffset_eq_ok.mp hf).symm

theorem orElse_eq_ok {step : Step} {next : List String → Result (Pubkey × Pool)} {r : Pubkey × Pool}
    (h : orElse step next = .ok r) :
    step.toOption = some r ∨ step.toOption = none ∧ ∃ diag, next diag = .ok r := by
  rcases step with diag | r'
  · exact Or.inr ⟨rfl, diag, h⟩
  · cases h
    exact Or.inl rfl

/-- **What a successful lookup found**: the pool of the first three steps if there is one, and
otherwise the deepest pool with the mint as quote. -/
theorem findByMint_ok {d : Derivation} {rpc : Rpc} {mint : Pubkey} {r : Pubkey × Pool}
    (h : findByMint d rpc mint = .ok r) :
    poolOfBase d rpc mint = some r ∨ poolOfBase d rpc mint = none ∧ deepest rpc 75 mint = some r := by
  simp only [findByMint] at h
  obtain ⟨v2, h₁, h⟩ := bind_eq_ok.mp h
  have e₁ : v2.toOption = (getPoolV2Pda d mint).bind (poolAt rpc mint) := probe_eq_ok h₁
  simp only [poolOfBase]
  rw [← e₁]
  rcases orElse_eq_ok h with h | ⟨n₁, _, h⟩
  · exact Or.inl (by rw [h, Option.some_or])
  obtain ⟨canonical, h₂, h⟩ := bind_eq_ok.mp h
  rw [← probe_eq_ok h₂, n₁, Option.none_or]
  rcases orElse_eq_ok h with h | ⟨n₂, _, h⟩
  · exact Or.inl (by rw [h, Option.some_or])
  obtain ⟨byBase, h₃, h⟩ := bind_eq_ok.mp h
  rw [← search_eq_ok h₃, n₂, Option.none_or]
  rcases orElse_eq_ok h with h | ⟨n₃, _, h⟩
  · exact Or.inl h
  obtain ⟨byQuote, h₄, h⟩ := bind_eq_ok.mp h
  rcases orElse_eq_ok h with h | ⟨_, _, h⟩
  · exact Or.inr ⟨n₃, (search_eq_ok h₄).symm.trans h⟩
  · cases h

/-- The node answers a search only with accounts of the size and with the address at the offset it
was asked for: the documented meaning of `DataSize` and `Memcmp`. -/
def Rpc.HonoursFilters (rpc : Rpc) : Prop :=
  ∀ size offset mint accounts, rpc.getProgramAccounts size offset mint = .ok accounts →
    ∀ a ∈ accounts, a.2.data.length = size ∧ (a.2.data.drop offset).take 32 = mint.bytes

theorem mem_of_deepest {rpc : Rpc} {offset : ℕ} {mint : Pubkey} {r : Pubkey × Pool}
    (h : deepest rpc offset mint = some r) :
    ∃ a ∈ getProgramAccountsBothSizes rpc offset mint, poolDecode (a.2.data.drop 8) = some r.2 := by
  simp only [deepest] at h
  split_ifs at h
  have hmem := List.mem_of_mem_head? h
  rw [sortByLpSupply, List.mem_insertionSort] at hmem
  obtain ⟨a, ha, hr⟩ := List.mem_filterMap.mp hmem
  dsimp only at hr
  split_ifs at hr
  obtain ⟨pool, hpool, rfl⟩ := Option.map_eq_some_iff.mp hr
  exact ⟨a, ha, hpool⟩

theorem bytes_of_mem_getProgramAccounts {rpc : Rpc} (hr : rpc.HonoursFilters) {offset : ℕ} {mint : Pubkey}
    {a : Pubkey × Account} (h : a ∈ getProgramAccountsBothSizes rpc offset mint) :
    (a.2.data.drop offset).take 32 = mint.bytes := by
  unfold getProgramAccountsBothSizes at h
  rcases List.mem_append.mp h with h | h
  all_goals
    dsimp only at h
    split at h
    · next accounts ha => exact (hr _ _ _ _ ha a h).2
    · cases h

theorem baseMint_of_poolAt {rpc : Rpc} {mint address : Pubkey} {r : Pubkey × Pool}
    (h : poolAt rpc mint address = some r) : r.2.baseMint = mint := by
  simp only [poolAt] at h
  split at h
  · split_ifs at h with hb
    cases h
    exact hb
  · cases h

/-- The first three steps find pools with the mint as base. -/
theorem baseMint_of_poolOfBase {d : Derivation} {rpc : Rpc} (hr : rpc.HonoursFilters) {mint : Pubkey}
    {r : Pubkey × Pool} (h : poolOfBase d rpc mint = some r) : r.2.baseMint = mint := by
  simp only [poolOfBase] at h
  rcases Option.or_eq_some_iff.mp h with h | ⟨-, h⟩
  · obtain ⟨address, -, h⟩ := Option.bind_eq_some_iff.mp h
    exact baseMint_of_poolAt h
  rcases Option.or_eq_some_iff.mp h with h | ⟨-, h⟩
  · exact baseMint_of_poolAt h
  · obtain ⟨a, ha, hpool⟩ := mem_of_deepest h
    have hbytes := (poolDecode_mints hpool).1
    rw [List.drop_drop] at hbytes
    exact Pubkey.ext_bytes (hbytes.trans (bytes_of_mem_getProgramAccounts hr ha))

/-- The last step finds pools with the mint as quote. -/
theorem quoteMint_of_deepest {rpc : Rpc} (hr : rpc.HonoursFilters) {mint : Pubkey}
    {r : Pubkey × Pool} (h : deepest rpc 75 mint = some r) : r.2.quoteMint = mint := by
  obtain ⟨a, ha, hpool⟩ := mem_of_deepest h
  have hbytes := (poolDecode_mints hpool).2
  rw [List.drop_drop] at hbytes
  exact Pubkey.ext_bytes (hbytes.trans (bytes_of_mem_getProgramAccounts hr ha))

/-- The balances of a pool's two token accounts. -/
def getTokenBalances (pool : Pool) (rpc : Rpc) : Result (UInt64 × UInt64) := do
  let baseBalance ← orFail (rpc.getTokenAccountBalance pool.poolBaseTokenAccount)
  let quoteBalance ← orFail (rpc.getTokenAccountBalance pool.poolQuoteTokenAccount)
  let baseAmount ← orFail ((parseU64 baseBalance).mapError anyhow)
  let quoteAmount ← orFail ((parseU64 quoteBalance).mapError anyhow)
  return (baseAmount, quoteAmount)

/-! ### Trade parameters -/

/-- PumpSwap protocol specific parameters. -/
structure PumpSwapParams where
  /-- Liquidity pool address. -/
  pool : Pubkey
  /-- Base token mint address. -/
  baseMint : Pubkey
  /-- Quote token mint address. -/
  quoteMint : Pubkey
  /-- Pool base token account. -/
  poolBaseTokenAccount : Pubkey
  /-- Pool quote token account. -/
  poolQuoteTokenAccount : Pubkey
  /-- Base token reserves in the pool. -/
  poolBaseTokenReserves : UInt64
  /-- Quote token reserves in the pool. -/
  poolQuoteTokenReserves : UInt64
  /-- Coin creator vault ATA. -/
  coinCreatorVaultAta : Pubkey
  /-- Coin creator vault authority. -/
  coinCreatorVaultAuthority : Pubkey
  /-- Token program ID. -/
  baseTokenProgram : Pubkey
  /-- Quote token program ID. -/
  quoteTokenProgram : Pubkey
  /-- Whether the pool is in mayhem mode. -/
  isMayhemMode : Bool
  /-- Whether the pool's coin has cashback enabled. -/
  isCashbackCoin : Bool
  deriving DecidableEq

namespace PumpSwapParams

/-- Build parameters; mayhem mode is read off the fee recipient. -/
def new (pool baseMint quoteMint poolBaseTokenAccount poolQuoteTokenAccount : Pubkey)
    (poolBaseTokenReserves poolQuoteTokenReserves : UInt64)
    (coinCreatorVaultAta coinCreatorVaultAuthority baseTokenProgram quoteTokenProgram feeRecipient : Pubkey)
    (isCashbackCoin : Bool) : PumpSwapParams :=
  let isMayhemMode := feeRecipient = mayhemFeeRecipient
  { pool, baseMint, quoteMint, poolBaseTokenAccount, poolQuoteTokenAccount, poolBaseTokenReserves,
    poolQuoteTokenReserves, coinCreatorVaultAta, coinCreatorVaultAuthority, baseTokenProgram, quoteTokenProgram,
    isMayhemMode, isCashbackCoin }

/-- Build parameters from decoded trade data, without the node. -/
def fromTrade (pool baseMint quoteMint poolBaseTokenAccount poolQuoteTokenAccount : Pubkey)
    (poolBaseTokenReserves poolQuoteTokenReserves : UInt64)
    (coinCreatorVaultAta coinCreatorVaultAuthority baseTokenProgram quoteTokenProgram feeRecipient : Pubkey)
    (isCashbackCoin : Bool) : PumpSwapParams :=
  new pool baseMint quoteMint poolBaseTokenAccount poolQuoteTokenAccount poolBaseTokenReserves
    poolQuoteTokenReserves coinCreatorVaultAta coinCreatorVaultAuthority baseTokenProgram quoteTokenProgram
    feeRecipient isCashbackCoin

/-- The token program of a mint, told by whether the pool's account is the one the Token program
would have. -/
def tokenProgramOf (d : Derivation) (poolAddress mint poolTokenAccount : Pubkey) : Pubkey :=
  if poolTokenAccount = getAssociatedTokenAddressWithProgramId d poolAddress mint tokenProgram then tokenProgram
  else tokenProgram2022

/-- Build parameters from a decoded pool, fetching its balances. -/
def fromPoolData (d : Derivation) (rpc : Rpc) (poolAddress : Pubkey) (poolData : Pool) :
    Result PumpSwapParams := do
  let (poolBaseTokenReserves, poolQuoteTokenReserves) ← getTokenBalances poolData rpc
  let creator := poolData.coinCreator
  return {
    pool := poolAddress
    baseMint := poolData.baseMint
    quoteMint := poolData.quoteMint
    poolBaseTokenAccount := poolData.poolBaseTokenAccount
    poolQuoteTokenAccount := poolData.poolQuoteTokenAccount
    poolBaseTokenReserves
    poolQuoteTokenReserves
    coinCreatorVaultAta := Sdk.coinCreatorVaultAta d creator poolData.quoteMint
    coinCreatorVaultAuthority := Sdk.coinCreatorVaultAuthority d creator
    baseTokenProgram := tokenProgramOf d poolAddress poolData.baseMint poolData.poolBaseTokenAccount
    isCashbackCoin := poolData.isCashbackCoin
    quoteTokenProgram := tokenProgramOf d poolAddress poolData.quoteMint poolData.poolQuoteTokenAccount
    isMayhemMode := poolData.isMayhemMode }

/-- The parameters have the pool's mints. -/
theorem fromPoolData_mints {d : Derivation} {rpc : Rpc} {poolAddress : Pubkey} {poolData : Pool}
    {params : PumpSwapParams} (h : fromPoolData d rpc poolAddress poolData = .ok params) :
    params.baseMint = poolData.baseMint ∧ params.quoteMint = poolData.quoteMint := by
  obtain ⟨_, -, h⟩ := bind_eq_ok.mp h
  cases h
  exact ⟨rfl, rfl⟩

end PumpSwapParams

end PumpSwapBot.Sdk
