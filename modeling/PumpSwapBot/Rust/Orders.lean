import PumpSwapBot.Rust.Trader
import Mathlib.Logic.Equiv.Basic

/-!
# What the trader's orders come to

The trader hands its orders to the SDK and never looks inside. Here the orders are followed through
the SDK: to the parameters rebuilt from the kept data, to the accounts a trade touches, to the
channels it is submitted to and to the pool it trades on.

## What is proved

* `buildPumpswapParamsFromTradeInfo_fromPumpswapParams` — the parameters survive being kept exactly
  outside mayhem mode: the bot's constant for the fee recipient is not the SDK's.
* `balanceAccount_eq_iff` — the balance a sell reads is that of the account traded exactly under the
  Token program.
* `sellReaches_of_buyReaches_iff` — a bot that can submit buys can submit sells exactly when it is not
  on Jito alone.
* `fetchTradeInfoWithRetry_mints_iff` — which pools give trade data for the mint asked for.
-/

namespace PumpSwapBot.Rust

open PumpSwapBot.Sdk PumpSwapBot.Library

/-! ### A wallet and a pool -/

/-- A wallet. -/
def sampleWallet : Pubkey := pubkey "9WzDXwBbmkg8ZTbNMqUxvQRAyrZzDsGYdLVL9zYtAWWM"

/-- A mint of the Token-2022 program. -/
def sampleMint : Pubkey := pubkey "2b1kV6DkPAnxd5ixfnxCpjxmKwqjjaYmCZfHsFu24GXo"

/-- What its canonical pool looks like, quoted in wrapped SOL. -/
def sampleInfo : TradeInfo where
  pool := pubkey "DxPjMpHNRBZEySaVW2vmGpiktGirBDhCDPVWiej3Wwsy"
  baseMint := sampleMint
  quoteMint := wsolTokenAccount
  poolBaseTokenAccount := pubkey "6UBCtA6hoVYG8x78SBYXT32o2dPbW5nbcE1TrPN1LgZm"
  poolQuoteTokenAccount := pubkey "75xP12ocHNmcHTxygmf4siPjKk1z3mmCeoj58xB4a39n"
  poolBaseTokenReserves := 200000000000
  poolQuoteTokenReserves := 100000000000
  coinCreatorVaultAta := pubkey "Ei6iux5MMYG8JxCTr58goADqFTtMroL9TXJityF3fAQc"
  coinCreatorVaultAuthority := defaultCoinCreatorVaultAuthority
  baseTokenProgram := tokenProgram2022
  quoteTokenProgram := tokenProgram
  feeRecipient := Pubkey.default
  isCashbackCoin := false
  isMayhemMode := false

/-- A pool of the mint against USDC, in which the mint is the quote. -/
def sampleOtherPool : Pubkey := pubkey "GRDUsSzcStGjxSyH9Z8D332Xz9TAeT2b8P5EbouquU5x"

/-- The token accounts of that pool. -/
def sampleOtherAccounts : Pubkey × Pubkey :=
  (pubkey "7ALp8RKdAz6FQaXuA3Wps8H67JuGNv6CHf5Sd28ywH3e", pubkey "m9jZuoM72hL8dJ8LtwBF4PiC5wAQLPkewuRajqWzw8f")

/-- The creator of the mint's canonical pool. -/
def samplePoolAuthority : Pubkey := pubkey "529SeNo3hggCUMfhs7tLP8jC6Zajn1zLBAe9u9JGTobh"

/-- The associated token accounts of owners for mints, under the Token program and under Token-2022. -/
def sampleTable : List ((Pubkey × Pubkey) × Pubkey × Pubkey) :=
  [((sampleWallet, sampleMint),
      pubkey "FmhJoVUEFyAg8M4AYT9FpWdiKyH3Rtd1iq5hcPuuKdDP", pubkey "897krAvWH3RbymaCYE3o9emopUwocieHuKTUk9nySpq6"),
   ((sampleWallet, wsolTokenAccount),
      pubkey "8LjUgMjzZuHj8VdyxzkmLLQVmW4C3gd56md1nLd76TNW", pubkey "DSEcUmCSeNX75D53mJSj2kxvbJYSoAxcLfVcEifzuTV1"),
   ((feeRecipient, wsolTokenAccount),
      pubkey "94qWNrtmfn42h3ZjUZwWvK1MEo9uVmmrBPd2hpNjYDjb", pubkey "2tZUDAsQqirqn1pdnYBVM7pDao57zsTSUspuFD2tAwTS"),
   ((sampleInfo.pool, sampleMint),
      pubkey "2HpgU3Uyp9AFd17mQbup2RrvA93wgbT55whA1yQo45T5", sampleInfo.poolBaseTokenAccount),
   ((sampleInfo.pool, wsolTokenAccount),
      sampleInfo.poolQuoteTokenAccount, pubkey "HktBaTdEfbmY7hFCpdh6GtNTHQQegMw2uiNEvnrC7DjG"),
   ((defaultCoinCreatorVaultAuthority, wsolTokenAccount),
      sampleInfo.coinCreatorVaultAta, pubkey "CtzzHDfaH7NX6Zu6w5JpRiJRTctPVE5wMhqcnohx9mig"),
   ((sampleOtherPool, usdcTokenAccount),
      sampleOtherAccounts.1, pubkey "EnYjKBvSL6V2Ty52nvTcxLFt9dYg1ba1ThTSwefLoy4t"),
   ((sampleOtherPool, sampleMint),
      pubkey "8hmWYoQGgYM3ACd7EHM61ZRUD8Yehzs84KLqGrn5QLFa", sampleOtherAccounts.2),
   ((defaultCoinCreatorVaultAuthority, sampleMint),
      pubkey "4PC9Vq2jcYSmiTQKTc3sYZQjsMcQqTwUkKt6PTdhbENV", pubkey "2uKdZ3239E5s52MMg1C5RNCRXrYCkJS8kTKLHXk3wGLS")]

/-- The associated token accounts of an owner for a mint, as a permutation of addresses that takes a
token program to the account under it. -/
def sampleAccounts (owner mint : Pubkey) : Equiv.Perm Pubkey :=
  match sampleTable.lookup (owner, mint) with
  | some (account, account2022) =>
    (Equiv.swap tokenProgram account).trans (Equiv.swap tokenProgram2022 account2022)
  | none => Equiv.refl _

/-- The other addresses derived for the sample. -/
def sampleAddresses : List (List (List UInt8) × Pubkey) :=
  [([ascii "pool-v2", sampleMint.bytes], pubkey "E9ghJYZ23p62KTkDMwoELc151oEtLVk4kWr3U8XSdPCf"),
   ([ascii "user_volume_accumulator", sampleWallet.bytes], pubkey "3gG6bWCoLC64Komipfr4cTGwRhCWbsbkNBARhm5ksqm4"),
   ([ascii "pool-authority", sampleMint.bytes], samplePoolAuthority),
   ([ascii "pool", leBytes 2 0, samplePoolAuthority.bytes, sampleMint.bytes, wsolTokenAccount.bytes], sampleInfo.pool),
   ([ascii "creator_vault", Pubkey.default.bytes], defaultCoinCreatorVaultAuthority)]

/-- Address derivation on the seeds that the sample uses. -/
def sampleDerivation : Derivation where
  findProgramAddress seeds _ :=
    match seeds.map fun s => (readPubkey s).map Prod.fst with
    | [some owner, some program, some mint] => sampleAccounts owner mint program
    | _ => (sampleAddresses.lookup seeds).getD Pubkey.default
  createWithSeed _ _ _ := .error (anyhow "Length of the seed is too long for address generation")

/-- The builder's surroundings for the sample. -/
def sampleEnv : Env where
  derivation := sampleDerivation
  profile := .release
  splTokenRent := 2039280
  splToken2022Rent := 2074080
  createAccountWithSeed _ account _ _ _ _ owner := ⟨systemProgram, [.new account false], owner.bytes⟩
  mayhemChoice := 0

/-- A configuration, with Jito or without. -/
def sampleConfig (jitoEnabled : Bool) : BotConfig where
  rpcUrl := "http://127.0.0.1:8899"
  buyAmountSol := 1 / 100
  slippageBps := 500
  jitoEnabled := jitoEnabled

/-- A channel that connects. -/
def sampleReady : InitOutcome := .ready (.ok "96gYZGLnJYVFmbjzopPSU6QiEV5fGqZNyN9nmNhvrZU5")

/-- A block hash. -/
def sampleHash : Hash := List.replicate 32 7

/-- A node that finds nothing. -/
def sampleRpc : Rpc where
  getAccount address := .error (anyhow ("AccountNotFound: pubkey=" ++ address.toText))
  getProgramAccounts _ _ _ := .ok []
  timedOut _ := false
  getTokenAccountBalance _ := .error (anyhow "could not find account")

/-- A funded wallet that holds some of the token, and trades that succeed. -/
def sampleAnswers : Answers where
  rpc _ := sampleRpc
  walletBalance := .ok 1000000000
  tokenBalance _ := .ok "5000000"
  blockhash := .ok sampleHash
  buy _ := .ok (true, ["signature"], none)
  sell _ := .ok (true, ["signature"], none)

theorem readPubkey_bytes (k : Pubkey) : readPubkey k.bytes = some (k, []) := by
  have h := k.length_eq
  simp [readPubkey, h, List.take_of_length_le, List.drop_eq_nil_of_le]

theorem getAssociatedTokenAddress_sample (wallet mint : Pubkey) :
    getAssociatedTokenAddressWithProgramId sampleDerivation wallet mint = sampleAccounts wallet mint := by
  funext program
  simp [getAssociatedTokenAddressWithProgramId, sampleDerivation, readPubkey_bytes]

/-! ### Keeping the parameters -/

/-- **The parameters survive being kept exactly outside mayhem mode.** In mayhem mode the flag is lost:
it is read off the fee recipient, for which the bot and the SDK have different constants. -/
theorem buildPumpswapParamsFromTradeInfo_fromPumpswapParams (p : PumpSwapParams) :
    buildPumpswapParamsFromTradeInfo (TradeInfo.fromPumpswapParams p) = p ↔ p.isMayhemMode = false := by
  have hswap : mayhemFeeRecipientSwap ≠ mayhemFeeRecipient := by decide +kernel
  have hdefault : Pubkey.default ≠ mayhemFeeRecipient := by decide +kernel
  -- Every field is copied but the flag, which comes out `false` whichever of the two it was.
  have h : buildPumpswapParamsFromTradeInfo (TradeInfo.fromPumpswapParams p) = { p with isMayhemMode := false } := by
    rcases hm : p.isMayhemMode <;>
      simp [buildPumpswapParamsFromTradeInfo, TradeInfo.fromPumpswapParams, PumpSwapParams.fromTrade,
        PumpSwapParams.new, hm, hswap, hdefault]
  rw [h]
  constructor
  · intro heq
    rw [← heq]
  · intro hm
    rw [← hm]

/-- Mayhem mode is lost. -/
theorem mayhemMode_lost :
    let p := { buildPumpswapParamsFromTradeInfo sampleInfo with isMayhemMode := true }
    buildPumpswapParamsFromTradeInfo (TradeInfo.fromPumpswapParams p) = { p with isMayhemMode := false } ∧
      buildPumpswapParamsFromTradeInfo (TradeInfo.fromPumpswapParams p) ≠ p := by
  decide +kernel

/-! ### The account a sell reads -/

section Orders

variable (config : BotConfig) (payer : Pubkey) (outcome : SwqosConfig → InitOutcome) (fallback : InitOutcome)

/-- The trade of a buy order. -/
def buyTrade (info : TradeInfo) (solAmount : UInt64) (hash : Hash) : SwapParams :=
  let t := Trader.newWithOptions config payer outcome fallback
  t.client.buySwapParams (t.buyParams info solAmount hash)

/-- The trade of a sell order. -/
def sellTrade (info : TradeInfo) (tokenBalance : UInt64) (hash : Hash) : SwapParams :=
  let t := Trader.newWithOptions config payer outcome fallback
  t.client.sellSwapParams (t.sellParams info tokenBalance hash)

theorem exists_of_isOk {ε α : Type} {r : Except ε α} (h : r.isOk = true) : ∃ a, r = .ok a := by
  rcases r with _ | a
  · cases h
  · exact ⟨a, rfl⟩

theorem exists_of_map_eq_ok {ε α β : Type} {r : Except ε α} {f : α → β} {b : β} (h : r.map f = .ok b) :
    ∃ a, r = .ok a ∧ f a = b := by
  rcases r with _ | a
  · cases h
  · exact ⟨a, rfl, Except.ok.inj h⟩

section SampleTrades

variable (jitoEnabled : Bool)

/-- The trader of the sample. -/
abbrev sampleTrader : Trader :=
  .newWithOptions (sampleConfig jitoEnabled) sampleWallet (fun _ => sampleReady) sampleReady

theorem buildBuyInstructions_sample :
    ∃ ixs, buildBuyInstructions sampleEnv (buyTrade (sampleConfig jitoEnabled) sampleWallet (fun _ => sampleReady)
      sampleReady sampleInfo 10000000 sampleHash) = .ok ixs :=
  exists_of_isOk (by cases jitoEnabled <;> decide +kernel)

theorem buildSellInstructions_sample :
    ∃ ixs, buildSellInstructions sampleEnv (sellTrade (sampleConfig jitoEnabled) sampleWallet (fun _ => sampleReady)
      sampleReady sampleInfo 5000000 sampleHash) = .ok ixs :=
  exists_of_isOk (by cases jitoEnabled <;> decide +kernel)

theorem getTokenBalance_sample :
    (sampleTrader jitoEnabled).getTokenBalance sampleEnv sampleAnswers sampleInfo.baseMint = 5000000 := by
  cases jitoEnabled <;> decide +kernel

end SampleTrades

variable {config payer outcome fallback} {e : Env}

/-- **The balance a sell reads is that of the account traded exactly under the Token program.** The buy
credits and the sell debits the account under the base token's own program; the balance is read under
the Token program. -/
theorem balanceAccount_eq_iff {info : TradeInfo} {solAmount tokenBalance : UInt64} {hash hash' : Hash}
    {buyIxs sellIxs : List Instruction} (hinj : e.derivation.InjectiveInProgram)
    (hbuy : buildBuyInstructions e (buyTrade config payer outcome fallback info solAmount hash) = .ok buyIxs)
    (hsell : buildSellInstructions e (sellTrade config payer outcome fallback info tokenBalance hash') = .ok sellIxs) :
    ∃ buyData buyIx sellData sellIx, buyIx ∈ buyIxs ∧ sellIx ∈ sellIxs ∧
      IsTrade e (buyTrade config payer outcome fallback info solAmount hash) buyData buyIx ∧
      IsTrade e (sellTrade config payer outcome fallback info tokenBalance hash') sellData sellIx ∧
      let read := (Trader.newWithOptions config payer outcome fallback).balanceAccount e info.baseMint
      ((buyIx.accounts[5]?.map AccountMeta.pubkey = some read ∧
          sellIx.accounts[5]?.map AccountMeta.pubkey = some read) ↔
        info.baseTokenProgram = tokenProgram) := by
  obtain ⟨-, buyData, buyIx, -, -, hbmem, hb⟩ := buildBuyInstructions_trade rfl hbuy
  obtain ⟨-, amounts, sellIx, -, -, hsmem, hs⟩ := buildSellInstructions_trade rfl hsell
  refine ⟨buyData, buyIx, _, sellIx, hbmem, hsmem, hb, hs, ?_⟩
  intro read
  rw [hb.userBase, hs.userBase, Option.map_some, Option.map_some, Option.some_inj, Option.some_inj]
  constructor
  · rintro ⟨h, -⟩
    exact hinj payer info.baseMint h
  · intro h
    exact ⟨congrArg (getAssociatedTokenAddressWithProgramId e.derivation payer info.baseMint) h,
      congrArg (getAssociatedTokenAddressWithProgramId e.derivation payer info.baseMint) h⟩

/-- The sample is traded, and its balance is read from another account. -/
theorem balanceAccount_sample :
    ∃ buyIxs sellIxs,
      buildBuyInstructions sampleEnv (buyTrade (sampleConfig false) sampleWallet (fun _ => sampleReady)
        sampleReady sampleInfo 10000000 sampleHash) = .ok buyIxs ∧
      buildSellInstructions sampleEnv (sellTrade (sampleConfig false) sampleWallet (fun _ => sampleReady)
        sampleReady sampleInfo 5000000 sampleHash) = .ok sellIxs ∧
      ∃ buyIx ∈ buyIxs, ∃ sellIx ∈ sellIxs,
        let read := (Trader.newWithOptions (sampleConfig false) sampleWallet (fun _ => sampleReady)
          sampleReady).balanceAccount sampleEnv sampleMint
        ¬ (buyIx.accounts[5]?.map AccountMeta.pubkey = some read ∧
          sellIx.accounts[5]?.map AccountMeta.pubkey = some read) := by
  have hinj : sampleEnv.derivation.InjectiveInProgram := fun wallet mint => by
    show Function.Injective (getAssociatedTokenAddressWithProgramId sampleDerivation wallet mint)
    rw [getAssociatedTokenAddress_sample]
    exact Equiv.injective _
  obtain ⟨buyIxs, hbuy⟩ := buildBuyInstructions_sample false
  obtain ⟨sellIxs, hsell⟩ := buildSellInstructions_sample false
  obtain ⟨-, buyIx, -, sellIx, hb, hs, -, -, hiff⟩ := balanceAccount_eq_iff hinj hbuy hsell
  refine ⟨buyIxs, sellIxs, hbuy, hsell, buyIx, hb, sellIx, hs, ?_⟩
  intro read h
  exact absurd (hiff.mp h) (by decide +kernel)

/-- At the chain's own addresses: the account read is not the one that a buy of the sample credits and a
sell of it debits. -/
theorem balanceAccount_token2022 :
    ∃ buyIxs sellIxs,
      buildBuyInstructions sampleEnv (buyTrade (sampleConfig false) sampleWallet (fun _ => sampleReady)
        sampleReady sampleInfo 10000000 sampleHash) = .ok buyIxs ∧
      buildSellInstructions sampleEnv (sellTrade (sampleConfig false) sampleWallet (fun _ => sampleReady)
        sampleReady sampleInfo 5000000 sampleHash) = .ok sellIxs ∧
      let traded := pubkey "897krAvWH3RbymaCYE3o9emopUwocieHuKTUk9nySpq6"
      let read := pubkey "FmhJoVUEFyAg8M4AYT9FpWdiKyH3Rtd1iq5hcPuuKdDP"
      (buyIxs.filter fun ix => ix.programId = ammProgram).map (fun ix => ix.accounts[5]?.map AccountMeta.pubkey) =
          [some traded] ∧
        (sellIxs.filter fun ix => ix.programId = ammProgram).map (fun ix => ix.accounts[5]?.map AccountMeta.pubkey) =
          [some traded] ∧
        (Trader.newWithOptions (sampleConfig false) sampleWallet (fun _ => sampleReady) sampleReady).balanceAccount
          sampleEnv sampleMint = read ∧
        read ≠ traded := by
  refine ⟨_, _, rfl, rfl, ?_⟩
  decide +kernel

/-! ### The channels of an order -/

/-- The bot is on Jito alone: it is enabled, and it connects. -/
def JitoAlone (config : BotConfig) (outcome : SwqosConfig → InitOutcome) : Prop :=
  config.jitoEnabled = true ∧ ∃ tipAccount, outcome (jitoConfig config) = .ready tipAccount

/-- The channels of the bot's SDK instance. -/
abbrev channels (config : BotConfig) (outcome : SwqosConfig → InitOutcome) (fallback : InitOutcome) :
    List SwqosClient :=
  tradingInfrastructure config.rpcUrl (swqosConfigs config) outcome fallback

theorem channels_eq (config : BotConfig) (outcome : SwqosConfig → InitOutcome) (fallback : InitOutcome) :
    channels config outcome fallback =
      let configured := if config.jitoEnabled then jitoConfig config else .default config.rpcUrl
      match getSwqosClient configured (outcome configured) with
      | some client => [client]
      | none => (getSwqosClient (.default config.rpcUrl) fallback).toList := by
  unfold channels swqosConfigs
  split_ifs <;> exact tradingInfrastructure_single rfl

theorem channels_of_jitoAlone (fallback : InitOutcome) (h : JitoAlone config outcome) :
    ∃ c, channels config outcome fallback = [c] ∧ c.swqosType = .jito := by
  obtain ⟨hj, tipAccount, ho⟩ := h
  rw [channels_eq, if_pos hj]
  dsimp only
  rw [ho]
  exact ⟨_, rfl, rfl⟩

theorem channels_of_not_jitoAlone (fallback : InitOutcome) (h : ¬ JitoAlone config outcome) :
    channels config outcome fallback = [] ∨
      ∃ c, channels config outcome fallback = [c] ∧ c.swqosType = .default := by
  rw [channels_eq]
  dsimp only
  split
  · next client hc =>
    -- Were this Jito, the bot would be on Jito alone.
    obtain ⟨htype, tipAccount, ho⟩ := getSwqosClient_eq_some hc
    refine Or.inr ⟨client, rfl, htype.trans ?_⟩
    split_ifs at ho ⊢ with hj
    · exact absurd ⟨hj, tipAccount, ho⟩ h
    · rfl
  · rcases hf : getSwqosClient (.default config.rpcUrl) fallback with _ | client
    · exact Or.inl rfl
    · exact Or.inr ⟨client, rfl, (getSwqosClient_eq_some hf).1⟩

/-- The trader's buy calls the SDK, which submits it. -/
def BuyReaches (e : Env) (t : Trader) (a : Answers) (info : TradeInfo) (solAmount : UInt64) : Prop :=
  ∃ params result, (t.buy a info solAmount).1.call = some (params, result) ∧
    Submits e (t.client.buySwapParams params)

/-- The trader's sell calls the SDK, which submits it. -/
def SellReaches (e : Env) (t : Trader) (a : Answers) (info : TradeInfo) : Prop :=
  ∃ params result, (t.sell e a info).call = some (params, result) ∧ Submits e (t.client.sellSwapParams params)

/-- A buy that is built is submitted through a single channel, whichever it is. -/
theorem submits_buyTrade {info : TradeInfo} {solAmount : UInt64} {hash : Hash} {ixs : List Instruction}
    {c : SwqosClient} (hbuy : buildBuyInstructions e (buyTrade config payer outcome fallback info solAmount hash) = .ok ixs)
    (hc : channels config outcome fallback = [c]) :
    Submits e (buyTrade config payer outcome fallback info solAmount hash) := by
  obtain ⟨-, -, ix, -, -, hmem, -⟩ := buildBuyInstructions_trade rfl hbuy
  obtain ⟨fee, hfee⟩ := (GasFeeStrategy.entries_setGlobalFeeStrategy .new 150000 150000 500000 500000 (1 / 10000)
    (1 / 10000) c.swqosType).1
  exact ⟨ixs, _, hbuy, List.ne_nil_of_mem hmem, submitTasks_of_single hc rfl hfee (Or.inl rfl), List.cons_ne_nil _ _⟩

/-- A sell that is built is submitted through the plain RPC. -/
theorem submits_sellTrade {info : TradeInfo} {tokenBalance : UInt64} {hash : Hash} {ixs : List Instruction}
    {c : SwqosClient}
    (hsell : buildSellInstructions e (sellTrade config payer outcome fallback info tokenBalance hash) = .ok ixs)
    (hc : channels config outcome fallback = [c]) (hdefault : c.swqosType = .default) :
    Submits e (sellTrade config payer outcome fallback info tokenBalance hash) := by
  obtain ⟨-, -, ix, -, -, hmem, -⟩ := buildSellInstructions_trade rfl hsell
  obtain ⟨fee, hfee⟩ := (GasFeeStrategy.entries_setGlobalFeeStrategy .new 150000 150000 500000 500000 (1 / 10000)
    (1 / 10000) c.swqosType).2
  exact ⟨ixs, _, hsell, List.ne_nil_of_mem hmem, submitTasks_of_single hc rfl hfee (Or.inr hdefault),
    List.cons_ne_nil _ _⟩

/-- Nothing is submitted without a channel. -/
theorem not_submits_of_nil {params : SwapParams} (h : params.swqosClients = []) : ¬ Submits e params := by
  rintro ⟨-, tasks, -, -, htasks, -⟩
  obtain ⟨_, hne, -⟩ := bind_eq_ok.mp htasks
  exact bailIf_eq_ok.mp hne h

/-- No sell is submitted on Jito alone. -/
theorem not_submits_sellTrade {info : TradeInfo} {tokenBalance : UInt64} {hash : Hash}
    (hj : JitoAlone config outcome) : ¬ Submits e (sellTrade config payer outcome fallback info tokenBalance hash) := by
  obtain ⟨c, hc, hjito⟩ := channels_of_jitoAlone fallback hj
  rintro ⟨-, tasks, -, -, htasks, -⟩
  refine submitTasks_ne_ok ?_ htasks
  intro c' hc'
  have hmem : c' ∈ channels config outcome fallback := hc'
  rw [hc, List.mem_singleton] at hmem
  rw [hmem, hjito]
  decide

/-- **A bot that can submit a buy can submit the sell exactly when it is not on Jito alone.** A sell is
sent without a tip, and without a tip the SDK sends through the plain RPC only. -/
theorem sellReaches_of_buyReaches_iff {a a' : Answers} {info : TradeInfo} {solAmount balance : UInt64}
    {hash hash' : Hash} {buyIxs sellIxs : List Instruction} (hb : a.walletBalance = .ok balance)
    (hle : Trader.requiredBalance solAmount ≤ balance) (hh : a.blockhash = .ok hash)
    (hbal : (Trader.newWithOptions config payer outcome fallback).getTokenBalance e a' info.baseMint ≠ 0)
    (hh' : a'.blockhash = .ok hash')
    (hbuy : buildBuyInstructions e (buyTrade config payer outcome fallback info solAmount hash) = .ok buyIxs)
    (hsell : buildSellInstructions e (sellTrade config payer outcome fallback info
      ((Trader.newWithOptions config payer outcome fallback).getTokenBalance e a' info.baseMint) hash') =
        .ok sellIxs) :
    (BuyReaches e (Trader.newWithOptions config payer outcome fallback) a info solAmount →
        SellReaches e (Trader.newWithOptions config payer outcome fallback) a' info) ↔
      ¬ JitoAlone config outcome := by
  have hbuyCall := Trader.buy_call (Trader.newWithOptions config payer outcome fallback) info hb hle hh
  have hsellCall := Trader.sell_call hbal hh'
  constructor
  · intro himp hj
    obtain ⟨c, hc, -⟩ := channels_of_jitoAlone fallback hj
    obtain ⟨params, _, hcall, hsubmits⟩ := himp ⟨_, _, hbuyCall, submits_buyTrade hbuy hc⟩
    rw [hsellCall] at hcall
    cases hcall
    exact not_submits_sellTrade hj hsubmits
  · rintro hj ⟨params, _, hcall, hsubmits⟩
    refine ⟨_, _, hsellCall, ?_⟩
    rcases channels_of_not_jitoAlone fallback hj with hnil | ⟨c, hc, hdefault⟩
    · exact absurd hsubmits (not_submits_of_nil hnil)
    · exact submits_sellTrade hsell hc hdefault

/-- With the plain RPC the sample's sell is submitted. -/
theorem sellReaches_sample :
    ¬ JitoAlone (sampleConfig false) (fun _ => sampleReady) ∧
      (BuyReaches sampleEnv (sampleTrader false) sampleAnswers sampleInfo 10000000 →
        SellReaches sampleEnv (sampleTrader false) sampleAnswers sampleInfo) := by
  have hj : ¬ JitoAlone (sampleConfig false) (fun _ => sampleReady) := fun h => Bool.false_ne_true h.1
  obtain ⟨buyIxs, hbuy⟩ := buildBuyInstructions_sample false
  obtain ⟨sellIxs, hsell⟩ := buildSellInstructions_sample false
  rw [← getTokenBalance_sample false] at hsell
  refine ⟨hj, (sellReaches_of_buyReaches_iff rfl (by decide) rfl ?_ rfl hbuy hsell).mpr hj⟩
  rw [getTokenBalance_sample false]
  decide

/-- On Jito alone the sample is bought and its sell is refused. -/
theorem not_sellReaches_jito :
    BuyReaches sampleEnv (sampleTrader true) sampleAnswers sampleInfo 10000000 ∧
      (sampleTrader true).getTokenBalance sampleEnv sampleAnswers sampleInfo.baseMint = 5000000 ∧
      ¬ SellReaches sampleEnv (sampleTrader true) sampleAnswers sampleInfo := by
  have hj : JitoAlone (sampleConfig true) fun _ => sampleReady := ⟨rfl, _, rfl⟩
  obtain ⟨c, hc, -⟩ := channels_of_jitoAlone sampleReady hj
  obtain ⟨buyIxs, hbuy⟩ := buildBuyInstructions_sample true
  have hbal := getTokenBalance_sample true
  have hne : (sampleTrader true).getTokenBalance sampleEnv sampleAnswers sampleInfo.baseMint ≠ 0 := by
    rw [hbal]
    decide
  have hcall := Trader.sell_call hne rfl
  refine ⟨⟨_, _, Trader.buy_call (sampleTrader true) sampleInfo rfl (by decide) rfl, submits_buyTrade hbuy hc⟩, hbal, ?_⟩
  rintro ⟨params, _, hcall', hsubmits⟩
  rw [hcall] at hcall'
  cases hcall'
  exact not_submits_sellTrade hj hsubmits

end Orders

/-! ### The pool of a mint -/

/-- The orders for the data are orders for the mint, against wrapped SOL. -/
structure TradesMint (t : Trader) (info : TradeInfo) (mint : Pubkey) : Prop where
  /-- The two mints of the data. -/
  mints : ({info.baseMint, info.quoteMint} : Set Pubkey) = {mint, wsolTokenAccount}
  /-- The mint a buy is for. -/
  buy : ∀ solAmount hash, (t.buyParams info solAmount hash).mint = mint
  /-- The mint a sell is for. -/
  sell : ∀ tokenBalance hash, (t.sellParams info tokenBalance hash).mint = mint
  /-- The account whose balance is sold. -/
  balance : ∀ e, t.balanceAccount e info.baseMint = t.balanceAccount e mint

/-- What the lookup comes to is a pool of the mint against wrapped SOL: one of the first three steps finds
a pool and it is quoted in wrapped SOL. (If only the search for the mint as quote finds one, it is wrapped
SOL against itself.) -/
def FindsWsolPool (d : Derivation) (rpc : Rpc) (mint : Pubkey) : Prop :=
  (∃ r, poolOfBase d rpc mint = some r ∧ r.2.quoteMint = wsolTokenAccount) ∨
    (poolOfBase d rpc mint = none ∧ mint = wsolTokenAccount ∧
      ∃ r, deepest rpc 75 mint = some r ∧ r.2.baseMint = wsolTokenAccount)

theorem pair_left_eq_iff {α : Type} {m q w : α} : ({m, q} : Set α) = {m, w} ↔ q = w := by
  constructor
  · intro h
    have hw : w ∈ ({m, q} : Set α) := h ▸ Set.mem_insert_of_mem m rfl
    have hq : q ∈ ({m, w} : Set α) := h ▸ Set.mem_insert_of_mem m rfl
    rcases hw with rfl | hw
    · rcases hq with hq | hq <;> exact hq
    · exact hw.symm
  · rintro rfl
    rfl

theorem tradesMint_iff {t : Trader} {info : TradeInfo} {mint : Pubkey} :
    TradesMint t info mint ↔ info.baseMint = mint ∧ info.quoteMint = wsolTokenAccount := by
  constructor
  · rintro ⟨hmints, hbuy, -, -⟩
    obtain rfl : info.baseMint = mint := hbuy 0 []
    exact ⟨rfl, pair_left_eq_iff.mp hmints⟩
  · rintro ⟨rfl, hq⟩
    exact ⟨pair_left_eq_iff.mpr hq, fun _ _ => rfl, fun _ _ => rfl, fun _ => rfl⟩

/-- **Which pools give data for the mint asked for.** The data come from one attempt, the first that
succeeds; their orders are for the mint exactly if the node's answers to that attempt lead to a pool
of the mint against wrapped SOL. -/
theorem fetchTradeInfoWithRetry_mints_iff {e : Env} {t : Trader} {rpc : ℕ → Rpc} {mint : Pubkey} {info : TradeInfo}
    (hf : ∀ i, (rpc i).HonoursFilters) (h : t.fetchTradeInfoWithRetry e rpc mint = .ok info) :
    ∃ i < t.maxRetries.toNat, Trader.attemptFetch e (rpc i) mint = .ok (.ok info) ∧
      (∀ j < i, ∃ err, Trader.attemptFetch e (rpc j) mint = .ok (.error err)) ∧
      (TradesMint t info mint ↔ FindsWsolPool e.derivation (rpc i) mint) := by
  obtain ⟨i, hi, hok, hbefore⟩ := Trader.fetchTradeInfoWithRetry_eq_ok h
  refine ⟨i, hi, hok, hbefore, ?_⟩
  obtain ⟨r, params, hfound, hparams, rfl⟩ := Trader.attemptFetch_eq_ok hok
  obtain ⟨hbase, hquote⟩ := PumpSwapParams.fromPoolData_mints hparams
  rw [tradesMint_iff]
  show params.baseMint = mint ∧ params.quoteMint = wsolTokenAccount ↔ _
  rw [hbase, hquote]
  unfold FindsWsolPool
  rcases findByMint_ok hfound with hpool | ⟨hnone, hdeepest⟩
  · simp [hpool, baseMint_of_poolOfBase (hf i) hpool]
  · -- The mint is the pool's quote, so that it can be its base only if it is both.
    have hq := quoteMint_of_deepest (hf i) hdeepest
    simp only [hnone, hdeepest, hq, reduceCtorEq, false_and, exists_false, false_or, true_and, Option.some.injEq,
      exists_eq_left']
    constructor
    · rintro ⟨hb, hw⟩
      exact ⟨hw, hb.trans hw⟩
    · rintro ⟨hw, hb⟩
      exact ⟨hb.trans hw.symm, hw⟩

theorem findsWsolPool_of_map {d : Derivation} {rpc : Rpc} {mint : Pubkey}
    (h : (poolOfBase d rpc mint).map (fun r => r.2.quoteMint) = some wsolTokenAccount) : FindsWsolPool d rpc mint := by
  obtain ⟨r, hr, hq⟩ := Option.map_eq_some_iff.mp h
  exact Or.inl ⟨r, hr, hq⟩

/-- The account of a pool. -/
def samplePoolAccount (creator baseMint quoteMint baseAccount quoteAccount : Pubkey) : Account where
  owner := ammProgram
  data := List.replicate 8 0 ++ [255, 0, 0] ++ creator.bytes ++ baseMint.bytes ++ quoteMint.bytes
    ++ Pubkey.default.bytes ++ baseAccount.bytes ++ quoteAccount.bytes ++ leBytes 8 1000 ++ Pubkey.default.bytes
    ++ List.replicate 9 0

/-- A node that knows one pool. -/
def sampleNode (address : Pubkey) (pool : Account) : Rpc where
  getAccount a := if a = address then .ok pool else sampleRpc.getAccount a
  getProgramAccounts size offset mint :=
    .ok ([(address, pool)].filter fun a => a.2.data.length = size ∧ (a.2.data.drop offset).take 32 = mint.bytes)
  timedOut _ := false
  getTokenAccountBalance account :=
    .ok (if account = sampleInfo.poolBaseTokenAccount then "200000000000" else "100000000000")

/-- The node with the canonical pool of the mint. -/
def sampleCanonicalNode : Rpc :=
  sampleNode sampleInfo.pool (samplePoolAccount samplePoolAuthority sampleMint wsolTokenAccount
    sampleInfo.poolBaseTokenAccount sampleInfo.poolQuoteTokenAccount)

/-- The node with the pool in which the mint is the quote. -/
def sampleOtherNode : Rpc :=
  sampleNode sampleOtherPool (samplePoolAccount sampleWallet usdcTokenAccount sampleMint sampleOtherAccounts.1
    sampleOtherAccounts.2)

theorem sampleNode_honoursFilters (address : Pubkey) (pool : Account) : (sampleNode address pool).HonoursFilters := by
  intro size offset mint accounts h a ha
  cases h
  exact of_decide_eq_true (List.mem_filter.mp ha).2

/-- The canonical pool of the mint gives data for the mint. -/
theorem fetchTradeInfoWithRetry_sample :
    (sampleTrader false).fetchTradeInfoWithRetry sampleEnv (fun _ => sampleCanonicalNode) sampleMint = .ok sampleInfo ∧
      TradesMint (sampleTrader false) sampleInfo sampleMint := by
  have hf : ∀ i : ℕ, ((fun _ => sampleCanonicalNode) i).HonoursFilters := fun _ => sampleNode_honoursFilters _ _
  have h : (sampleTrader false).fetchTradeInfoWithRetry sampleEnv (fun _ => sampleCanonicalNode) sampleMint =
      .ok sampleInfo := by
    decide +kernel
  obtain ⟨_, -, -, -, hiff⟩ := fetchTradeInfoWithRetry_mints_iff hf h
  have hfinds : FindsWsolPool sampleEnv.derivation sampleCanonicalNode sampleMint :=
    findsWsolPool_of_map (by decide +kernel)
  exact ⟨h, hiff.mpr hfinds⟩

/-- A pool with the mint as quote gives data for the other mint, and a buy of it. -/
theorem fetchTradeInfoWithRetry_other_mint :
    sampleOtherNode.HonoursFilters ∧
      ∃ info, (sampleTrader false).fetchTradeInfoWithRetry sampleEnv (fun _ => sampleOtherNode) sampleMint = .ok info ∧
        info.baseMint = usdcTokenAccount ∧ info.quoteMint = sampleMint ∧
        ((sampleTrader false).buyParams info 10000000 sampleHash).mint = usdcTokenAccount ∧
        ¬ TradesMint (sampleTrader false) info sampleMint := by
  obtain ⟨info, h, hmints⟩ := exists_of_map_eq_ok (r := (sampleTrader false).fetchTradeInfoWithRetry sampleEnv
    (fun _ => sampleOtherNode) sampleMint) (f := fun info => (info.baseMint, info.quoteMint))
    (b := (usdcTokenAccount, sampleMint)) (by decide +kernel)
  obtain ⟨hbase, hquote⟩ := Prod.mk.inj hmints
  refine ⟨sampleNode_honoursFilters _ _, info, h, hbase, hquote, hbase, fun htrades => ?_⟩
  exact absurd (hbase.symm.trans (tradesMint_iff.mp htrades).1) (by decide +kernel)

end PumpSwapBot.Rust
