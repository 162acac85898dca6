import PumpSwapBot.Node.Trader
import PumpSwapBot.Rust.Orders

/-!
# The trade data of both bots

Both bots look for the pool of a mint, attempt after attempt, and keep data of the pool they find: the Node bot in
`fetchTradeInfoWithRetry` and `convertPoolToTradeInfo` of `trader.ts`, the Rust bot in `fetch_trade_info_with_retry` of
`trading.rs`, through `PumpSwapParams::from_pool_data` of the SDK.

## The model

* What the outside answers an attempt is the same for both: a pool or none, and its balances or none (`Attempt`). How it
  reaches each bot is `Mirrors`: no pool is an error in the Rust bot, and nothing or an exception in the Node bot; no
  balances are an error in the Rust bot, and `null` in the Node bot.
* The two loops are written once more with the number of attempts made beside the result (`fetchCounted`); without it
  they are the loops of the bots.

## What is proved

`fetchCounted_same_iff` — when both make the same attempts and come to the same: as long as no pool is found, the Rust
bot must not fail in computing its wait, and a pool that is found must have balances, and be one of which the derived
fields are those that the Node bot puts in their place.
-/

namespace PumpSwapBot.Node

open PumpSwapBot.Sdk PumpSwapBot.Library

/-- What the outside answers an attempt: the pool of the mint with its address, and the balances of its accounts. -/
structure Attempt where
  found : Option (Pubkey × Sdk.Pool)
  balances : Option (UInt64 × UInt64)

/-- A pool as the Node bot has it. -/
def ofSdkPool (pool : Sdk.Pool) : Pool where
  baseMint := pool.baseMint
  quoteMint := pool.quoteMint
  poolBaseTokenAccount := pool.poolBaseTokenAccount
  poolQuoteTokenAccount := pool.poolQuoteTokenAccount
  coinCreator := pool.coinCreator
  isMayhemMode := pool.isMayhemMode
  isCashbackCoin := pool.isCashbackCoin

/-- Both bots get these answers to their attempts. -/
structure Mirrors (e : Env) (rpc : ℕ → Rpc) (a : Answers) (mint : Pubkey) (attempts : ℕ → Attempt) : Prop where
  rustFound : ∀ i r, (attempts i).found = some r → findByMint e.derivation (rpc i) mint = .ok r
  rustNotFound : ∀ i, (attempts i).found = none → ∃ err, findByMint e.derivation (rpc i) mint = .error (.err err)
  rustBalances : ∀ i r balances, (attempts i).found = some r → (attempts i).balances = some balances →
    getTokenBalances r.2 (rpc i) = .ok balances
  rustNoBalances : ∀ i r, (attempts i).found = some r → (attempts i).balances = none →
    ∃ err, getTokenBalances r.2 (rpc i) = .error (.err err)
  nodeFound : ∀ i r, (attempts i).found = some r → a.findByMint i mint = .ok (some (r.1, ofSdkPool r.2))
  nodeNotFound : ∀ i, (attempts i).found = none →
    a.findByMint i mint = .ok none ∨ ∃ msg, a.findByMint i mint = .error msg
  nodeBalances : ∀ i r, (attempts i).found = some r →
    a.getTokenBalances i (ofSdkPool r.2) = .ok ((attempts i).balances.map fun b => (b.1.toNat, b.2.toNat))

/-! ### The loops with the number of attempts -/

/-- The attempts of the Node bot from one on, with the number made in the end. -/
def fetchCounted (t : Trader) (a : Answers) (mint : Pubkey) : ℕ → ℕ → Option String → Except String TradeInfo × ℕ
  | 0, attempt, lastError => (throw (t.fetchFailure lastError mint), attempt)
  | remaining + 1, attempt, _ =>
    match Trader.attemptFetch a attempt mint with
    | .ok tradeInfo => (.ok tradeInfo, attempt + 1)
    | .error e => fetchCounted t a mint remaining (attempt + 1) (some e)

/-- The attempts of the Rust bot from one on, with the number made in the end. -/
def rustFetchCounted (e : Env) (t : Rust.Trader) (rpc : ℕ → Rpc) (mint : Pubkey) :
    ℕ → ℕ → Option Error → Result Rust.TradeInfo × ℕ
  | 0, attempt, lastError => (bail (t.fetchFailure lastError mint), attempt)
  | remaining + 1, attempt, _ =>
    match Rust.Trader.attemptFetch e (rpc attempt) mint with
    | .ok (.ok info) => (.ok info, attempt + 1)
    | .ok (.error err) =>
      match Rust.Trader.retryDelay e t attempt remaining with
      | .ok _ => rustFetchCounted e t rpc mint remaining (attempt + 1) (some err)
      | .error f => (.error f, attempt + 1)
    | .error f => (.error f, attempt + 1)

section Loops

variable {e : Env} {t : Rust.Trader} {t' : Trader} {rpc : ℕ → Rpc} {a : Answers} {mint : Pubkey}

/-- Without the number it is the loop of the Node bot. -/
theorem fetchCounted_fst (remaining attempt : ℕ) (lastError : Option String) :
    (fetchCounted t' a mint remaining attempt lastError).1 = t'.fetchFrom a mint remaining attempt lastError := by
  induction remaining generalizing attempt lastError with
  | zero => rfl
  | succ remaining ih =>
    rw [fetchCounted, Trader.fetchFrom]
    rcases Trader.attemptFetch a attempt mint with msg | info
    · exact ih _ _
    · rfl

/-- Without the number it is the loop of the Rust bot. -/
theorem rustFetchCounted_fst (remaining attempt : ℕ) (lastError : Option Error) :
    (rustFetchCounted e t rpc mint remaining attempt lastError).1 =
      Rust.Trader.fetchFrom e t rpc mint remaining attempt lastError := by
  induction remaining generalizing attempt lastError with
  | zero => rfl
  | succ remaining ih =>
    rw [rustFetchCounted, Rust.Trader.fetchFrom]
    rcases Rust.Trader.attemptFetch e (rpc attempt) mint with f | err | info
    · rfl
    · rcases Rust.Trader.retryDelay e t attempt remaining with f | u
      · simp
      · simp [ih]
    · rfl

/-- With attempts left, another one is made. -/
theorem lt_fetchCounted_snd (remaining attempt : ℕ) (lastError : Option String) :
    attempt < (fetchCounted t' a mint (remaining + 1) attempt lastError).2 := by
  induction remaining generalizing attempt lastError with
  | zero =>
    rw [fetchCounted]
    split <;> simp [fetchCounted]
  | succ remaining ih =>
    rw [fetchCounted]
    split
    · simp
    · exact (Nat.lt_succ_self attempt).trans (ih _ _)

theorem lt_rustFetchCounted_snd (remaining attempt : ℕ) (lastError : Option Error) :
    attempt < (rustFetchCounted e t rpc mint (remaining + 1) attempt lastError).2 := by
  induction remaining generalizing attempt lastError with
  | zero =>
    rw [rustFetchCounted]
    split
    · simp
    · split <;> simp [rustFetchCounted]
    · simp
  | succ remaining ih =>
    rw [rustFetchCounted]
    split
    · simp
    · split
      · exact (Nat.lt_succ_self attempt).trans (ih _ _)
      · simp
    · simp

end Loops

/-! ### Attempts -/

/-- Trade data of both bots that are the same, but for the fee recipient. -/
structure SameData (info : Rust.TradeInfo) (info' : TradeInfo) : Prop where
  pool : info.pool = info'.pool
  baseMint : info.baseMint = info'.baseMint
  quoteMint : info.quoteMint = info'.quoteMint
  poolBaseTokenAccount : info.poolBaseTokenAccount = info'.poolBaseTokenAccount
  poolQuoteTokenAccount : info.poolQuoteTokenAccount = info'.poolQuoteTokenAccount
  poolBaseTokenReserves : info.poolBaseTokenReserves.toNat = info'.poolBaseTokenReserves
  poolQuoteTokenReserves : info.poolQuoteTokenReserves.toNat = info'.poolQuoteTokenReserves
  baseTokenProgram : info.baseTokenProgram = info'.baseTokenProgram
  quoteTokenProgram : info.quoteTokenProgram = info'.quoteTokenProgram
  coinCreatorVaultAuthority : info.coinCreatorVaultAuthority = info'.coinCreatorVaultAuthority
  coinCreatorVaultAta : info.coinCreatorVaultAta = info'.coinCreatorVaultAta
  isCashbackCoin : info.isCashbackCoin = info'.isCashbackCoin
  isMayhemMode : info.isMayhemMode = info'.isMayhemMode

/-- A pool of which the fields that the Rust bot derives are those that the Node bot puts in their place: the creator
itself as the authority of its vault, no account of the vault, and the Token program for both mints. -/
structure PlainPool (d : Derivation) (address : Pubkey) (pool : Sdk.Pool) : Prop where
  authority : Sdk.coinCreatorVaultAuthority d pool.coinCreator = pool.coinCreator
  ata : Sdk.coinCreatorVaultAta d pool.coinCreator pool.quoteMint = Pubkey.default
  baseProgram : PumpSwapParams.tokenProgramOf d address pool.baseMint pool.poolBaseTokenAccount = tokenProgram
  quoteProgram : PumpSwapParams.tokenProgramOf d address pool.quoteMint pool.poolQuoteTokenAccount = tokenProgram

/-- The wait after an attempt can be computed. -/
def WaitFits (e : Env) (t : Rust.Trader) (attempt : ℕ) : Prop :=
  e.profile = .release ∨ t.retryDelayMs.toNat * (attempt + 1) < 2 ^ 64

/-- From an attempt on, with so many left: no pool is found and the waits can be computed, up to the last attempt or up
to one that finds a pool, which then has balances and is a plain one. -/
def Alike (e : Env) (t : Rust.Trader) (attempts : ℕ → Attempt) : ℕ → ℕ → Prop
  | 0, _ => True
  | remaining + 1, attempt =>
    match (attempts attempt).found with
    | some r => (attempts attempt).balances ≠ none ∧ PlainPool e.derivation r.1 r.2
    | none => (remaining ≠ 0 → WaitFits e t attempt) ∧ Alike e t attempts remaining (attempt + 1)

/-- The same number of attempts, and failure of both or the same data. -/
def SameOutcome (rust : Result Rust.TradeInfo × ℕ) (node : Except String TradeInfo × ℕ) : Prop :=
  rust.2 = node.2 ∧ ((∃ f, rust.1 = .error f) ∧ (∃ msg, node.1 = .error msg) ∨
    ∃ info info', rust.1 = .ok info ∧ node.1 = .ok info' ∧ SameData info info')

section Attempts

variable {e : Env} {t : Rust.Trader} {t' : Trader} {rpc : ℕ → Rpc} {a : Answers} {mint : Pubkey}
  {attempts : ℕ → Attempt} {i : ℕ} {r : Pubkey × Sdk.Pool}

theorem Mirrors.node_not_found (h : Mirrors e rpc a mint attempts) (hnone : (attempts i).found = none) :
    ∃ msg, Trader.attemptFetch a i mint = .error msg := by
  obtain hfound | ⟨msg, hfound⟩ := h.nodeNotFound i hnone
  · exact ⟨_, by rw [Trader.attemptFetch, hfound]; rfl⟩
  · exact ⟨msg, by rw [Trader.attemptFetch, hfound]; rfl⟩

/-- The Node bot keeps a pool it has found, with balances or without. -/
theorem Mirrors.node_found (h : Mirrors e rpc a mint attempts) (hsome : (attempts i).found = some r) :
    Trader.attemptFetch a i mint = .ok (convertPoolToTradeInfo r.1 (ofSdkPool r.2)
      ((attempts i).balances.elim 0 fun b => b.1.toNat) ((attempts i).balances.elim 0 fun b => b.2.toNat)) := by
  rw [Trader.attemptFetch, h.nodeFound i r hsome]
  show (do
    let balances ← a.getTokenBalances i (ofSdkPool r.2)
    return convertPoolToTradeInfo r.1 (ofSdkPool r.2) (balances.elim 0 Prod.fst) (balances.elim 0 Prod.snd)) = _
  rw [h.nodeBalances i r hsome]
  rcases (attempts i).balances with _ | balances <;> rfl

theorem Mirrors.rust_not_found (h : Mirrors e rpc a mint attempts) (hnone : (attempts i).found = none) :
    ∃ err, Rust.Trader.attemptFetch e (rpc i) mint = .ok (.error err) := by
  obtain ⟨err, hfound⟩ := h.rustNotFound i hnone
  exact ⟨_, by rw [Rust.Trader.attemptFetch, hfound]; rfl⟩

/-- The Rust bot drops a pool without balances. -/
theorem Mirrors.rust_no_balances (h : Mirrors e rpc a mint attempts) (hsome : (attempts i).found = some r)
    (hnone : (attempts i).balances = none) : ∃ err, Rust.Trader.attemptFetch e (rpc i) mint = .ok (.error err) := by
  obtain ⟨err, hbalances⟩ := h.rustNoBalances i r hsome hnone
  refine ⟨anyhow err.msg, ?_⟩
  have hparams : PumpSwapParams.fromPoolData e.derivation (rpc i) r.1 r.2 = .error (.err err) := by
    rw [PumpSwapParams.fromPoolData, hbalances]
    rfl
  rw [Rust.Trader.attemptFetch, h.rustFound i r hsome]
  show (caught (PumpSwapParams.fromPoolData e.derivation (rpc i) r.1 r.2) >>= _) = _
  rw [hparams]
  rfl

/-- A pool with balances gives the same data exactly if it is a plain one. -/
theorem Mirrors.rust_found (h : Mirrors e rpc a mint attempts) (hsome : (attempts i).found = some r)
    {balances : UInt64 × UInt64} (hbalances : (attempts i).balances = some balances) :
    ∃ info, Rust.Trader.attemptFetch e (rpc i) mint = .ok (.ok info) ∧
      (SameData info (convertPoolToTradeInfo r.1 (ofSdkPool r.2) balances.1.toNat balances.2.toNat) ↔
        PlainPool e.derivation r.1 r.2) := by
  have hattempt : ∃ params, PumpSwapParams.fromPoolData e.derivation (rpc i) r.1 r.2 = .ok params ∧
      Rust.Trader.attemptFetch e (rpc i) mint = .ok (.ok (.fromPumpswapParams params)) := by
    refine ⟨_, by rw [PumpSwapParams.fromPoolData, h.rustBalances i r balances hsome hbalances]; rfl, ?_⟩
    rw [Rust.Trader.attemptFetch, h.rustFound i r hsome]
    show (caught (PumpSwapParams.fromPoolData e.derivation (rpc i) r.1 r.2) >>= _) = _
    rw [PumpSwapParams.fromPoolData, h.rustBalances i r balances hsome hbalances]
    rfl
  obtain ⟨params, hparams, hattempt⟩ := hattempt
  refine ⟨_, hattempt, ?_⟩
  rw [PumpSwapParams.fromPoolData, h.rustBalances i r balances hsome hbalances] at hparams
  cases hparams
  constructor
  · intro hsame
    exact ⟨hsame.coinCreatorVaultAuthority, hsame.coinCreatorVaultAta, hsame.baseTokenProgram, hsame.quoteTokenProgram⟩
  · intro hplain
    exact ⟨rfl, rfl, rfl, rfl, rfl, rfl, rfl, hplain.baseProgram, hplain.quoteProgram, hplain.authority, hplain.ata,
      rfl, rfl⟩

/-- The wait fails exactly if it overflows in a build that checks for it. -/
theorem retryDelay_cases (e : Env) (t : Rust.Trader) {attempt : ℕ} (remaining : ℕ) (hattempt : attempt + 1 < 2 ^ 64) :
    (remaining ≠ 0 → WaitFits e t attempt) ∧ Rust.Trader.retryDelay e t attempt remaining = .ok () ∨
      (remaining ≠ 0 ∧ ¬ WaitFits e t attempt) ∧ ∃ f, Rust.Trader.retryDelay e t attempt remaining = .error f := by
  simp only [Rust.Trader.retryDelay, WaitFits, mulU64, checkedU64]
  rw [toNat_asU64 hattempt]
  by_cases hremaining : remaining = 0
  · simp [hremaining]
  rw [if_neg hremaining]
  by_cases hfits : t.retryDelayMs.toNat * (attempt + 1) < 2 ^ 64
  · rw [if_pos hfits]
    exact Or.inl ⟨fun _ => Or.inr hfits, rfl⟩
  · rw [if_neg hfits]
    cases hprofile : e.profile with
    | dev => exact Or.inr ⟨⟨hremaining, fun h => h.elim (by simp) hfits⟩, _, rfl⟩
    | release => exact Or.inl ⟨fun _ => Or.inl rfl, rfl⟩

/-- One of them fails and the other does not. -/
theorem not_sameOutcome_of_ok {rust : Result Rust.TradeInfo × ℕ} {node : Except String TradeInfo × ℕ} {f : Failure}
    {info' : TradeInfo} (hrust : rust.1 = .error f) (hnode : node.1 = .ok info') : ¬ SameOutcome rust node := by
  rintro ⟨-, ⟨-, msg, hmsg⟩ | ⟨info, -, hinfo, -⟩⟩
  · rw [hnode] at hmsg
    cases hmsg
  · rw [hrust] at hinfo
    cases hinfo

/-- After as many attempts with data of both, the data decide. -/
theorem sameOutcome_ok_iff {info : Rust.TradeInfo} {info' : TradeInfo} {n : ℕ} :
    SameOutcome (.ok info, n) (.ok info', n) ↔ SameData info info' := by
  constructor
  · rintro ⟨-, ⟨⟨f, hf⟩, -⟩ | ⟨info₁, info₂, hinfo₁, hinfo₂, hdata⟩⟩
    · cases hf
    · cases hinfo₁
      cases hinfo₂
      exact hdata
  · exact fun hdata => ⟨rfl, Or.inr ⟨info, info', rfl, rfl, hdata⟩⟩

/-- At a pool without balances the Node bot ends, and the Rust bot makes another attempt or fails. -/
theorem Mirrors.not_same_of_no_balances (h : Mirrors e rpc a mint attempts) {remaining attempt : ℕ}
    (hattempt : attempt + 1 < 2 ^ 64) (hsome : (attempts attempt).found = some r)
    (hnone : (attempts attempt).balances = none) (lastError : Option Error) (lastError' : Option String) :
    ¬ SameOutcome (rustFetchCounted e t rpc mint (remaining + 1) attempt lastError)
      (fetchCounted t' a mint (remaining + 1) attempt lastError') := by
  obtain ⟨err, hrust⟩ := h.rust_no_balances hsome hnone
  rw [rustFetchCounted, fetchCounted, h.node_found hsome, hrust]
  obtain ⟨-, hdelay⟩ | ⟨-, f, hdelay⟩ := retryDelay_cases e t remaining hattempt
  · simp only [hdelay]
    cases remaining with
    | zero => exact not_sameOutcome_of_ok rfl rfl
    | succ left =>
      rintro ⟨hcount, -⟩
      exact absurd hcount (lt_rustFetchCounted_snd left (attempt + 1) _).ne'
  · simp only [hdelay]
    exact not_sameOutcome_of_ok rfl rfl

/-- From any attempt on, both loops come to the same exactly if the answers are alike. -/
theorem fetchCounted_same_iff (h : Mirrors e rpc a mint attempts) (remaining attempt : ℕ)
    (hattempts : attempt + remaining < 2 ^ 64) (lastError : Option Error) (lastError' : Option String) :
    SameOutcome (rustFetchCounted e t rpc mint remaining attempt lastError)
        (fetchCounted t' a mint remaining attempt lastError') ↔ Alike e t attempts remaining attempt := by
  induction remaining generalizing attempt lastError lastError' with
  | zero => exact iff_of_true ⟨rfl, Or.inl ⟨⟨_, rfl⟩, ⟨_, rfl⟩⟩⟩ trivial
  | succ remaining ih =>
    rw [Alike]
    have hattempt : attempt + 1 < 2 ^ 64 := by omega
    rcases hfound : (attempts attempt).found with _ | r
    · -- no pool: the Node bot goes on, and the Rust bot if it can compute its wait
      obtain ⟨msg, hnode⟩ := h.node_not_found hfound
      obtain ⟨err, hrust⟩ := h.rust_not_found hfound
      rw [rustFetchCounted, fetchCounted, hnode, hrust]
      obtain ⟨hfits, hdelay⟩ | ⟨⟨hremaining, hno⟩, f, hdelay⟩ := retryDelay_cases e t remaining hattempt
      · simp only [hdelay]
        rw [ih (attempt + 1) (by omega)]
        exact (and_iff_right hfits).symm
      · simp only [hdelay]
        refine iff_of_false ?_ fun halike => hno (halike.1 hremaining)
        rintro ⟨hcount, -⟩
        obtain ⟨left, rfl⟩ := Nat.exists_eq_succ_of_ne_zero hremaining
        exact absurd hcount (lt_fetchCounted_snd left (attempt + 1) _).ne
    · dsimp only
      rcases hbalances : (attempts attempt).balances with _ | balances
      · exact iff_of_false (h.not_same_of_no_balances hattempt hfound hbalances _ _) fun halike => halike.1 rfl
      · obtain ⟨info, hrust, hsame⟩ := h.rust_found hfound hbalances
        rw [rustFetchCounted, fetchCounted, h.node_found hfound, hrust, hbalances]
        dsimp only [Option.elim]
        rw [← hsame, and_iff_right (Option.some_ne_none balances), sameOutcome_ok_iff]

/-- **When the two bots build the same trade data.** With the same answers to as many attempts, they make the same
number of them and both fail, or come to the same data, exactly if the answers are alike: as long as no pool is found the
wait of the Rust bot can be computed, and the first pool that is found has balances and is a plain one. -/
theorem fetchTradeInfo_same_iff (h : Mirrors e rpc a mint attempts) (hretries : t.maxRetries.toNat = t'.maxRetries) :
    let rust := rustFetchCounted e t rpc mint t.maxRetries.toNat 0 none
    let node := fetchCounted t' a mint t'.maxRetries 0 none
    rust.1 = t.fetchTradeInfoWithRetry e rpc mint ∧ node.1 = t'.fetchTradeInfoWithRetry a mint ∧
      (SameOutcome rust node ↔ Alike e t attempts t.maxRetries.toNat 0) := by
  intro rust node
  refine ⟨rustFetchCounted_fst _ _ _, fetchCounted_fst _ _ _, ?_⟩
  have hlt : 0 + t.maxRetries.toNat < 2 ^ 64 := by
    have := t.maxRetries.toNat_lt
    omega
  simp only [rust, node, ← hretries]
  exact fetchCounted_same_iff h _ _ hlt _ _

end Attempts

/-- The Node bot with an answer to every attempt. -/
def sampleFetches (found : Option (Pubkey × Sdk.Pool)) (balances : Option (UInt64 × UInt64)) : Answers where
  findByMint _ _ := .ok (found.map fun r => (r.1, ofSdkPool r.2))
  getTokenBalances _ _ := .ok (balances.map fun b => (b.1.toNat, b.2.toNat))
  getBalance := .ok 0
  getTokenAccountsByOwner _ := .ok []
  getTokenAccountBalance _ := .ok 0
  getLatestBlockhash := .error "fetch failed"
  buy _ := .error "fetch failed"
  sell _ := .error "fetch failed"
  buyLands := false
  sellLands := false

/-- The trader of the Node bot with as many attempts. -/
def sampleNodeTrader : Trader := .fromConfig { buyAmountSol := 1 / 100, slippageBps := 500 }

theorem sampleRpc_findByMint :
    ∃ err, findByMint Rust.sampleEnv.derivation Rust.sampleRpc Rust.sampleMint = .error (.err err) := by
  have h : (caught (findByMint Rust.sampleEnv.derivation Rust.sampleRpc Rust.sampleMint)).map Except.isOk =
      .ok false := by
    decide +kernel
  obtain ⟨err | r, hcaught, hfails⟩ := Rust.exists_of_map_eq_ok h
  · exact ⟨err, caught_eq_ok hcaught⟩
  · cases hfails

/-- The canonical pool of the sample as it is decoded. -/
def samplePool : Sdk.Pool where
  poolBump := 255
  index := 0
  creator := Rust.samplePoolAuthority
  baseMint := Rust.sampleMint
  quoteMint := wsolTokenAccount
  lpMint := Pubkey.default
  poolBaseTokenAccount := Rust.sampleInfo.poolBaseTokenAccount
  poolQuoteTokenAccount := Rust.sampleInfo.poolQuoteTokenAccount
  lpSupply := 1000
  coinCreator := Pubkey.default
  isMayhemMode := false
  isCashbackCoin := false
  reserved := List.replicate 7 0

theorem sampleCanonicalNode_answers :
    findByMint Rust.sampleEnv.derivation Rust.sampleCanonicalNode Rust.sampleMint =
        .ok (Rust.sampleInfo.pool, samplePool) ∧
      getTokenBalances samplePool Rust.sampleCanonicalNode = .ok (200000000000, 100000000000) ∧
      Sdk.coinCreatorVaultAuthority Rust.sampleEnv.derivation samplePool.coinCreator ≠ samplePool.coinCreator := by
  decide +kernel

/-- The answers of both nodes when they find that pool. -/
def sampleFound : Answers :=
  sampleFetches (some (Rust.sampleInfo.pool, samplePool)) (some (200000000000, 100000000000))

theorem mirrors_sampleFound :
    Mirrors Rust.sampleEnv (fun _ => Rust.sampleCanonicalNode) sampleFound Rust.sampleMint
      (fun _ => ⟨some (Rust.sampleInfo.pool, samplePool), some (200000000000, 100000000000)⟩) := by
  obtain ⟨hfound, hbalances, -⟩ := sampleCanonicalNode_answers
  refine ⟨?_, by simp, ?_, by simp, ?_, by simp, ?_⟩
  · rintro i r hr
    cases hr
    exact hfound
  · rintro i r balances hr hb
    cases hr
    cases hb
    exact hbalances
  · rintro i r hr
    cases hr
    rfl
  · rintro i r hr
    rfl

/-- On a node that finds nothing both make all five attempts and fail; of the pool that the other one finds at the first
attempt they do not keep the same. -/
theorem fetchTradeInfo_same_sample :
    SameOutcome
        (rustFetchCounted Rust.sampleEnv (Rust.sampleTrader false) (fun _ => Rust.sampleRpc) Rust.sampleMint
          (Rust.sampleTrader false).maxRetries.toNat 0 none)
        (fetchCounted sampleNodeTrader (sampleFetches none none) Rust.sampleMint sampleNodeTrader.maxRetries 0 none) ∧
      ¬ SameOutcome
        (rustFetchCounted Rust.sampleEnv (Rust.sampleTrader false) (fun _ => Rust.sampleCanonicalNode) Rust.sampleMint
          (Rust.sampleTrader false).maxRetries.toNat 0 none)
        (fetchCounted sampleNodeTrader sampleFound Rust.sampleMint sampleNodeTrader.maxRetries 0 none) := by
  have hretries : (Rust.sampleTrader false).maxRetries.toNat = sampleNodeTrader.maxRetries := rfl
  constructor
  · have hmirrors : Mirrors Rust.sampleEnv (fun _ => Rust.sampleRpc) (sampleFetches none none) Rust.sampleMint
        fun _ => ⟨none, none⟩ :=
      ⟨by simp, fun _ _ => sampleRpc_findByMint, by simp, by simp, by simp, fun _ _ => Or.inl rfl, by simp⟩
    refine (fetchTradeInfo_same_iff hmirrors hretries).2.2.mpr ?_
    have hfits : ∀ attempt, WaitFits Rust.sampleEnv (Rust.sampleTrader false) attempt := fun _ => Or.inl rfl
    have halike : ∀ remaining attempt,
        Alike Rust.sampleEnv (Rust.sampleTrader false) (fun _ => ⟨none, none⟩) remaining attempt := by
      intro remaining
      induction remaining with
      | zero => exact fun _ => trivial
      | succ remaining ih => exact fun attempt => ⟨fun _ => hfits attempt, ih (attempt + 1)⟩
    exact halike _ _
  · intro hsame
    have halike := (fetchTradeInfo_same_iff mirrors_sampleFound hretries).2.2.mp hsame
    exact sampleCanonicalNode_answers.2.2 halike.2.authority

/-- Of the same pool, found at the first attempt and with the same balances, the two bots keep different data. -/
theorem fetchTradeInfo_differ :
    let rust := rustFetchCounted Rust.sampleEnv (Rust.sampleTrader false) (fun _ => Rust.sampleCanonicalNode)
      Rust.sampleMint (Rust.sampleTrader false).maxRetries.toNat 0 none
    let node := fetchCounted sampleNodeTrader sampleFound Rust.sampleMint sampleNodeTrader.maxRetries 0 none
    Mirrors Rust.sampleEnv (fun _ => Rust.sampleCanonicalNode) sampleFound Rust.sampleMint
        (fun _ => ⟨some (Rust.sampleInfo.pool, samplePool), some (200000000000, 100000000000)⟩) ∧
      ¬ SameOutcome rust node := by
  intro rust node
  refine ⟨mirrors_sampleFound, fun hsame => ?_⟩
  have halike := (fetchCounted_same_iff mirrors_sampleFound _ _ (by decide) none none).mp hsame
  exact sampleCanonicalNode_answers.2.2 halike.2.authority

end PumpSwapBot.Node
