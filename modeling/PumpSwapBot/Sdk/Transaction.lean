import PumpSwapBot.Library.Machine
import PumpSwapBot.Library.Memo
import PumpSwapBot.Sdk.Client
import Mathlib.Data.Rat.Floor

/-!
# Building the transactions of a trade

What a sender makes of the instructions of a trade before it sends them (`trading/common`:
`transaction_builder.rs`, `nonce_manager.rs`, `compute_budget_manager.rs`; `trading/core/transaction_pool.rs`;
`trading/middleware`): the nonce, the tip and the compute budget go in front, the middlewares see the
whole, and a builder of a shared pool makes the message.

## The model

* A message is what it is compiled of, and the wallet's signature a function of it: compiling and signing are
  the business of Solana's crates. So are the two instructions of the compute budget and the one that
  advances a nonce, which have their documented layout. There is no address lookup table, as in `Sdk.Client`.
* `f64` is read as the exact rational.
* All senders share the cache of compute budgets and the pool of builders. A sender uses them at four
  places: it looks into the cache, puts into it what it did not find, takes a builder and gives it back.
  Between these it works for itself, so a build is four steps, and the senders' steps come in
  any order.

## What is proved

* `BuildState.built_of_run` — what each build comes to is what `buildTransaction` says, which knows neither
  the cache nor the pool, whatever the others do in the meantime; and the pool stays within its size, with
  clean builders only.
* `applyMiddlewares_of_keeps` — what each middleware keeps, all of them keep.
-/

namespace PumpSwapBot.Sdk

open PumpSwapBot.Library

/-! ### Instructions of the runtime -/

/-- The program of the compute budget. -/
def computeBudgetProgram : Pubkey := pubkey "ComputeBudget111111111111111111111111111111"

/-- The sysvar of recent block hashes. -/
def recentBlockhashesSysvar : Pubkey := pubkey "SysvarRecentB1ockHashes11111111111111111111"

/-- Advance a durable nonce. -/
def advanceNonceAccount (nonceAccount authorized : Pubkey) : Instruction where
  programId := systemProgram
  accounts := [.new nonceAccount false, .newReadonly recentBlockhashesSysvar false, .newReadonly authorized true]
  data := leBytes 4 4

/-- Set the price of a compute unit. -/
def setComputeUnitPrice (microLamports : UInt64) : Instruction where
  programId := computeBudgetProgram
  accounts := []
  data := 3 :: leBytes 8 microLamports.toNat

/-- Set the number of compute units. -/
def setComputeUnitLimit (units : UInt32) : Instruction where
  programId := computeBudgetProgram
  accounts := []
  data := 2 :: leBytes 4 units.toNat

/-! ### Middlewares -/

/-- What a middleware does to the instructions of the protocol, and to all of them. -/
structure InstructionMiddleware where
  processProtocolInstructions : List Instruction → String → Bool → Except Error (List Instruction)
  processFullInstructions : List Instruction → String → Bool → Except Error (List Instruction)

/-- One pass over the middlewares, which ends when nothing is left. -/
def applyMiddlewares (process : InstructionMiddleware → List Instruction → Except Error (List Instruction)) :
    List InstructionMiddleware → List Instruction → Except Error (List Instruction)
  | [], instructions => .ok instructions
  | m :: ms, instructions =>
    match process m instructions with
    | .error e => .error e
    | .ok [] => .ok []
    | .ok processed => applyMiddlewares process ms processed

/-- Apply all middlewares to all instructions. -/
def applyMiddlewaresProcessFullInstructions (middlewares : List InstructionMiddleware) (fullInstructions : List Instruction)
    (protocolName : String) (isBuy : Bool) : Except Error (List Instruction) :=
  applyMiddlewares (fun m is => m.processFullInstructions is protocolName isBuy) middlewares fullInstructions

/-- Apply all middlewares to the instructions of the protocol. -/
def applyMiddlewaresProcessProtocolInstructions (middlewares : List InstructionMiddleware)
    (protocolInstructions : List Instruction) (protocolName : String) (isBuy : Bool) : Except Error (List Instruction) :=
  applyMiddlewares (fun m is => m.processProtocolInstructions is protocolName isBuy) middlewares protocolInstructions

/-- The built-in middleware prints the instructions and leaves them as they are. -/
def loggingMiddleware : InstructionMiddleware := ⟨fun is _ _ => .ok is, fun is _ _ => .ok is⟩

section Middlewares

variable {process : InstructionMiddleware → List Instruction → Except Error (List Instruction)}
  {ms : List InstructionMiddleware} {is out : List Instruction}

/-- What every middleware keeps of a list that is not empty, all of them keep. -/
theorem applyMiddlewares_of_keeps {K : List Instruction → List Instruction → Prop} (hrefl : ∀ is, K is is)
    (htrans : ∀ is is' is'', K is is' → K is' is'' → K is is'')
    (hkeeps : ∀ m ∈ ms, ∀ is out, process m is = .ok out → K is out) (h : applyMiddlewares process ms is = .ok out) : K is out := by
  induction ms generalizing is with
  | nil =>
    cases h
    exact hrefl _
  | cons m ms ih =>
    rw [List.forall_mem_cons] at hkeeps
    simp only [applyMiddlewares] at h
    split at h
    next => cases h
    next heq =>
      cases h
      exact hkeeps.1 _ _ heq
    next processed _ heq => exact htrans _ _ _ (hkeeps.1 _ _ heq) (ih hkeeps.2 h)

end Middlewares

/-! ### The plain build -/

/-- A message, as what it is compiled of. -/
structure Message where
  payer : Pubkey
  instructions : List Instruction
  recentBlockhash : Hash
  deriving DecidableEq

/-- A signed message. -/
structure Transaction where
  signature : Signature
  message : Message
  deriving DecidableEq

/-- The parameters of a build. -/
structure BuildRequest where
  payer : Pubkey
  unitLimit : UInt32
  unitPrice : UInt64
  businessInstructions : List Instruction
  recentBlockhash : Option Hash
  middlewareManager : Option (List InstructionMiddleware)
  protocolName : String
  isBuy : Bool
  withTip : Bool
  tipAccount : Pubkey
  tipAmount : ℚ
  durableNonce : Option DurableNonceInfo

/-- An amount of SOL in lamports, rounded to the nearest. -/
def solF64ToLamports (sol : ℚ) : UInt64 :=
  if sol ≤ 0 then 0 else asU64 (min ⌊min (sol * 1000000000) (2 ^ 64 - 1) + 1 / 2⌋.toNat (2 ^ 64 - 1))

/-- The instruction that advances the nonce, if there is one. -/
def addNonceInstruction (payer : Pubkey) (durableNonce : Option DurableNonceInfo) : Result (List Instruction) :=
  match durableNonce with
  | none => .ok []
  | some nonce => match nonce.nonceAccount with
    | some account => .ok [advanceNonceAccount account payer]
    | none => .error (.panic "called `Option::unwrap()` on a `None` value")

/-- The hash of the transaction: the nonce's if there is one. -/
def getTransactionBlockhash (recentBlockhash : Option Hash) (durableNonce : Option DurableNonceInfo) : Result Hash :=
  match durableNonce with
  | some nonce => okOr "durable_nonce.current_nonce is None" nonce.currentNonce
  | none => okOr "Must provide either recent_blockhash or durable_nonce for transaction" recentBlockhash

/-- The instructions of the compute budget. -/
def computeBudgetInstructions (unitPrice : UInt64) (unitLimit : UInt32) : List Instruction :=
  (if unitPrice > 0 then [setComputeUnitPrice unitPrice] else []) ++
    if unitLimit > 0 then [setComputeUnitLimit unitLimit] else []

/-- What comes before the compute budget: the nonce and the tip. -/
def BuildRequest.leading (req : BuildRequest) : Result (List Instruction) := do
  let nonce ← addNonceInstruction req.payer req.durableNonce
  return nonce ++ if req.withTip ∧ req.tipAmount > 0 then
    [systemTransfer req.payer req.tipAccount (solF64ToLamports req.tipAmount)] else []

/-- What is done with the instructions up to the compute budget: the message that is to be made. -/
def BuildRequest.assemble (req : BuildRequest) (instructions : List Instruction) : Result Message := do
  let blockhash ← getTransactionBlockhash req.recentBlockhash req.durableNonce
  let fullInstructions ← match req.middlewareManager with
    | some middlewares => orFail (applyMiddlewaresProcessFullInstructions middlewares
        (instructions ++ req.businessInstructions) req.protocolName req.isBuy)
    | none => .ok (instructions ++ req.businessInstructions)
  return ⟨req.payer, fullInstructions, blockhash⟩

/-- The message of a build. -/
def BuildRequest.message (req : BuildRequest) : Result Message := do
  let leading ← req.leading
  req.assemble (leading ++ computeBudgetInstructions req.unitPrice req.unitLimit)

/-- A build, without the cache and the pool. -/
def buildTransaction (sign : Message → Signature) (req : BuildRequest) : Result Transaction :=
  req.message.map fun message => ⟨sign message, message⟩

/-! ### Building side by side -/

/-- A builder of the pool. -/
structure PreallocatedTxBuilder where
  instructions : List Instruction
  deriving DecidableEq

/-- Empty the builder. -/
def PreallocatedTxBuilder.reset (_builder : PreallocatedTxBuilder) : PreallocatedTxBuilder := ⟨[]⟩

/-- Make a message with the builder. -/
def PreallocatedTxBuilder.buildZeroAlloc (builder : PreallocatedTxBuilder) (payer : Pubkey) (instructions : List Instruction)
    (recentBlockhash : Hash) : Message × PreallocatedTxBuilder :=
  let builder := builder.reset
  let builder := { builder with instructions := builder.instructions ++ instructions }
  (⟨payer, builder.instructions, recentBlockhash⟩, builder)

/-- The most builders the pool holds. -/
def txBuilderPoolCap : ℕ := 1000

/-- Where a sender is. -/
inductive BuildStage where
  /-- It has nothing to build. -/
  | idle
  /-- It is about to look into the cache. -/
  | lookup (req : BuildRequest) (instructions : List Instruction)
  /-- It has found nothing there and is about to put in what it has computed. -/
  | insert (req : BuildRequest) (instructions computed : List Instruction)
  /-- It is about to take a builder, for this message. -/
  | acquire (req : BuildRequest) (message : Message)
  /-- It has made a message and is about to give the builder back. -/
  | release (req : BuildRequest) (message : Message) (builder : PreallocatedTxBuilder)
  /-- The build has come to this. -/
  | done (req : BuildRequest) (result : Result Transaction)

/-- The senders, and what they share. -/
structure BuildState where
  /-- The cache of compute budgets. -/
  computeBudgetCache : UInt64 × UInt32 → Option (List Instruction)
  /-- The pool, the next builder first. -/
  pool : List PreallocatedTxBuilder
  senders : ℕ → BuildStage

/-- What a sender does next. -/
inductive BuildAction where
  /-- A sender begins a build. -/
  | start (i : ℕ) (req : BuildRequest)
  /-- A sender goes on. -/
  | next (i : ℕ)

namespace BuildState

/-- At first the cache is empty and the pool holds 64 builders. -/
def init : BuildState := ⟨fun _ => none, List.replicate 64 ⟨[]⟩, fun _ => .idle⟩

/-- Put a sender somewhere. -/
def setSender (s : BuildState) (i : ℕ) (stage : BuildStage) : BuildState :=
  { s with senders := Function.update s.senders i stage }

/-- Where a sender gets with the instructions up to the compute budget. -/
def assembled (req : BuildRequest) (instructions : List Instruction) : BuildStage :=
  match req.assemble instructions with
  | .ok message => .acquire req message
  | .error e => .done req (.error e)

variable (sign : Message → Signature)

/-- One step of the machine. -/
def step (s : BuildState) : BuildAction → Option BuildState
  | .start i req =>
    match s.senders i with
    | .idle | .done _ _ => match req.leading with
      | .ok instructions => some (s.setSender i (.lookup req instructions))
      | .error e => some (s.setSender i (.done req (.error e)))
    | _ => none
  | .next i =>
    match s.senders i with
    | .lookup req instructions =>
      match s.computeBudgetCache (req.unitPrice, req.unitLimit) with
      | some cached => some (s.setSender i (assembled req (instructions ++ cached)))
      | none =>
        let computed := computeBudgetInstructions req.unitPrice req.unitLimit
        some (s.setSender i (.insert req (instructions ++ computed) computed))
    | .insert req instructions computed =>
      some { s.setSender i (assembled req instructions) with
        computeBudgetCache := Function.update s.computeBudgetCache (req.unitPrice, req.unitLimit) (some computed) }
    | .acquire req message =>
      let (builder, pool) := match s.pool with
        | builder :: pool => (builder, pool)
        | [] => (⟨[]⟩, [])
      let (message, builder) := builder.buildZeroAlloc message.payer message.instructions message.recentBlockhash
      some { s.setSender i (.release req message builder) with pool }
    | .release req message builder =>
      some { s.setSender i (.done req (.ok ⟨sign message, message⟩)) with
        pool := if s.pool.length < txBuilderPoolCap then s.pool ++ [builder.reset] else s.pool }
    | _ => none

end BuildState

/-- What is known of a build at each stage. -/
def BuildStage.Sound (sign : Message → Signature) : BuildStage → Prop
  | .idle => True
  | .lookup req instructions => req.leading = .ok instructions
  | .insert req instructions computed => computed = computeBudgetInstructions req.unitPrice req.unitLimit ∧
      ∃ leading, req.leading = .ok leading ∧ instructions = leading ++ computed
  | .acquire req message | .release req message _ => req.message = .ok message
  | .done req result => result = buildTransaction sign req

namespace BuildState

variable {sign : Message → Signature}

/-- The cache holds what would be computed, the pool clean builders within its size, and each build is on its way. -/
structure Inv (sign : Message → Signature) (s : BuildState) : Prop where
  cache : Memo.Holds (fun k is => is = computeBudgetInstructions k.1 k.2) s.computeBudgetCache
  size : s.pool.length ≤ txBuilderPoolCap
  clean : ∀ builder ∈ s.pool, builder = ⟨[]⟩
  senders : ∀ i, (s.senders i).Sound sign

theorem inv_init : Inv sign init where
  cache := Memo.Holds.empty
  size := by decide
  clean := by
    intro builder hb
    exact List.eq_of_mem_replicate hb
  senders _ := trivial

theorem inv_setSender {s : BuildState} (h : Inv sign s) {i : ℕ} {stage : BuildStage} (hstage : stage.Sound sign) :
    Inv sign (s.setSender i stage) where
  cache := h.cache
  size := h.size
  clean := h.clean
  senders j := by
    simp only [setSender]
    by_cases hj : j = i
    · subst hj
      rwa [Function.update_self]
    · rw [Function.update_of_ne hj]
      exact h.senders j

/-- A build whose instructions are put together is on its way to its message, or has failed as the plain one does. -/
theorem assembled_sound {req : BuildRequest} {leading : List Instruction} (h : req.leading = .ok leading) :
    (assembled req (leading ++ computeBudgetInstructions req.unitPrice req.unitLimit)).Sound sign := by
  have hmessage : req.message = req.assemble (leading ++ computeBudgetInstructions req.unitPrice req.unitLimit) := by
    rw [BuildRequest.message, h]
    rfl
  unfold assembled
  split
  next message heq => exact hmessage.trans heq
  next e heq =>
    simp only [BuildStage.Sound, buildTransaction]
    rw [hmessage, heq]
    rfl

/-- A sender puts in what it has computed. -/
theorem Inv.insert {s : BuildState} (h : Inv sign s) (key : UInt64 × UInt32) : Inv sign { s with
    computeBudgetCache := Function.update s.computeBudgetCache key (some (computeBudgetInstructions key.1 key.2)) } :=
  { h with cache := h.cache.insert rfl }

/-- A sender takes the next builder, or makes one. -/
theorem Inv.acquire {s : BuildState} (h : Inv sign s) : Inv sign { s with pool := s.pool.tail } :=
  { h with
    size := by simpa using (Nat.sub_le _ 1).trans h.size
    clean := fun _ hb => h.clean _ (List.mem_of_mem_tail hb) }

/-- A sender gives a builder back. -/
theorem Inv.release {s : BuildState} (h : Inv sign s) (builder : PreallocatedTxBuilder) : Inv sign { s with
    pool := if s.pool.length < txBuilderPoolCap then s.pool ++ [builder.reset] else s.pool } := by
  split_ifs with hroom
  · refine { h with size := ?_, clean := fun b hb => ?_ }
    · rw [List.length_append, List.length_singleton]
      omega
    · rcases List.mem_append.mp hb with hold | hnew
      · exact h.clean b hold
      · exact List.mem_singleton.mp hnew
  · exact h

theorem inv_start {s s' : BuildState} {i : ℕ} {req : BuildRequest} (h : Inv sign s)
    (hstep : (match req.leading with
      | .ok instructions => some (s.setSender i (.lookup req instructions))
      | .error e => some (s.setSender i (.done req (.error e)))) = some s') : Inv sign s' := by
  rcases hleading : req.leading with e | instructions <;> rw [hleading] at hstep <;> cases hstep
  · refine inv_setSender h ?_
    simp only [BuildStage.Sound, buildTransaction, BuildRequest.message]
    rw [hleading]
    rfl
  · exact inv_setSender h hleading

theorem inv_step {s s' : BuildState} {a : BuildAction} (h : Inv sign s) (hstep : step sign s a = some s') : Inv sign s' := by
  cases a with
  | start i req =>
    simp only [step] at hstep
    split at hstep
    · exact inv_start h hstep
    · exact inv_start h hstep
    · cases hstep
  | next i =>
    have hsound := h.senders i
    simp only [step] at hstep
    split at hstep
    next req instructions hstage =>
      rw [hstage] at hsound
      split at hstep
      next cached hcached =>
        cases hstep
        rw [h.cache _ _ hcached]
        exact inv_setSender h (assembled_sound hsound)
      next =>
        cases hstep
        exact inv_setSender h ⟨rfl, instructions, hsound, rfl⟩
    next req instructions computed hstage =>
      rw [hstage] at hsound
      obtain ⟨hcomputed, leading, hleading, hall⟩ := hsound
      cases hstep
      rw [hall, hcomputed]
      exact (inv_setSender h (assembled_sound hleading)).insert (req.unitPrice, req.unitLimit)
    next req message hstage =>
      rw [hstage] at hsound
      cases hstep
      -- The message is made of what was put together, whatever the builder held before.
      have hinv : ∀ builder, Inv sign { s.setSender i (.release req message builder) with pool := s.pool.tail } := by
        intro builder
        have hrelease : (BuildStage.release req message builder).Sound sign := hsound
        exact (inv_setSender h hrelease).acquire
      rcases hpool : s.pool with _ | ⟨builder, pool⟩ <;> rw [hpool] at hinv <;> exact hinv _
    next req message builder hstage =>
      rw [hstage] at hsound
      cases hstep
      have hdone : (BuildStage.done req (.ok ⟨sign message, message⟩)).Sound sign := by
        simp only [BuildStage.Sound] at hsound
        simp only [BuildStage.Sound, buildTransaction]
        rw [hsound]
        rfl
      exact (inv_setSender h hdone).release builder
    next => cases hstep

/-- **Senders do not get into each other's builds.** Over every order of their steps, what a build comes to is what it comes
to without the cache and the pool. The pool stays within its size, with clean builders only. -/
theorem built_of_run {s : BuildState} {as : List BuildAction} (hrun : Machine.run (step sign) init as = some s) :
    (∀ i req result, s.senders i = .done req result → result = buildTransaction sign req) ∧
      s.pool.length ≤ txBuilderPoolCap ∧ ∀ builder ∈ s.pool, builder = ⟨[]⟩ := by
  have hinv : Inv sign s := Machine.invariant (fun _ _ _ h hs => inv_step h hs) inv_init hrun
  refine ⟨fun i req result hdone => ?_, hinv.size, hinv.clean⟩
  have hsound := hinv.senders i
  rw [hdone] at hsound
  exact hsound

/-- A build without a tip and with a nonce. -/
def sampleRequest : BuildRequest where
  payer := solTokenAccount
  unitLimit := 200000
  unitPrice := 0
  businessInstructions := [⟨ammProgram, [], [1]⟩]
  recentBlockhash := none
  middlewareManager := none
  protocolName := "PumpSwap"
  isBuy := true
  withTip := false
  tipAccount := .default
  tipAmount := 0
  durableNonce := some ⟨some wsolTokenAccount, some [7]⟩

/-- The message it comes to. -/
def sampleMessage : Message :=
  ⟨solTokenAccount, [advanceNonceAccount wsolTokenAccount solTokenAccount, setComputeUnitLimit 200000, ⟨ammProgram, [], [1]⟩], [7]⟩

/-- Two senders that both find nothing in the cache. -/
def twoBuilds : List BuildAction :=
  [.start 0 sampleRequest, .start 1 sampleRequest, .next 0, .next 1, .next 1, .next 0, .next 0, .next 1, .next 0, .next 1]

theorem built_of_run_twoBuilds : ∃ s, Machine.run (step fun _ => "signature") init twoBuilds = some s ∧
    buildTransaction (fun _ => "signature") sampleRequest = .ok ⟨"signature", sampleMessage⟩ :=
  ⟨_, rfl, ((built_of_run (show Machine.run (step fun _ => "signature") init twoBuilds = some _ from rfl)).1 1 sampleRequest
    (.ok ⟨"signature", sampleMessage⟩) rfl).symm⟩

end BuildState

end PumpSwapBot.Sdk
