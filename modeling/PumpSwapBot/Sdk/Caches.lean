import PumpSwapBot.Library.Machine
import PumpSwapBot.Library.Memo
import PumpSwapBot.Sdk.Instruction

/-!
# The caches of addresses and instructions

The SDK computes a derived address, and the instructions that create or close a token account, once and keeps them
(`common/fast_fn.rs`); the rent such an instruction pays is kept too and brought up to date now and then by a task in the
background (`common/seed.rs`). All threads share the tables and the rents.

## The model

A thread goes from one access of shared memory to the next: a look into a table, an entry made in it, the load of a rent. The
tables of addresses are read and written one entry at a time, so that two threads may compute the same address.
The table of instructions is locked while an instruction is computed: a `DashMap` has a lock for each of its shards, and which
keys share one is a parameter (`shard`). A panic gives the lock back and leaves no entry.

`CacheCall.plain` is each call without any cache, as `Sdk.Accounts` and `Sdk.Instruction` have it. The history of the rents is
kept beside the two cells of the source.

## What is proved

* `answers_of_run` — in every interleaving, a call comes to what it comes to without the caches, with the rents of some
  moment of the run.
* `first_stays` — and that moment is the first use: when the instructions of a key are in the table, they are what every
  later call for the key gets, whatever the rents are by then.
* `not_stuck` — a thread that has to wait for a lock waits for one that can go on.
-/

namespace PumpSwapBot.Sdk

open PumpSwapBot.Library

/-! ### Keys and calls -/

/-- The program of Bonk. -/
def bonkProgram : Pubkey := pubkey "LanMV9sAd7wArD4vJFi2qDdfnVhFxYSUg6eADduJ3uj"

/-- What identifies a derived address. -/
inductive PdaCacheKey where
  | pumpFunUserVolume (user : Pubkey)
  | pumpFunBondingCurve (mint : Pubkey)
  | pumpFunBondingCurveV2 (mint : Pubkey)
  | pumpFunCreatorVault (creator : Pubkey)
  | bonkPool (baseMint quoteMint : Pubkey)
  | bonkVault (poolState mint : Pubkey)
  | pumpSwapUserVolume (user : Pubkey)
  deriving DecidableEq

/-- The address, as the caller with this key computes it. -/
def PdaCacheKey.compute (d : Derivation) : PdaCacheKey → Option Pubkey
  | .pumpFunUserVolume user => some (d.findProgramAddress [ascii "user_volume_accumulator", user.bytes] pumpProgramId)
  | .pumpFunBondingCurve mint => some (d.findProgramAddress [ascii "bonding-curve", mint.bytes] pumpProgramId)
  | .pumpFunBondingCurveV2 mint => some (d.findProgramAddress [ascii "bonding-curve-v2", mint.bytes] pumpProgramId)
  | .pumpFunCreatorVault creator => some (d.findProgramAddress [ascii "creator-vault", creator.bytes] pumpProgramId)
  | .bonkPool baseMint quoteMint => some (d.findProgramAddress [ascii "pool", baseMint.bytes, quoteMint.bytes] bonkProgram)
  | .bonkVault poolState mint => some (d.findProgramAddress [ascii "pool_vault", poolState.bytes, mint.bytes] bonkProgram)
  | .pumpSwapUserVolume user => getUserVolumeAccumulatorPda d user

/-- What identifies a token account. -/
structure AtaCacheKey where
  walletAddress : Pubkey
  tokenMintAddress : Pubkey
  tokenProgramId : Pubkey
  useSeed : Bool
  deriving DecidableEq

/-- The account. -/
def AtaCacheKey.compute (d : Derivation) (k : AtaCacheKey) : Result Pubkey :=
  getAssociatedTokenAddressWithProgramIdFastUseSeed d k.walletAddress k.tokenMintAddress k.tokenProgramId k.useSeed

/-- What identifies instructions. -/
inductive InstructionCacheKey where
  | createAssociatedTokenAccount (payer owner mint tokenProgram : Pubkey) (useSeed : Bool)
  | closeWsolAccount (payer wsolTokenAccount : Pubkey)
  deriving DecidableEq

/-- A call that goes through the table of token accounts. -/
inductive CacheCall where
  /-- The account itself. -/
  | ata (k : AtaCacheKey)
  /-- The instructions that create it. -/
  | create (payer owner mint tokenProgram : Pubkey) (useSeed : Bool)
  /-- The instructions that close the account of wrapped SOL. -/
  | closeWsol (payer : Pubkey)
  deriving DecidableEq

/-- What a call comes to. -/
inductive CacheAnswer where
  | address (r : Result Pubkey)
  | instructions (r : Result (List Instruction))
  deriving DecidableEq

/-- The two rents. -/
structure Rents where
  splToken : UInt64
  splToken2022 : UInt64
  deriving DecidableEq

/-- Build with these rents. -/
def Env.withRents (e : Env) (r : Rents) : Env := { e with splTokenRent := r.splToken, splToken2022Rent := r.splToken2022 }

namespace CacheCall

/-- The account the call needs. -/
def ataKey : CacheCall → AtaCacheKey
  | ata k => k
  | create _ owner mint tokenProgram _ => ⟨owner, mint, tokenProgram, false⟩
  | closeWsol payer => ⟨payer, wsolTokenAccount, tokenProgram, false⟩

/-- The instructions the call asks for. -/
def instructionKey (e : Env) : CacheCall → Option InstructionCacheKey
  | ata _ => none
  | create payer owner mint tokenProgram useSeed => some (.createAssociatedTokenAccount payer owner mint tokenProgram useSeed)
  | closeWsol payer => some (.closeWsolAccount payer (wsolAccount e payer))

/-- The call without caches. -/
def plain (e : Env) : CacheCall → CacheAnswer
  | ata k => .address (k.compute e.derivation)
  | create payer owner mint tokenProgram useSeed =>
    .instructions (createAssociatedTokenAccountIdempotentFastUseSeed e payer owner mint tokenProgram useSeed)
  | closeWsol payer => .instructions (.ok (Sdk.closeWsol e payer))

end CacheCall

/-! ### The machine -/

/-- Where a thread is: the next access of shared memory, or the end of its call. -/
inductive CacheStage where
  | idle
  /-- About to look for a derived address. -/
  | getPda (k : PdaCacheKey)
  /-- About to put in the one it has computed. -/
  | putPda (k : PdaCacheKey) (pda : Pubkey)
  | donePda (k : PdaCacheKey) (answer : Option Pubkey)
  /-- About to look for the account of the call. -/
  | getAta (call : CacheCall)
  /-- About to put in the one it has computed. -/
  | putAta (call : CacheCall) (ata : Pubkey)
  /-- About to take the entry of the instructions. -/
  | entry (call : CacheCall) (k : InstructionCacheKey)
  /-- Computing them, and about to load the rent. -/
  | loadRent (call : CacheCall) (k : InstructionCacheKey)
  /-- About to put them in. -/
  | fill (call : CacheCall) (k : InstructionCacheKey) (instructions : List Instruction)
  | done (call : CacheCall) (answer : CacheAnswer)
  deriving DecidableEq

/-- The tables, the rents and the threads. -/
structure CacheState where
  pdaCache : PdaCacheKey → Option Pubkey
  ataCache : AtaCacheKey → Option Pubkey
  instructionCache : InstructionCacheKey → Option (List Instruction)
  /-- Who has the lock of a shard. -/
  holder : ℕ → Option ℕ
  rents : Rents
  /-- The rents there have been, the present ones first (history). -/
  seen : List Rents
  threads : ℕ → CacheStage

/-- What happens next. -/
inductive CacheAction where
  | startPda (i : ℕ) (k : PdaCacheKey)
  | start (i : ℕ) (call : CacheCall)
  /-- A thread goes on. -/
  | next (i : ℕ)
  /-- The rent of a token account is written, under Token-2022 or not. -/
  | storeRent (is2022 : Bool) (rent : UInt64)

namespace CacheState

/-- At first the tables are empty. -/
def init (r : Rents) : CacheState := ⟨fun _ => none, fun _ => none, fun _ => none, fun _ => none, r, [r], fun _ => .idle⟩

/-- Put a thread somewhere. -/
def setThread (s : CacheState) (i : ℕ) (stage : CacheStage) : CacheState :=
  { s with threads := Function.update s.threads i stage }

/-- Write who has a lock. -/
def setHolder (s : CacheState) (n : ℕ) (holder : Option ℕ) : CacheState :=
  { s with holder := Function.update s.holder n holder }

/-- Write the rents. -/
def setRents (s : CacheState) (r : Rents) : CacheState := { s with rents := r, seen := r :: s.seen }

/-- Where a call goes on when it has its account. -/
def withAta (call : CacheCall) (ata : Pubkey) : CacheStage :=
  match call with
  | .ata _ => .done call (.address (.ok ata))
  | .create payer owner mint tokenProgram useSeed =>
    .fill call (.createAssociatedTokenAccount payer owner mint tokenProgram useSeed) [{
      programId := associatedTokenProgramId
      accounts := [.new payer true, .new ata false, .newReadonly owner false, .newReadonly mint false,
        .newReadonly systemProgram false, .newReadonly tokenProgram false]
      data := [1] }]
  | .closeWsol payer => .entry call (.closeWsolAccount payer ata)

/-- Where a call begins: only the creation of an account does not begin with the account. -/
def begin (call : CacheCall) : CacheStage :=
  match call with
  | .create payer owner mint tokenProgram useSeed =>
    .entry call (.createAssociatedTokenAccount payer owner mint tokenProgram useSeed)
  | _ => .getAta call

/-- What is done first to compute the instructions of a key. -/
def compute (call : CacheCall) (k : InstructionCacheKey) : CacheStage :=
  match k with
  | .createAssociatedTokenAccount _ _ mint tokenProgram useSeed =>
    if seedApplies mint tokenProgram useSeed then .loadRent call k else .getAta call
  | .closeWsolAccount payer wsolTokenAccount => .fill call k [closeAccount tokenProgram wsolTokenAccount payer payer []]

variable (e : Env) (shard : InstructionCacheKey → ℕ)

/-- One step of the machine. -/
def step (s : CacheState) : CacheAction → Option CacheState
  | .startPda i k =>
    match s.threads i with
    | .idle | .donePda _ _ | .done _ _ => some (s.setThread i (.getPda k))
    | _ => none
  | .start i call =>
    match s.threads i with
    | .idle | .donePda _ _ | .done _ _ => some (s.setThread i (begin call))
    | _ => none
  | .next i =>
    match s.threads i with
    | .getPda k =>
      match s.pdaCache k with
      | some pda => some (s.setThread i (.donePda k (some pda)))
      | none => match k.compute e.derivation with
        | some pda => some (s.setThread i (.putPda k pda))
        | none => some (s.setThread i (.donePda k none))
    | .putPda k pda =>
      some { s.setThread i (.donePda k (some pda)) with pdaCache := Function.update s.pdaCache k (some pda) }
    | .getAta call =>
      match s.ataCache call.ataKey with
      | some ata => some (s.setThread i (withAta call ata))
      | none => match call.ataKey.compute e.derivation with
        | .ok ata => some (s.setThread i (.putAta call ata))
        | .error f => some (s.setThread i (.done call (.address (.error f))))
    | .putAta call ata =>
      some { s.setThread i (withAta call ata) with ataCache := Function.update s.ataCache call.ataKey (some ata) }
    | .entry call k =>
      match s.holder (shard k) with
      | some _ => none
      | none => match s.instructionCache k with
        | some is => some (s.setThread i (.done call (.instructions (.ok is))))
        | none => some ((s.setThread i (compute call k)).setHolder (shard k) (some i))
    | .loadRent call k =>
      match call.plain (e.withRents s.rents) with
      | .instructions (.ok is) => some (s.setThread i (.fill call k is))
      | answer => some ((s.setThread i (.done call answer)).setHolder (shard k) none)
    | .fill call k is =>
      some { (s.setThread i (.done call (.instructions (.ok is)))).setHolder (shard k) none with
        instructionCache := Function.update s.instructionCache k (some is) }
    | _ => none
  | .storeRent is2022 rent =>
    some (s.setRents (if is2022 then { s.rents with splToken2022 := rent } else { s.rents with splToken := rent }))

end CacheState

/-! ### What is known of a thread -/

namespace CacheCall

/-- The call needs the account, if it is not for instructions that derive theirs from a seed. -/
def NeedsAta : CacheCall → Prop
  | create _ _ mint tokenProgram useSeed => ¬ seedApplies mint tokenProgram useSeed
  | _ => True

/-- Calls for the same instructions are the same. -/
theorem instructionKey_inj {e : Env} {call call' : CacheCall} {k : InstructionCacheKey} (h : call.instructionKey e = some k)
    (h' : call'.instructionKey e = some k) : call' = call := by
  cases call <;> cases call' <;> simp only [instructionKey, Option.some.injEq, reduceCtorEq] at h h' <;> subst h' <;>
    simp only [InstructionCacheKey.createAssociatedTokenAccount.injEq, InstructionCacheKey.closeWsolAccount.injEq,
      reduceCtorEq] at h
  · obtain ⟨rfl, rfl, rfl, rfl, rfl⟩ := h
    rfl
  · rw [h.1]

/-- Without a seed the rents do not matter. -/
theorem plain_withRents (e : Env) {call : CacheCall} (h : call.NeedsAta) (r : Rents) : call.plain (e.withRents r) = call.plain e := by
  cases call with
  | ata k => rfl
  | create payer owner mint tokenProgram useSeed =>
    simp only [plain, createAssociatedTokenAccountIdempotentFastUseSeed]
    rw [if_neg h, if_neg h]
    rfl
  | closeWsol payer => rfl

end CacheCall

namespace CacheStage

/-- What is known of a thread at each stage, when there have been these rents. -/
def Sound (e : Env) (seen : List Rents) : CacheStage → Prop
  | idle | getPda _ => True
  | putPda k pda => k.compute e.derivation = some pda
  | donePda k answer => answer = k.compute e.derivation
  | getAta call => call.NeedsAta
  | putAta call ata => call.NeedsAta ∧ call.ataKey.compute e.derivation = .ok ata
  | entry call k | loadRent call k => call.instructionKey e = some k
  | fill call k is => call.instructionKey e = some k ∧ ∃ r ∈ seen, call.plain (e.withRents r) = .instructions (.ok is)
  | done call answer => ∃ r ∈ seen, answer = call.plain (e.withRents r)

/-- The key whose shard the thread has locked. -/
def held : CacheStage → Option InstructionCacheKey
  | getAta (.create payer owner mint tokenProgram useSeed) | putAta (.create payer owner mint tokenProgram useSeed) _ =>
    some (.createAssociatedTokenAccount payer owner mint tokenProgram useSeed)
  | loadRent _ k | fill _ k _ => some k
  | _ => none

/-- The thread is in the middle of a call. -/
def Busy : CacheStage → Prop
  | idle | donePda _ _ | done _ _ => False
  | _ => True

variable {e : Env} {seen : List Rents} {r : Rents} {stage : CacheStage}

theorem held_of_not_busy (h : ¬ stage.Busy) : stage.held = none := by
  cases stage with
  | idle | donePda _ _ | done _ _ => rfl
  | _ => exact (h trivial).elim

/-- More rents do no harm. -/
theorem Sound.mono (h : stage.Sound e seen) (r : Rents) : stage.Sound e (r :: seen) := by
  cases stage with
  | fill call k is =>
    obtain ⟨hk, r', hr', his⟩ := h
    exact ⟨hk, r', List.mem_cons_of_mem _ hr', his⟩
  | done call answer =>
    obtain ⟨r', hr', hanswer⟩ := h
    exact ⟨r', List.mem_cons_of_mem _ hr', hanswer⟩
  | _ => exact h

end CacheStage

namespace CacheState

section Stages

variable {e : Env} {seen : List Rents} {r : Rents} {call : CacheCall} {ata : Pubkey} {k : InstructionCacheKey}

theorem begin_sound (call : CacheCall) : (begin call).Sound e seen ∧ (begin call).held = none := by
  cases call <;> exact ⟨by simp [begin, CacheStage.Sound, CacheCall.NeedsAta, CacheCall.instructionKey], rfl⟩

theorem withAta_sound (hneeds : call.NeedsAta) (hata : call.ataKey.compute e.derivation = .ok ata) (hr : r ∈ seen) :
    (withAta call ata).Sound e seen := by
  cases call with
  | ata k => exact ⟨r, hr, congrArg CacheAnswer.address hata.symm⟩
  | create payer owner mint tokenProgram useSeed =>
    simp only [CacheCall.ataKey, AtaCacheKey.compute, getAssociatedTokenAddressWithProgramIdFastUseSeed_false,
      Except.ok.injEq] at hata
    subst hata
    refine ⟨rfl, r, hr, ?_⟩
    simp only [CacheCall.plain, createAssociatedTokenAccountIdempotentFastUseSeed]
    rw [if_neg hneeds]
    rfl
  | closeWsol payer =>
    simp only [CacheCall.ataKey, AtaCacheKey.compute, getAssociatedTokenAddressWithProgramIdFastUseSeed_false,
      Except.ok.injEq] at hata
    subst hata
    exact rfl

theorem withAta_held (call : CacheCall) (ata ata' : Pubkey) : (withAta call ata).held = (CacheStage.putAta call ata').held := by
  cases call <;> rfl

theorem compute_sound (hk : call.instructionKey e = some k) (hr : r ∈ seen) :
    (compute call k).Sound e seen ∧ (compute call k).held = some k := by
  cases call with
  | ata k => cases hk
  | create payer owner mint tokenProgram useSeed =>
    cases hk
    simp only [compute]
    split_ifs with hseed
    · exact ⟨rfl, rfl⟩
    · exact ⟨hseed, rfl⟩
  | closeWsol payer =>
    cases hk
    exact ⟨⟨rfl, r, hr, rfl⟩, rfl⟩

end Stages

/-! ### What a step does -/

section Moves

variable (e : Env) (shard : InstructionCacheKey → ℕ)

/-- What a step does, by the stage of the thread that takes it. -/
inductive Moves (s : CacheState) : CacheState → Prop where
  | startPda (i : ℕ) (k : PdaCacheKey) (hidle : ¬ (s.threads i).Busy) : Moves s (s.setThread i (.getPda k))
  | start (i : ℕ) (call : CacheCall) (hidle : ¬ (s.threads i).Busy) : Moves s (s.setThread i (begin call))
  | pdaHit {i : ℕ} {k : PdaCacheKey} {pda : Pubkey} (hi : s.threads i = .getPda k) (hpda : s.pdaCache k = some pda) :
      Moves s (s.setThread i (.donePda k (some pda)))
  | pdaFound {i : ℕ} {k : PdaCacheKey} {pda : Pubkey} (hi : s.threads i = .getPda k)
      (hpda : k.compute e.derivation = some pda) : Moves s (s.setThread i (.putPda k pda))
  | pdaNone {i : ℕ} {k : PdaCacheKey} (hi : s.threads i = .getPda k) (hpda : k.compute e.derivation = none) :
      Moves s (s.setThread i (.donePda k none))
  | pdaPut {i : ℕ} {k : PdaCacheKey} {pda : Pubkey} (hi : s.threads i = .putPda k pda) :
      Moves s { s.setThread i (.donePda k (some pda)) with pdaCache := Function.update s.pdaCache k (some pda) }
  | ataHit {i : ℕ} {call : CacheCall} {ata : Pubkey} (hi : s.threads i = .getAta call)
      (hata : s.ataCache call.ataKey = some ata) : Moves s (s.setThread i (withAta call ata))
  | ataFound {i : ℕ} {call : CacheCall} {ata : Pubkey} (hi : s.threads i = .getAta call)
      (hata : call.ataKey.compute e.derivation = .ok ata) : Moves s (s.setThread i (.putAta call ata))
  | ataFails {i : ℕ} {k : AtaCacheKey} {f : Failure} (hi : s.threads i = .getAta (.ata k))
      (hata : k.compute e.derivation = .error f) : Moves s (s.setThread i (.done (.ata k) (.address (.error f))))
  | ataPut {i : ℕ} {call : CacheCall} {ata : Pubkey} (hi : s.threads i = .putAta call ata) :
      Moves s { s.setThread i (withAta call ata) with ataCache := Function.update s.ataCache call.ataKey (some ata) }
  | hit {i : ℕ} {call : CacheCall} {k : InstructionCacheKey} {is : List Instruction} (hi : s.threads i = .entry call k)
      (hcached : s.instructionCache k = some is) : Moves s (s.setThread i (.done call (.instructions (.ok is))))
  | lock {i : ℕ} {call : CacheCall} {k : InstructionCacheKey} (hi : s.threads i = .entry call k)
      (hfree : s.holder (shard k) = none) (hnone : s.instructionCache k = none) :
      Moves s ((s.setThread i (compute call k)).setHolder (shard k) (some i))
  | rented {i : ℕ} {call : CacheCall} {k : InstructionCacheKey} {is : List Instruction} (hi : s.threads i = .loadRent call k)
      (his : call.plain (e.withRents s.rents) = .instructions (.ok is)) : Moves s (s.setThread i (.fill call k is))
  | unlock {i : ℕ} {call : CacheCall} {k : InstructionCacheKey} (hi : s.threads i = .loadRent call k) :
      Moves s ((s.setThread i (.done call (call.plain (e.withRents s.rents)))).setHolder (shard k) none)
  | fill {i : ℕ} {call : CacheCall} {k : InstructionCacheKey} {is : List Instruction} (hi : s.threads i = .fill call k is) :
      Moves s { (s.setThread i (.done call (.instructions (.ok is)))).setHolder (shard k) none with
        instructionCache := Function.update s.instructionCache k (some is) }
  | rent (r : Rents) : Moves s (s.setRents r)

variable {e shard} {s s' : CacheState} {i : ℕ}

/-- A look for a token account fails only in a call for the account itself. -/
theorem moves_ataFails {call : CacheCall} {f : Failure} (hi : s.threads i = .getAta call)
    (hata : call.ataKey.compute e.derivation = .error f) :
    Moves e shard s (s.setThread i (.done call (.address (.error f)))) := by
  cases call with
  | ata k => exact .ataFails hi hata
  | create payer owner mint tokenProgram useSeed => simp [CacheCall.ataKey, AtaCacheKey.compute] at hata
  | closeWsol payer => simp [CacheCall.ataKey, AtaCacheKey.compute] at hata

theorem step_moves {a : CacheAction} (hstep : step e shard s a = some s') : Moves e shard s s' := by
  cases a with
  | startPda i k =>
    simp only [step] at hstep
    split at hstep <;> cases hstep <;> rename_i hi <;> exact .startPda i k (by rw [hi]; exact id)
  | start i call =>
    simp only [step] at hstep
    split at hstep <;> cases hstep <;> rename_i hi <;> exact .start i call (by rw [hi]; exact id)
  | next i =>
    simp only [step] at hstep
    split at hstep
    next k hi =>
      split at hstep
      next pda hpda =>
        cases hstep
        exact .pdaHit hi hpda
      next =>
        split at hstep <;> cases hstep <;> rename_i hpda
        · exact .pdaFound hi hpda
        · exact .pdaNone hi hpda
    next k pda hi =>
      cases hstep
      exact .pdaPut hi
    next call hi =>
      split at hstep
      next ata hata =>
        cases hstep
        exact .ataHit hi hata
      next =>
        split at hstep <;> cases hstep <;> rename_i hata
        · exact .ataFound hi hata
        · exact moves_ataFails hi hata
    next call ata hi =>
      cases hstep
      exact .ataPut hi
    next call k hi =>
      split at hstep
      next => cases hstep
      next hfree =>
        split at hstep <;> cases hstep <;> rename_i hcached
        · exact .hit hi hcached
        · exact .lock hi hfree hcached
    next call k hi =>
      split at hstep <;> cases hstep
      next is his => exact .rented hi his
      next => exact .unlock hi
    next call k is hi =>
      cases hstep
      exact .fill hi
    next => cases hstep
  | storeRent is2022 rent =>
    cases hstep
    exact .rent _

end Moves

/-! ### The invariant -/

section Invariant

variable {e : Env} {shard : InstructionCacheKey → ℕ} {s s' : CacheState} {i : ℕ} {stage : CacheStage} {k : InstructionCacheKey}

/-- A thread has the lock of a shard exactly while it computes the instructions of a key there. -/
def Locks (shard : InstructionCacheKey → ℕ) (s : CacheState) : Prop :=
  ∀ n i, s.holder n = some i ↔ ∃ k, (s.threads i).held = some k ∧ shard k = n

/-- The tables hold what would be computed, the locks are with those who compute, and each call is on its way. -/
structure Inv (e : Env) (shard : InstructionCacheKey → ℕ) (s : CacheState) : Prop where
  pda : Memo.Holds (fun k pda => k.compute e.derivation = some pda) s.pdaCache
  ata : Memo.Holds (fun k ata => k.compute e.derivation = .ok ata) s.ataCache
  instructions : Memo.Holds (fun k is => ∀ call : CacheCall, call.instructionKey e = some k →
    ∃ r ∈ s.seen, call.plain (e.withRents r) = .instructions (.ok is)) s.instructionCache
  rents : s.rents ∈ s.seen
  threads : ∀ i, (s.threads i).Sound e s.seen
  locks : Locks shard s
  absent : ∀ i k, (s.threads i).held = some k → s.instructionCache k = none

theorem inv_init (r : Rents) : Inv e shard (init r) where
  pda := Memo.Holds.empty
  ata := Memo.Holds.empty
  instructions := Memo.Holds.empty
  rents := List.mem_singleton_self r
  threads _ := trivial
  locks n i := by simp [init, CacheStage.held]
  absent i k h := by cases h

theorem setThread_self (s : CacheState) (i : ℕ) (stage : CacheStage) : (s.setThread i stage).threads i = stage :=
  Function.update_self ..

theorem setThread_of_ne {j : ℕ} (h : j ≠ i) (s : CacheState) (stage : CacheStage) :
    (s.setThread i stage).threads j = s.threads j := Function.update_of_ne h ..

/-- What holds of the stage a thread goes to and of the other threads, holds of all. -/
theorem forall_setThread {P : ℕ → CacheStage → Prop} (hi : P i stage) (hs : ∀ j, j ≠ i → P j (s.threads j)) (j : ℕ) :
    P j ((s.setThread i stage).threads j) := by
  by_cases hj : j = i
  · subst hj
    rwa [setThread_self]
  · rw [setThread_of_ne hj]
    exact hs j hj

/-- A thread goes on with the locks it has. -/
theorem inv_setThread (h : Inv e shard s) (hstage : stage.Sound e s.seen) (hheld : stage.held = (s.threads i).held) :
    Inv e shard (s.setThread i stage) where
  pda := h.pda
  ata := h.ata
  instructions := h.instructions
  rents := h.rents
  threads := forall_setThread hstage fun j _ => h.threads j
  locks n := forall_setThread (P := fun j st => s.holder n = some j ↔ ∃ k, st.held = some k ∧ shard k = n)
    (by rw [hheld]; exact h.locks n i) fun j _ => h.locks n j
  absent := forall_setThread (P := fun _ st => ∀ k, st.held = some k → s.instructionCache k = none)
    (by rw [hheld]; exact h.absent i) fun j _ => h.absent j

/-- A thread takes a lock. -/
theorem inv_lock (h : Inv e shard s) (hstage : stage.Sound e s.seen) (hheld : stage.held = some k)
    (hold : (s.threads i).held = none) (hfree : s.holder (shard k) = none) (hnone : s.instructionCache k = none) :
    Inv e shard ((s.setThread i stage).setHolder (shard k) (some i)) where
  pda := h.pda
  ata := h.ata
  instructions := h.instructions
  rents := h.rents
  threads := forall_setThread hstage fun j _ => h.threads j
  locks n j := by
    have hlocks := h.locks n j
    show Function.update s.holder (shard k) (some i) n = some j ↔ ∃ k', ((s.setThread i stage).threads j).held = some k' ∧ shard k' = n
    by_cases hj : j = i
    · subst hj
      rw [setThread_self, hheld]
      by_cases hn : n = shard k
      · subst hn
        simp
      · rw [Function.update_of_ne hn, hlocks, hold]
        simpa using fun heq => hn heq.symm
    · rw [setThread_of_ne hj]
      by_cases hn : n = shard k
      · subst hn
        rw [Function.update_self, ← hlocks, hfree]
        simpa using Ne.symm hj
      · rw [Function.update_of_ne hn, hlocks]
  absent := forall_setThread (P := fun _ st => ∀ k, st.held = some k → s.instructionCache k = none)
    (by
      intro k' hk'
      rw [hheld, Option.some.injEq] at hk'
      rwa [← hk']) fun j _ => h.absent j

/-- A thread gives its lock back. -/
theorem inv_unlock (h : Inv e shard s) (hstage : stage.Sound e s.seen) (hheld : stage.held = none)
    (hold : (s.threads i).held = some k) : Inv e shard ((s.setThread i stage).setHolder (shard k) none) where
  pda := h.pda
  ata := h.ata
  instructions := h.instructions
  rents := h.rents
  threads := forall_setThread hstage fun j _ => h.threads j
  locks n j := by
    have hlocks := h.locks n j
    show Function.update s.holder (shard k) none n = some j ↔ ∃ k', ((s.setThread i stage).threads j).held = some k' ∧ shard k' = n
    by_cases hn : n = shard k
    · -- The others cannot have had it, since this thread had.
      subst hn
      have hmine : s.holder (shard k) = some i := (h.locks _ i).mpr ⟨k, hold, rfl⟩
      rw [Function.update_self]
      by_cases hj : j = i
      · subst hj
        simp [setThread_self, hheld]
      · rw [setThread_of_ne hj, ← hlocks, hmine]
        simpa using Ne.symm hj
    · rw [Function.update_of_ne hn]
      by_cases hj : j = i
      · subst hj
        rw [setThread_self, hheld, hlocks, hold]
        simpa using fun heq => hn heq.symm
      · rw [setThread_of_ne hj, hlocks]
  absent := forall_setThread (P := fun _ st => ∀ k, st.held = some k → s.instructionCache k = none)
    (by
      intro k' hk'
      rw [hheld] at hk'
      cases hk') fun j _ => h.absent j

/-- A thread puts in what it has computed and gives its lock back. -/
theorem inv_fill (h : Inv e shard s) {call : CacheCall} {is : List Instruction} (hi : s.threads i = .fill call k is) :
    Inv e shard { (s.setThread i (.done call (.instructions (.ok is)))).setHolder (shard k) none with
      instructionCache := Function.update s.instructionCache k (some is) } := by
  have hsound := h.threads i
  rw [hi] at hsound
  obtain ⟨hkey, r, hr, his⟩ := hsound
  have hheld : (s.threads i).held = some k := by
    rw [hi]
    rfl
  have hinv : Inv e shard ((s.setThread i (.done call (.instructions (.ok is)))).setHolder (shard k) none) :=
    inv_unlock h ⟨r, hr, his.symm⟩ rfl hheld
  refine { hinv with instructions := ?_, absent := ?_ }
  · refine hinv.instructions.insert fun call' hcall' => ?_
    rw [CacheCall.instructionKey_inj hkey hcall']
    exact ⟨r, hr, his⟩
  · intro j k' hk'
    have hne : k' ≠ k := by
      rintro rfl
      have hfree := (hinv.locks _ j).mpr ⟨k', hk', rfl⟩
      simp [setHolder] at hfree
    show Function.update s.instructionCache k (some is) k' = none
    rw [Function.update_of_ne hne]
    exact hinv.absent j k' hk'

/-- A move keeps the invariant. -/
theorem inv_moves (h : Inv e shard s) (hmoves : Moves e shard s s') : Inv e shard s' := by
  have hsound := h.threads
  cases hmoves with
  | startPda i k hidle => exact inv_setThread h trivial (CacheStage.held_of_not_busy hidle).symm
  | start i call hidle =>
    obtain ⟨hbegin, hheld⟩ : (begin call).Sound e s.seen ∧ (begin call).held = none := begin_sound call
    exact inv_setThread h hbegin (hheld.trans (CacheStage.held_of_not_busy hidle).symm)
  | pdaHit hi hpda => exact inv_setThread h (h.pda _ _ hpda).symm (by rw [hi]; rfl)
  | pdaFound hi hpda => exact inv_setThread h hpda (by rw [hi]; rfl)
  | pdaNone hi hpda => exact inv_setThread h hpda.symm (by rw [hi]; rfl)
  | @pdaPut i k pda hi =>
    specialize hsound i
    rw [hi] at hsound
    have hinv : Inv e shard (s.setThread i (.donePda k (some pda))) := inv_setThread h hsound.symm (by rw [hi]; rfl)
    exact { hinv with pda := hinv.pda.insert hsound }
  | @ataHit i call ata hi hata =>
    specialize hsound i
    rw [hi] at hsound
    exact inv_setThread h (withAta_sound hsound (h.ata _ _ hata) h.rents) (by rw [hi, withAta_held call ata ata]; cases call <;> rfl)
  | @ataFound i call ata hi hata =>
    specialize hsound i
    rw [hi] at hsound
    exact inv_setThread h ⟨hsound, hata⟩ (by rw [hi]; cases call <;> rfl)
  | ataFails hi hata => exact inv_setThread h ⟨s.rents, h.rents, congrArg CacheAnswer.address hata.symm⟩ (by rw [hi]; rfl)
  | @ataPut i call ata hi =>
    specialize hsound i
    rw [hi] at hsound
    have hinv := inv_setThread h (i := i) (withAta_sound hsound.1 hsound.2 h.rents) (by rw [hi, withAta_held call ata ata])
    exact { hinv with ata := hinv.ata.insert hsound.2 }
  | @hit i call k is hi hcached =>
    specialize hsound i
    rw [hi] at hsound
    obtain ⟨r, hr, hplain⟩ := h.instructions _ _ hcached call hsound
    exact inv_setThread h ⟨r, hr, hplain.symm⟩ (by rw [hi]; rfl)
  | @lock i call k hi hfree hnone =>
    specialize hsound i
    rw [hi] at hsound
    have hcompute := compute_sound hsound h.rents
    exact inv_lock h hcompute.1 hcompute.2 (by rw [hi]; rfl) hfree hnone
  | @rented i call k is hi his =>
    specialize hsound i
    rw [hi] at hsound
    exact inv_setThread h ⟨hsound, s.rents, h.rents, his⟩ (by rw [hi]; rfl)
  | unlock hi => exact inv_unlock h ⟨s.rents, h.rents, rfl⟩ rfl (by rw [hi]; rfl)
  | fill hi => exact inv_fill h hi
  | rent r =>
    exact
      { h with
        instructions := h.instructions.mono fun k is hk call hcall => by
          obtain ⟨r', hr', hplain⟩ := hk call hcall
          exact ⟨r', List.mem_cons_of_mem _ hr', hplain⟩
        rents := List.mem_cons_self
        threads := fun j => (h.threads j).mono _ }

theorem inv_step {a : CacheAction} (h : Inv e shard s) (hstep : step e shard s a = some s') : Inv e shard s' :=
  inv_moves h (step_moves hstep)

/-- **What a call comes to.** In every interleaving of the threads and of the updates of the rents, a derived address is the
one that would be computed, and every other call comes to what it would without the caches, with rents there have been. A call
that needs no rent comes to just what it would without the caches. -/
theorem answers_of_run {r : Rents} {as : List CacheAction} (hrun : Machine.run (step e shard) (init r) as = some s) :
    (∀ i k answer, s.threads i = .donePda k answer → answer = k.compute e.derivation) ∧
      (∀ i call answer, s.threads i = .done call answer → ∃ r' ∈ s.seen, answer = call.plain (e.withRents r')) ∧
      ∀ i call answer, s.threads i = .done call answer → call.NeedsAta → answer = call.plain e := by
  have hinv : Inv e shard s := Machine.invariant (fun _ _ _ h hs => inv_step h hs) (inv_init r) hrun
  have hdone : ∀ i call answer, s.threads i = .done call answer → ∃ r' ∈ s.seen, answer = call.plain (e.withRents r') := by
    intro i call answer hi
    have hsound := hinv.threads i
    rwa [hi] at hsound
  refine ⟨fun i k answer hi => ?_, hdone, fun i call answer hi hneeds => ?_⟩
  · have hsound := hinv.threads i
    rwa [hi] at hsound
  · obtain ⟨r', -, hanswer⟩ := hdone i call answer hi
    rw [hanswer, CacheCall.plain_withRents e hneeds]

/-! ### The first use -/

/-- The instructions of a call are in the table, and the threads done with it since the state `s₀` have got them. -/
def Settled (s₀ : CacheState) (call : CacheCall) (k : InstructionCacheKey) (is : List Instruction) (s : CacheState) : Prop :=
  s.instructionCache k = some is ∧
    ∀ i answer, s.threads i = .done call answer → answer = .instructions (.ok is) ∨ s₀.threads i = .done call answer

/-- While the instructions are in the table, nobody computes them. -/
theorem Settled.held_ne {s₀ : CacheState} {call : CacheCall} {is : List Instruction} {k' : InstructionCacheKey} (hinv : Inv e shard s)
    (h : Settled s₀ call k is s) (hheld : (s.threads i).held = some k') : k' ≠ k := by
  rintro rfl
  have hcached := h.1
  rw [hinv.absent i k' hheld] at hcached
  cases hcached

/-- A thread goes on, and if it ends this call it has the instructions. -/
theorem Settled.setThread {s₀ : CacheState} {call : CacheCall} {is : List Instruction} (h : Settled s₀ call k is s)
    (hstage : ∀ answer, stage = .done call answer → answer = .instructions (.ok is)) :
    Settled s₀ call k is (s.setThread i stage) :=
  ⟨h.1, forall_setThread
    (P := fun j st => ∀ answer, st = .done call answer → answer = .instructions (.ok is) ∨ s₀.threads j = .done call answer)
    (fun answer hanswer => .inl (hstage answer hanswer)) fun j _ => h.2 j⟩

theorem settled_moves {s₀ : CacheState} {call : CacheCall} {is : List Instruction} (hinv : Inv e shard s)
    (hkey : call.instructionKey e = some k) (h : Settled s₀ call k is s) (hmoves : Moves e shard s s') :
    Settled s₀ call k is s' := by
  have hsound := hinv.threads
  -- An account is not the end of a call for instructions.
  have hata : ∀ call' ata answer, withAta call' ata = .done call answer → answer = .instructions (.ok is) := by
    intro call' ata answer hanswer
    cases call' <;> cases hanswer
    cases hkey
  -- A thread that has another key locked is not in this call.
  have hother : ∀ {i call' k'}, call'.instructionKey e = some k' → (s.threads i).held = some k' → call' ≠ call := by
    rintro i call' k' hkey' hheld rfl
    exact h.held_ne hinv hheld (Option.some.inj (hkey'.symm.trans hkey))
  cases hmoves with
  | startPda | pdaHit | pdaFound | pdaNone | ataFound | rented => exact h.setThread fun _ hanswer => by cases hanswer
  | start i call' => exact h.setThread fun _ hanswer => by cases call' <;> cases hanswer
  | @pdaPut i k' pda hi =>
    have hset : Settled s₀ call k is (s.setThread i (.donePda k' (some pda))) := h.setThread fun _ hanswer => by cases hanswer
    exact hset
  | ataHit => exact h.setThread (hata _ _)
  | @ataPut i call' ata hi =>
    have hset : Settled s₀ call k is (s.setThread i (withAta call' ata)) := h.setThread (hata _ _)
    exact hset
  | ataFails =>
    refine h.setThread fun _ hanswer => ?_
    cases hanswer
    cases hkey
  | @hit i call' k' is' hi hcached =>
    specialize hsound i
    rw [hi] at hsound
    refine h.setThread fun _ hanswer => ?_
    cases hanswer
    obtain rfl : k' = k := Option.some.inj (hsound.symm.trans hkey)
    rw [Option.some.inj (hcached.symm.trans h.1)]
  | @lock i call' k' hi hfree hnone =>
    have hset : Settled s₀ call k is (s.setThread i (compute call' k')) := h.setThread fun _ hanswer => by
      cases k' with
      | createAssociatedTokenAccount =>
        simp only [compute] at hanswer
        split_ifs at hanswer
      | closeWsolAccount => cases hanswer
    exact hset
  | @unlock i call' k' hi =>
    specialize hsound i
    rw [hi] at hsound
    have hset : Settled s₀ call k is (s.setThread i (.done call' (call'.plain (e.withRents s.rents)))) :=
      h.setThread fun _ hanswer => by
        cases hanswer
        exact (hother hsound (by rw [hi]; rfl) rfl).elim
    exact hset
  | @fill i call' k' is' hi =>
    specialize hsound i
    rw [hi] at hsound
    have hheld : (s.threads i).held = some k' := by
      rw [hi]
      rfl
    have hset : Settled s₀ call k is (s.setThread i (.done call' (.instructions (.ok is')))) := h.setThread fun _ hanswer => by
      cases hanswer
      exact (hother hsound.1 hheld rfl).elim
    refine ⟨?_, hset.2⟩
    show Function.update s.instructionCache k' (some is') k = some is
    rw [Function.update_of_ne (h.held_ne hinv hheld).symm, h.1]
  | rent => exact h

/-- **The first use decides.** Once the instructions of a call are in the table, they stay there, and every call for them that
ends later gets these, whatever is stored as the rent in the meantime. -/
theorem first_stays {r : Rents} {as as' : List CacheAction} {call : CacheCall} {is : List Instruction}
    (hkey : call.instructionKey e = some k) (hrun : Machine.run (step e shard) (init r) as = some s)
    (hcached : s.instructionCache k = some is) (hrun' : Machine.run (step e shard) s as' = some s') :
    s'.instructionCache k = some is ∧
      ∀ i answer, s'.threads i = .done call answer → answer = .instructions (.ok is) ∨ s.threads i = .done call answer := by
  have hinv : Inv e shard s := Machine.invariant (fun _ _ _ h hs => inv_step h hs) (inv_init r) hrun
  exact (Machine.invariant (I := fun u => Inv e shard u ∧ Settled s call k is u)
    (fun _ _ _ h hs => ⟨inv_step h.1 hs, settled_moves h.1 hkey h.2 (step_moves hs)⟩)
    ⟨hinv, hcached, fun _ _ h => .inr h⟩ hrun').2

/-! ### Locks -/

/-- A thread in the middle of a call can go on, unless it waits for the lock of another thread. -/
theorem next_enabled (hbusy : (s.threads i).Busy) : (∃ s', step e shard s (.next i) = some s') ∨
    ∃ call k j, s.threads i = .entry call k ∧ s.holder (shard k) = some j := by
  rcases hi : s.threads i with _ | k | ⟨k, pda⟩ | ⟨k, answer⟩ | call | ⟨call, ata⟩ | ⟨call, k⟩ | ⟨call, k⟩ | ⟨call, k, is⟩ |
    ⟨call, answer⟩ <;> rw [hi] at hbusy
  case idle | donePda | done => exact hbusy.elim
  case entry =>
    rcases hholder : s.holder (shard k) with _ | j
    · left
      simp only [step, hi, hholder]
      split <;> exact ⟨_, rfl⟩
    · exact .inr ⟨call, k, j, rfl, hholder⟩
  all_goals
    left
    simp only [step, hi]
    (repeat' split) <;> exact ⟨_, rfl⟩

/-- **No thread is stuck.** In every state that is reached, a thread in the middle of a call can go on, or it waits for the
lock of another one that can. -/
theorem not_stuck {r : Rents} {as : List CacheAction} (hrun : Machine.run (step e shard) (init r) as = some s)
    (hbusy : (s.threads i).Busy) : ∃ j s', step e shard s (.next j) = some s' ∧
      (j = i ∨ ∃ call k, s.threads i = .entry call k ∧ s.holder (shard k) = some j ∧ j ≠ i) := by
  have hinv : Inv e shard s := Machine.invariant (fun _ _ _ h hs => inv_step h hs) (inv_init r) hrun
  have hgoes : (∃ s', step e shard s (.next i) = some s') ∨
      ∃ call k j, s.threads i = .entry call k ∧ s.holder (shard k) = some j := next_enabled hbusy
  obtain ⟨s', hs'⟩ | ⟨call, k, j, hi, hholder⟩ := hgoes
  · exact ⟨i, s', hs', .inl rfl⟩
  obtain ⟨k', hheld, -⟩ := (hinv.locks _ _).mp hholder
  have hj : j ≠ i := by
    rintro rfl
    rw [hi] at hheld
    cases hheld
  -- Who has a lock does not wait for one.
  have hgoes : ∃ s', step e shard s (.next j) = some s' := by
    refine (next_enabled ?_).resolve_right ?_
    · cases hst : s.threads j <;> rw [hst] at hheld <;> trivial
    · rintro ⟨call', k'', j', hj', -⟩
      rw [hj'] at hheld
      cases hheld
  obtain ⟨s', hs'⟩ := hgoes
  exact ⟨j, s', hs', .inr ⟨call, k, hi, hholder, hj⟩⟩

end Invariant

section Sample

/-- A builder's surroundings, with the system program's layout of the instruction. -/
def seedEnv : Env where
  derivation := ⟨fun _ _ => .default, fun _ _ _ => .ok .default⟩
  profile := .release
  splTokenRent := 0
  splToken2022Rent := 0
  createAccountWithSeed source target base seed lamports space owner :=
    { programId := systemProgram
      accounts := [.new source true, .new target false] ++ if base = source then [] else [.newReadonly base true]
      data := leBytes 4 3 ++ base.bytes ++ leBytes 8 seed.length ++ ascii seed ++ leBytes 8 lamports.toNat ++
        leBytes 8 space.toNat ++ owner.bytes }
  mayhemChoice := Fin.last 7

/-- A call for instructions with a rent, and its key. -/
def seedCall : CacheCall := .create .default .default ammProgram tokenProgram true

def seedKey : InstructionCacheKey := .createAssociatedTokenAccount .default .default ammProgram tokenProgram true

/-- One thread has the lock, another one comes to it. -/
def lockedRun : List CacheAction := [.start 0 seedCall, .next 0, .start 1 seedCall]

/-- The first goes on to the end. -/
def firstUse : List CacheAction := lockedRun ++ [.next 0, .next 0]

/-- The rent changes before the second goes on. -/
def secondUse : List CacheAction := [.storeRent false 200, .next 1]

/-- The instructions with a rent. -/
def seedInstructions (rent : UInt64) : List Instruction :=
  [seedEnv.createAccountWithSeed .default .default .default (mintSeed ammProgram) rent 165 tokenProgram,
    initializeAccount3 tokenProgram .default ammProgram .default]

theorem answers_of_run_firstUse : ∃ s, Machine.run (step seedEnv fun _ => 0) (init ⟨100, 100⟩) firstUse = some s ∧
    ∃ r ∈ s.seen, CacheAnswer.instructions (.ok (seedInstructions 100)) = seedCall.plain (seedEnv.withRents r) := by
  have hsome : (Machine.run (step seedEnv fun _ => 0) (init ⟨100, 100⟩) firstUse).map (·.threads 0) =
      some (.done seedCall (.instructions (.ok (seedInstructions 100)))) := by decide +kernel
  obtain ⟨s, hrun, hdone⟩ := Option.map_eq_some_iff.mp hsome
  exact ⟨s, hrun, (answers_of_run hrun).2.1 0 _ _ hdone⟩

theorem first_stays_secondUse : ∃ s s', Machine.run (step seedEnv fun _ => 0) (init ⟨100, 100⟩) firstUse = some s ∧
    Machine.run (step seedEnv fun _ => 0) s secondUse = some s' ∧ s'.rents = ⟨200, 100⟩ ∧
      s'.instructionCache seedKey = some (seedInstructions 100) := by
  have hfirst : (Machine.run (step seedEnv fun _ => 0) (init ⟨100, 100⟩) firstUse).map (·.instructionCache seedKey) =
      some (some (seedInstructions 100)) := by decide +kernel
  have hsecond : ((Machine.run (step seedEnv fun _ => 0) (init ⟨100, 100⟩) firstUse).bind fun s =>
      Machine.run (step seedEnv fun _ => 0) s secondUse).map (·.rents) = some ⟨200, 100⟩ := by decide +kernel
  obtain ⟨s, hrun, hcached⟩ := Option.map_eq_some_iff.mp hfirst
  rw [hrun, Option.bind_some] at hsecond
  obtain ⟨s', hrun', hrents⟩ := Option.map_eq_some_iff.mp hsecond
  have hkey : seedCall.instructionKey seedEnv = some seedKey := rfl
  exact ⟨s, s', hrun, hrun', hrents, (first_stays hkey hrun hcached hrun').1⟩

theorem not_stuck_lockedRun : ∃ s, Machine.run (step seedEnv fun _ => 0) (init ⟨100, 100⟩) lockedRun = some s ∧
    ∃ j s', step seedEnv (fun _ => 0) s (.next j) = some s' ∧
      (j = 1 ∨ ∃ call k, s.threads 1 = .entry call k ∧ s.holder 0 = some j ∧ j ≠ 1) := by
  have hsome : (Machine.run (step seedEnv fun _ => 0) (init ⟨100, 100⟩) lockedRun).map (·.threads 1) =
      some (.entry seedCall seedKey) := by decide +kernel
  obtain ⟨s, hrun, hentry⟩ := Option.map_eq_some_iff.mp hsome
  exact ⟨s, hrun, not_stuck hrun (by rw [hentry]; trivial)⟩

end Sample

end CacheState

end PumpSwapBot.Sdk
