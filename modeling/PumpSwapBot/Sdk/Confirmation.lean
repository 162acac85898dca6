import PumpSwapBot.Sdk.Wakeups

/-!
# Waiting for a confirmation

How the SDK learns what became of the transactions it has sent
(`poll_any_transaction_confirmation` in `swqos/common.rs`): it asks for the statuses of all signatures
once a second, returns the first that is confirmed, and after ten rounds also looks at the first
transaction that is on the chain at all.

## The model

What the RPC answers in a round, and how much time has passed, is the environment's (`Round`): the
loop is a recursion over a list of rounds, and has no result yet when the list ends. How a
transaction's error is displayed and a text is quoted are parameters.

## What is proved

* `pollAny_ok` and `pollAny_verdict` — a confirmation is one, and a failure is reported only for a transaction
  that is on the chain and failed, after ten rounds, and if no signature was seen confirmed.
* `pollAny_returns` — the loop returns within sixteen rounds, if a round takes a second.
* `swap_confirmed` — a trade that waits for its confirmation is successful only if one of the signatures it
  returns is confirmed.
-/

namespace PumpSwapBot.Sdk

/-! ### The chain's answers -/

/-- Why an instruction failed. -/
inductive InstructionError where
  | custom (code : UInt32)
  | genericError
  | invalidArgument
  | invalidInstructionData
  | invalidAccountData
  | accountDataTooSmall
  | insufficientFunds
  | incorrectProgramId
  | missingRequiredSignature
  | accountAlreadyInitialized
  | uninitializedAccount
  /-- Any other, by its name. -/
  | other (name : String)
  deriving DecidableEq

/-- The code the SDK gives it. -/
def InstructionError.code : InstructionError → ℕ
  | .custom c => c.toNat
  | .genericError => 1
  | .invalidArgument => 2
  | .invalidInstructionData => 3
  | .invalidAccountData => 4
  | .accountDataTooSmall => 5
  | .insufficientFunds => 6
  | .incorrectProgramId => 7
  | .missingRequiredSignature => 8
  | .accountAlreadyInitialized => 9
  | .uninitializedAccount => 10
  | .other _ => 999

/-- Why a transaction failed. -/
inductive TransactionError where
  | instructionError (index : ℕ) (e : InstructionError)
  /-- Any other, by its name. -/
  | other (name : String)
  deriving DecidableEq

/-- How far a transaction is. -/
inductive TransactionConfirmationStatus where
  | processed
  | confirmed
  | finalized
  deriving DecidableEq

/-- The status of a signature. -/
structure TransactionStatus where
  err : Option TransactionError
  confirmationStatus : Option TransactionConfirmationStatus
  deriving DecidableEq

/-- The transaction is on the chain for good. -/
def TransactionStatus.isConfirmed (s : TransactionStatus) : Bool :=
  s.err.isNone && (s.confirmationStatus = some .confirmed || s.confirmationStatus = some .finalized)

/-- What the chain has noted of a transaction. -/
structure TransactionMeta where
  /-- The error, if the answer of the RPC can be read. -/
  err : Option (Except Error TransactionError)
  logMessages : Option (List String)

/-- What a round of the loop meets. -/
structure Round where
  /-- The milliseconds since the loop began. -/
  elapsed : ℕ
  /-- The statuses of all signatures. -/
  statuses : Except Error (List (Option TransactionStatus))
  /-- The details of a transaction, if the RPC is asked for them. -/
  details : Signature → Except Error (Option TransactionMeta)

/-- How the loop ends other than by a signature. -/
inductive PollFailure where
  | err (e : SendError)
  | panic (msg : String)

/-! ### Error messages in logs -/

/-- What follows the first occurrence of `t`. -/
def afterText (t : List Char) : List Char → Option (List Char)
  | [] => if t = [] then some [] else none
  | c :: s => if t <+: c :: s then some ((c :: s).drop t.length) else afterText t s

/-- A text without the dots at its end. -/
def trimEndDots (s : List Char) : List Char := (s.reverse.dropWhile (· = '.')).reverse

/-- The error message in a line of the logs. -/
def logMessage (log : String) : Option String :=
  match afterText "Error Message: ".toList log.toList with
  | some rest => some (String.ofList (trimEndDots rest))
  | none => (afterText "Program log: Error: ".toList log.toList).map fun rest => String.ofList (trimEndDots rest)

/-- All of them, one after the other. -/
def logMessages (logs : List String) : String :=
  logs.foldl (fun msg log => match logMessage log with
    | some m => (if msg.isEmpty then msg else msg ++ "; ") ++ m
    | none => msg) ""

/-! ### The loop -/

/-- Go through the statuses, from position `i`: stop at a confirmed one, else keep the first signature with any. -/
def scanStatuses (signatures : List Signature) : ℕ → List (Option TransactionStatus) → Option Signature →
    Except PollFailure (Signature ⊕ Option Signature)
  | _, [], landed => .ok (.inr landed)
  | i, none :: rest, landed => scanStatuses signatures (i + 1) rest landed
  | i, some s :: rest, landed =>
    if s.isConfirmed || landed.isNone then
      match signatures[i]? with
      | none => .error (.panic s!"index out of bounds: the len is {signatures.length} but the index is {i}")
      | some sig => if s.isConfirmed then .ok (.inl sig) else scanStatuses signatures (i + 1) rest (some sig)
    else scanStatuses signatures (i + 1) rest landed

section Poll

-- How an error of a transaction is displayed, and how a text is quoted.
variable (display : TransactionError → String) (debug : String → String)

/-- The error of a transaction that failed on the chain. -/
def tradeErrorOf (e : TransactionError) (logs : Option (List String)) : TradeError where
  code := match e with
    | .instructionError _ i => i.code
    | .other _ => 0
  message := display e ++ " " ++ debug (logMessages (logs.getD []))
  instruction := match e with
    | .instructionError index _ => some index
    | .other _ => none

/-- The round number `pollCount`: it ends the loop, or the next one begins with the first signature that has had a
status. -/
def pollRound (signatures : List Signature) (pollCount : ℕ) (landed : Option Signature) (r : Round) :
    Except PollFailure Signature ⊕ Option Signature :=
  if r.elapsed ≥ 15000 then
    .inl (.error (.err (.other (anyhow
      s!"Transaction confirmation timed out after 15s ({signatures.length} signatures polled)"))))
  else match r.statuses with
  | .error e => .inl (.error (.err (.other e)))
  | .ok statuses => match scanStatuses signatures 0 statuses landed with
    | .error e => .inl (.error e)
    | .ok (.inl sig) => .inl (.ok sig)
    | .ok (.inr none) => .inr none
    | .ok (.inr (some sig)) =>
      if pollCount < 10 then .inr (some sig)
      else match r.details sig with
        | .error _ => .inr (some sig)
        | .ok none => .inr (some sig)
        | .ok (some details) => match details.err with
          | none => .inl (.ok sig)
          | some (.error e) => .inl (.error (.err (.other e)))
          | some (.ok e) => .inl (.error (.err (.trade (tradeErrorOf display debug e details.logMessages))))

/-- The loop, after `pollCount` rounds. -/
def pollRounds (signatures : List Signature) : ℕ → Option Signature → List Round → Option (Except PollFailure Signature)
  | _, _, [] => none
  | pollCount, landed, r :: rs => match pollRound display debug signatures (pollCount + 1) landed r with
    | .inl result => some result
    | .inr landed => pollRounds signatures (pollCount + 1) landed rs

/-- Wait until one of the signatures is confirmed. -/
def pollAnyTransactionConfirmation (signatures : List Signature) (waitConfirmation : Bool) (rounds : List Round) :
    Option (Except PollFailure Signature) :=
  match signatures with
  | [] => some (.error (.err (.other (anyhow "No signatures to confirm"))))
  | sig :: _ => if waitConfirmation then pollRounds display debug signatures 0 none rounds else some (.ok sig)

end Poll

/-! ### What a round shows -/

/-- The round shows the signature as confirmed. -/
def Round.Confirms (r : Round) (signatures : List Signature) (sig : Signature) : Prop :=
  ∃ statuses, ∃ i : ℕ, ∃ s : TransactionStatus, r.statuses = .ok statuses ∧ statuses[i]? = some (some s) ∧ signatures[i]? = some sig ∧
    s.isConfirmed = true

/-- The details say that the transaction is on the chain and succeeded. -/
def Round.Succeeds (r : Round) (sig : Signature) : Prop :=
  ∃ details, r.details sig = .ok (some details) ∧ details.err = none

/-- The details say that the transaction is on the chain and failed. -/
def Round.Fails (r : Round) (sig : Signature) (e : TransactionError) : Prop :=
  ∃ details, r.details sig = .ok (some details) ∧ details.err = some (.ok e)

section Scan

variable {signatures : List Signature} {statuses : List (Option TransactionStatus)} {landed : Option Signature} {i : ℕ}

/-- What the scan does at a signature with a status. -/
theorem scanStatuses_some (signatures : List Signature) (i : ℕ) (statuses : List (Option TransactionStatus))
    (landed : Option Signature) (s : TransactionStatus) :
    (s.isConfirmed = true ∧ ∃ sig, signatures[i]? = some sig ∧
        scanStatuses signatures i (some s :: statuses) landed = .ok (.inl sig)) ∨
      (s.isConfirmed = false ∧ ∃ landed', (landed' = landed ∨ ∃ sig ∈ signatures, landed' = some sig) ∧
        scanStatuses signatures i (some s :: statuses) landed = scanStatuses signatures (i + 1) statuses landed') ∨
      ∃ msg, scanStatuses signatures i (some s :: statuses) landed = .error (.panic msg) := by
  simp only [scanStatuses]
  cases hs : s.isConfirmed <;> simp only [Bool.false_or, Bool.true_or, if_true]
  · rcases landed with _ | l
    · rcases hi : signatures[i]? with _ | sig
      · exact .inr (.inr ⟨_, rfl⟩)
      · exact .inr (.inl ⟨trivial, some sig, .inr ⟨sig, List.mem_of_getElem? hi, rfl⟩, rfl⟩)
    · exact .inr (.inl ⟨trivial, some l, .inl rfl, rfl⟩)
  · rcases hi : signatures[i]? with _ | sig
    · exact .inr (.inr ⟨_, rfl⟩)
    · exact .inl ⟨trivial, sig, rfl, rfl⟩

theorem scanStatuses_inl {sig : Signature} (h : scanStatuses signatures i statuses landed = .ok (.inl sig)) :
    ∃ j, ∃ s : TransactionStatus, statuses[j]? = some (some s) ∧ signatures[i + j]? = some sig ∧ s.isConfirmed = true := by
  induction statuses generalizing i landed with
  | nil => cases h
  | cons status rest ih =>
    have hlater : ∀ landed', scanStatuses signatures (i + 1) rest landed' = .ok (.inl sig) → ∃ j, ∃ s : TransactionStatus,
        (status :: rest)[j]? = some (some s) ∧ signatures[i + j]? = some sig ∧ s.isConfirmed = true := by
      intro landed' h'
      obtain ⟨j, s, hj, hsig, hs⟩ := ih h'
      exact ⟨j + 1, s, by simpa using hj, by rwa [← Nat.add_assoc, Nat.add_right_comm], hs⟩
    rcases status with _ | s
    · exact hlater landed h
    · rcases scanStatuses_some signatures i rest landed s with
        ⟨hs, sig', hsig, heq⟩ | ⟨-, landed', -, heq⟩ | ⟨msg, heq⟩ <;> rw [heq] at h
      · cases h
        exact ⟨0, s, rfl, hsig, hs⟩
      · exact hlater landed' h
      · cases h

theorem scanStatuses_inr {landed' : Option Signature} (h : scanStatuses signatures i statuses landed = .ok (.inr landed')) :
    (∀ s, some s ∈ statuses → s.isConfirmed = false) ∧ (landed' = landed ∨ ∃ sig ∈ signatures, landed' = some sig) := by
  induction statuses generalizing i landed with
  | nil =>
    cases h
    exact ⟨by simp, .inl rfl⟩
  | cons status rest ih =>
    rcases status with _ | s
    · obtain ⟨hrest, hlanded⟩ := ih h
      exact ⟨fun s' hs' => hrest s' (by simpa using hs'), hlanded⟩
    · rcases scanStatuses_some signatures i rest landed s with
        ⟨-, sig', -, heq⟩ | ⟨hs, landed₁, hlanded₁, heq⟩ | ⟨msg, heq⟩ <;> rw [heq] at h
      · cases h
      · obtain ⟨hrest, hlanded⟩ := ih h
        refine ⟨fun s' hs' => ?_, ?_⟩
        · rcases List.mem_cons.mp hs' with hhead | hmem
          · cases hhead
            exact hs
          · exact hrest s' hmem
        · rcases hlanded with rfl | hmem
          · exact hlanded₁
          · exact .inr hmem
      · cases h

/-- The scan fails with a panic only. -/
theorem scanStatuses_error {e : PollFailure} (h : scanStatuses signatures i statuses landed = .error e) :
    ∃ msg, e = .panic msg := by
  induction statuses generalizing i landed with
  | nil => cases h
  | cons status rest ih =>
    rcases status with _ | s
    · exact ih h
    · rcases scanStatuses_some signatures i rest landed s with
        ⟨-, sig', -, heq⟩ | ⟨-, landed', -, heq⟩ | ⟨msg, heq⟩ <;> rw [heq] at h
      · cases h
      · exact ih h
      · cases h
        exact ⟨msg, rfl⟩

end Scan

section Poll

variable {display : TransactionError → String} {debug : String → String} {signatures : List Signature}
  {pollCount : ℕ} {landed : Option Signature} {r : Round} {rounds : List Round}

/-- What a round can come to. -/
inductive RoundEnds (display : TransactionError → String) (debug : String → String) (signatures : List Signature)
    (pollCount : ℕ) (landed : Option Signature) (r : Round) : Except PollFailure Signature ⊕ Option Signature → Prop where
  | failed (e : Error) : RoundEnds display debug signatures pollCount landed r (.inl (.error (.err (.other e))))
  | panicked (msg : String) : RoundEnds display debug signatures pollCount landed r (.inl (.error (.panic msg)))
  | confirmed {sig : Signature} (hmem : sig ∈ signatures) (h : r.Confirms signatures sig) :
    RoundEnds display debug signatures pollCount landed r (.inl (.ok sig))
  | goesOn {landed' : Option Signature} (htime : r.elapsed < 15000) (hno : ∀ sig, ¬ r.Confirms signatures sig)
      (hlanded : landed' = landed ∨ ∃ sig ∈ signatures, landed' = some sig) :
    RoundEnds display debug signatures pollCount landed r (.inr landed')
  | succeeded {sig : Signature} (hlanded : landed = some sig ∨ sig ∈ signatures) (h : r.Succeeds sig) :
    RoundEnds display debug signatures pollCount landed r (.inl (.ok sig))
  | trade {sig : Signature} {e : TransactionError} {logs : Option (List String)} (hcount : 10 ≤ pollCount)
      (hno : ∀ sig, ¬ r.Confirms signatures sig) (hlanded : landed = some sig ∨ sig ∈ signatures) (h : r.Fails sig e) :
    RoundEnds display debug signatures pollCount landed r (.inl (.error (.err (.trade (tradeErrorOf display debug e logs)))))

/-- A round whose scan keeps a signature, or none. -/
theorem no_confirms_of_scan {statuses : List (Option TransactionStatus)} {landed' : Option Signature}
    (hstatuses : r.statuses = .ok statuses) (hscan : scanStatuses signatures 0 statuses landed = .ok (.inr landed')) :
    ∀ sig, ¬ r.Confirms signatures sig := by
  rintro sig ⟨statuses', i, s, hs', hi, -, hs⟩
  rw [hstatuses] at hs'
  cases hs'
  rw [(scanStatuses_inr hscan).1 s (List.mem_of_getElem? hi)] at hs
  cases hs

theorem pollRound_ends (display : TransactionError → String) (debug : String → String) (signatures : List Signature)
    (pollCount : ℕ) (landed : Option Signature) (r : Round) :
    RoundEnds display debug signatures pollCount landed r (pollRound display debug signatures pollCount landed r) := by
  unfold pollRound
  by_cases htime : r.elapsed ≥ 15000
  · rw [if_pos htime]
    exact .failed _
  rw [if_neg htime]
  rcases hstatuses : r.statuses with e | statuses
  · exact .failed e
  dsimp only
  rcases hscan : scanStatuses signatures 0 statuses landed with e | sig | _ | sig
  · obtain ⟨msg, rfl⟩ := scanStatuses_error hscan
    exact .panicked msg
  · obtain ⟨j, s, hj, hsig, hs⟩ := scanStatuses_inl hscan
    rw [Nat.zero_add] at hsig
    exact .confirmed (List.mem_of_getElem? hsig) ⟨statuses, j, s, hstatuses, hj, hsig, hs⟩
  · exact .goesOn (not_le.mp htime) (no_confirms_of_scan hstatuses hscan) (scanStatuses_inr hscan).2
  · have hno := no_confirms_of_scan hstatuses hscan
    have hkeep := (scanStatuses_inr hscan).2
    have hlanded : landed = some sig ∨ sig ∈ signatures := by
      rcases hkeep with heq | ⟨sig', hmem, heq⟩
      · exact .inl heq.symm
      · cases heq
        exact .inr hmem
    dsimp only
    by_cases hcount : pollCount < 10
    · rw [if_pos hcount]
      exact .goesOn (not_le.mp htime) hno hkeep
    rw [if_neg hcount]
    rcases hdetails : r.details sig with e | _ | details
    · exact .goesOn (not_le.mp htime) hno hkeep
    · exact .goesOn (not_le.mp htime) hno hkeep
    dsimp only
    rcases herr : details.err with _ | e | e
    · exact .succeeded hlanded ⟨details, hdetails, herr⟩
    · exact .failed e
    · exact .trade (not_lt.mp hcount) hno hlanded ⟨details, hdetails, herr⟩

/-! ### What the loop says -/

/-- What the signature kept so far is among those asked for. -/
def Kept (signatures : List Signature) (landed : Option Signature) : Prop := ∀ sig, landed = some sig → sig ∈ signatures

theorem kept_of_round {landed' : Option Signature} (h : Kept signatures landed)
    (hlanded : landed' = landed ∨ ∃ sig ∈ signatures, landed' = some sig) : Kept signatures landed' := by
  rintro sig rfl
  rcases hlanded with heq | ⟨sig', hmem, heq⟩
  · exact h sig heq.symm
  · cases heq
    exact hmem

theorem pollRounds_ok (hkept : Kept signatures landed) {sig : Signature}
    (h : pollRounds display debug signatures pollCount landed rounds = some (.ok sig)) :
    sig ∈ signatures ∧ ∃ r ∈ rounds, r.Confirms signatures sig ∨ r.Succeeds sig := by
  induction rounds generalizing pollCount landed with
  | nil => cases h
  | cons r rs ih =>
    have hends := pollRound_ends display debug signatures (pollCount + 1) landed r
    simp only [pollRounds] at h
    rcases hround : pollRound display debug signatures (pollCount + 1) landed r with result | landed' <;>
      rw [hround] at h hends
    · cases h
      cases hends with
      | confirmed hmem hconfirms => exact ⟨hmem, r, List.mem_cons_self, .inl hconfirms⟩
      | succeeded hlanded hsucceeds =>
        exact ⟨hlanded.elim (hkept sig) id, r, List.mem_cons_self, .inr hsucceeds⟩
    · cases hends with
      | goesOn htime hno hlanded =>
        obtain ⟨hmem, r', hr', hshown⟩ := ih (kept_of_round hkept hlanded) h
        exact ⟨hmem, r', List.mem_cons_of_mem _ hr', hshown⟩

theorem pollRounds_trade (hkept : Kept signatures landed) {e : TradeError}
    (h : pollRounds display debug signatures pollCount landed rounds = some (.error (.err (.trade e)))) :
    ∃ before r after, rounds = before ++ r :: after ∧ 10 ≤ pollCount + before.length + 1 ∧
      (∀ r' ∈ before ++ [r], ∀ sig, ¬ r'.Confirms signatures sig) ∧
      ∃ sig ∈ signatures, ∃ err logs, r.Fails sig err ∧ e = tradeErrorOf display debug err logs := by
  induction rounds generalizing pollCount landed with
  | nil => cases h
  | cons r rs ih =>
    have hends := pollRound_ends display debug signatures (pollCount + 1) landed r
    simp only [pollRounds] at h
    rcases hround : pollRound display debug signatures (pollCount + 1) landed r with result | landed' <;>
      rw [hround] at h hends
    · cases h
      cases hends with
      | @trade sig err logs hcount hno hlanded hfails =>
        refine ⟨[], r, rs, rfl, by simpa using hcount, ?_, sig, hlanded.elim (hkept sig) id, err, logs, hfails, rfl⟩
        simpa using hno
    · cases hends with
      | goesOn htime hno hlanded =>
        obtain ⟨before, r', after, rfl, hcount, hnone, hfailed⟩ := ih (kept_of_round hkept hlanded) h
        refine ⟨r :: before, r', after, rfl, by simp only [List.length_cons]; omega, ?_, hfailed⟩
        intro r'' hr''
        rcases List.mem_cons.mp hr'' with rfl | hmem
        · exact hno
        · exact hnone r'' hmem

/-- A loop without a result has not seen its time up. -/
theorem pollRounds_none (h : pollRounds display debug signatures pollCount landed rounds = none) :
    ∀ r ∈ rounds, r.elapsed < 15000 := by
  induction rounds generalizing pollCount landed with
  | nil => exact fun r hr => by cases hr
  | cons r rs ih =>
    have hends := pollRound_ends display debug signatures (pollCount + 1) landed r
    simp only [pollRounds] at h
    rcases hround : pollRound display debug signatures (pollCount + 1) landed r with result | landed' <;>
      rw [hround] at h hends
    · cases h
    · cases hends with
      | goesOn htime hno hlanded =>
        intro r' hr'
        rcases List.mem_cons.mp hr' with rfl | hmem
        · exact htime
        · exact ih h r' hmem

theorem pollAny_ok {sig : Signature}
    (h : pollAnyTransactionConfirmation display debug signatures true rounds = some (.ok sig)) :
    sig ∈ signatures ∧ ∃ r ∈ rounds, r.Confirms signatures sig ∨ r.Succeeds sig := by
  unfold pollAnyTransactionConfirmation at h
  split at h
  · cases h
  · exact pollRounds_ok (fun sig hsig => by cases hsig) h

/-- **What the loop says is so.** A signature it returns is one of those asked for, and some round showed it confirmed
or its transaction successful. A failure it reports is that of a transaction on the chain, with its code, not before the
tenth round, and no round up to then showed any of the signatures confirmed. -/
theorem pollAny_verdict {result : Except PollFailure Signature}
    (h : pollAnyTransactionConfirmation display debug signatures true rounds = some result) :
    (∀ sig, result = .ok sig → sig ∈ signatures ∧ ∃ r ∈ rounds, r.Confirms signatures sig ∨ r.Succeeds sig) ∧
      ∀ e, result = .error (.err (.trade e)) →
        ∃ before r after, rounds = before ++ r :: after ∧ 9 ≤ before.length ∧
          (∀ r' ∈ before ++ [r], ∀ sig, ¬ r'.Confirms signatures sig) ∧
          ∃ sig ∈ signatures, ∃ err logs, r.Fails sig err ∧ e = tradeErrorOf display debug err logs := by
  refine ⟨?_, ?_⟩
  · rintro sig rfl
    exact pollAny_ok h
  · rintro e rfl
    unfold pollAnyTransactionConfirmation at h
    split at h
    · cases h
    · obtain ⟨before, r, after, hrounds, hcount, hnone, hfailed⟩ := pollRounds_trade (fun sig hsig => by cases hsig) h
      exact ⟨before, r, after, hrounds, by omega, hnone, hfailed⟩

/-- A round in which the second of two transactions is confirmed, and the first is on the chain and failed. -/
def secondConfirmed : Round where
  elapsed := 0
  statuses := .ok [some ⟨some (.instructionError 3 (.custom 6004)), some .confirmed⟩, some ⟨none, some .confirmed⟩]
  details _ := .error (anyhow "")

theorem pollAny_verdict_secondConfirmed : ∃ r ∈ [secondConfirmed], r.Confirms ["a", "b"] "b" ∨ r.Succeeds "b" :=
  ((pollAny_verdict (show pollAnyTransactionConfirmation (fun _ => "") id ["a", "b"] true [secondConfirmed] =
    some (.ok "b") from rfl)).1 "b" rfl).2

/-- The rounds come at least a second apart. -/
def Paced (rounds : List Round) : Prop :=
  ∀ k r r', rounds[k]? = some r → rounds[k + 1]? = some r' → r.elapsed + 1000 ≤ r'.elapsed

theorem Paced.elapsed_ge (h : Paced rounds) {k : ℕ} {r : Round} (hk : rounds[k]? = some r) : 1000 * k ≤ r.elapsed := by
  induction k generalizing r with
  | zero => simp
  | succ k ih =>
    obtain ⟨r₀, h₀⟩ : ∃ r₀, rounds[k]? = some r₀ := by
      have hlt : k + 1 < rounds.length := (List.getElem?_eq_some_iff.mp hk).1
      exact ⟨rounds.get ⟨k, by omega⟩, List.getElem?_eq_getElem (by omega)⟩
    have h₁ := ih h₀
    have h₂ := h k r₀ r h₀ hk
    omega

/-- **The loop returns within sixteen rounds**, whatever the chain answers: it has the transaction's fate, or a failure. -/
theorem pollAny_returns (hpaced : Paced rounds) (hlen : 16 ≤ rounds.length) (waitConfirmation : Bool) :
    (pollAnyTransactionConfirmation display debug signatures waitConfirmation rounds).isSome = true := by
  unfold pollAnyTransactionConfirmation
  split
  · rfl
  next sig sigs =>
    split_ifs
    · rw [Option.isSome_iff_ne_none]
      intro hnone
      have hlate := hpaced.elapsed_ge (List.getElem?_eq_getElem (show 15 < rounds.length by omega))
      have hearly := pollRounds_none hnone _ (List.getElem_mem (show 15 < rounds.length by omega))
      omega
    · rfl

/-- Sixteen rounds without a status for the signature. -/
def silentRounds : List Round := (List.range 16).map fun k => ⟨1000 * k, .ok [none], fun _ => .error (anyhow "")⟩

theorem pollAny_returns_silentRounds :
    (pollAnyTransactionConfirmation (fun _ => "") id ["a"] true silentRounds).isSome = true := by
  refine pollAny_returns ?_ (by simp [silentRounds]) true
  intro k r r' hk hk'
  simp only [silentRounds, List.getElem?_map, Option.map_eq_some_iff] at hk hk'
  obtain ⟨k₁, hk₁, rfl⟩ := hk
  obtain ⟨k₂, hk₂, rfl⟩ := hk'
  obtain ⟨hlt₁, rfl⟩ := List.getElem?_eq_some_iff.mp hk₁
  obtain ⟨hlt₂, rfl⟩ := List.getElem?_eq_some_iff.mp hk₂
  simp only [List.getElem_range]
  omega

end Poll

/-! ### A trade that waits -/

/-- What the network collects for some tasks is what a call gets through the pool, in some run. -/
def PoolCollects (net : Network) (tasks : List Task) : Prop :=
  ∃ n, ∃ s : PoolState n, ∃ as b r, Library.Machine.run PoolState.step PoolState.init as = some s ∧
    (s.batches b).tasks = tasks ∧ (s.batches b).confirm = false ∧ (s.batches b).caller = .returned r ∧
    net.collect tasks = r.map fun report => (report.success, report.signatures, report.error.map SendError.toError)

/-- The network confirms signatures by the loop, over some rounds. -/
def LoopConfirms (display : TransactionError → String) (debug : String → String) (net : Network) (rounds : List Round) :
    Prop :=
  ∀ signatures, net.confirm signatures = .ok () →
    ∃ sig, pollAnyTransactionConfirmation display debug signatures true rounds = some (.ok sig)

/-- Through the pool a report without signatures is not a success. -/
theorem PoolCollects.signatures_ne_nil {net : Network} {tasks : List Task} (h : PoolCollects net tasks)
    {success : Bool} {signatures : List Signature} {err : Option Error}
    (hcollect : net.collect tasks = some (success, signatures, err)) : signatures ≠ [] := by
  obtain ⟨n, s, as, b, r, hrun, htasks, hconfirm, hreturned, hnet⟩ := h
  have hplace := ((PoolState.inv_run hrun).sound b).place
  simp only [Batch.Place, hreturned, hconfirm] at hplace
  obtain ⟨rfl, -⟩ := hplace
  rw [hnet] at hcollect
  obtain ⟨report, hreport, heq⟩ := Option.map_eq_some_iff.mp hcollect
  unfold Report.first at hreport
  split_ifs at hreport with hempty
  cases hreport
  cases heq
  simpa [Report.ofResults] using hempty

/-- **A trade that waits for its confirmation is successful only if it is confirmed:** some round has shown one of the
signatures it returns as confirmed, or its transaction as successful. -/
theorem swap_confirmed {display : TransactionError → String} {debug : String → String} {e : Env} {net : Network}
    {params : SwapParams} {rounds : List Round} (hwait : params.waitTxConfirmed = true)
    (hpool : ∀ tasks, submitTasks params params.isBuy params.mayTip = .ok tasks → PoolCollects net tasks)
    (hloop : LoopConfirms display debug net rounds) {signatures : List Signature} {err : Option TradeError}
    (h : swap e net params = .ok (true, signatures, err)) :
    ∃ sig ∈ signatures, ∃ r ∈ rounds, r.Confirms signatures sig ∨ r.Succeeds sig := by
  obtain ⟨instructions, -, h⟩ := bind_eq_ok.mp h
  obtain ⟨_, -, h⟩ := bind_eq_ok.mp h
  obtain ⟨submitted, hsubmitted, h⟩ := bind_eq_ok.mp h
  rcases submitted with e' | ⟨success, sigs, last⟩
  · simp [hwait] at h
    cases h
  · -- The call went through, so the tasks were there and the pool has reported.
    have hexec : executeParallel net params params.isBuy params.mayTip = .ok (success, sigs, last) := by
      rcases hx : executeParallel net params params.isBuy params.mayTip with (_ | _) | x <;>
        rw [hx] at hsubmitted <;> cases hsubmitted
      rfl
    obtain ⟨tasks, htasks, hexec⟩ := bind_eq_ok.mp hexec
    obtain ⟨_, -, hexec⟩ := bind_eq_ok.mp hexec
    have hget := Except.ok.inj hexec
    rcases hcollect : net.collect tasks with _ | ⟨success', sigs', last'⟩ <;> rw [hcollect] at hget <;> cases hget
    · simp [hwait] at h
      cases h
    · have hne : sigs.isEmpty = false := by
        have hsigs := (hpool tasks htasks).signatures_ne_nil hcollect
        simpa using hsigs
      simp only [hwait, hne, Bool.not_false, Bool.and_self, if_true] at h
      rcases hconfirm : net.confirm sigs with e' | u <;> rw [hconfirm] at h <;> cases h
      obtain ⟨sig, hsig⟩ := hloop signatures hconfirm
      exact ⟨sig, pollAny_ok hsig⟩

end PumpSwapBot.Sdk
