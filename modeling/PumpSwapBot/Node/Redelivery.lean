import PumpSwapBot.Node.Subscription
import PumpSwapBot.Library.Prefixes

/-!
# Refused commands and trades that come again

`storeTrade` of `redisStore.ts`, call after call, on a server that may refuse each command by itself.

## The model

* The question for a signature can fail, and the call then throws. The pipeline is sent only if the signature is
  not there; each of its commands is run, or refused by the server, or fails since the key holds another kind of
  value. `pipeline.exec()` resolves with the replies whatever they are, and the call does not look at them.
* The outcome of a call says what the server did with it. The code returns nothing.

## What is proved

* `storeTransactionUpdate_exec` — where nothing is refused, a call runs the commands of `Subscription.lean`.
* `reliable_iff` — what is pushed is what is added, no trade is pushed again and none is skipped that was not
  pushed, exactly if in every call the push is refused just when the addition is.
-/

namespace PumpSwapBot.Node

open PumpSwapBot.Library

/-- What becomes of the commands of a call. -/
structure StoreReplies where
  /-- The error of the question for the signature, if there is one. -/
  down : Option String
  refusesPush : Bool
  refusesTrim : Bool
  refusesAdd : Bool

/-- A call of `storeTrade`. -/
structure StoreCall where
  mint : String
  record : TokenTradeRecord
  replies : StoreReplies

/-- How a call ended. -/
inductive StoreOutcome where
  | thrown (msg : String)
  /-- The signature was there. -/
  | skipped
  /-- The pipeline was sent, and the server pushed the record and added the signature, or did not. -/
  | resolved (pushed added : Bool)
  deriving DecidableEq

/-- The server gets a command: whether it runs, and what it leaves. -/
def attempt (refused : Bool) (s : KeyValue.Store) (c : KeyValue.Command) : Bool × KeyValue.Store :=
  if refused then (false, s)
  else
    match c.run s with
    | .ok s' => (true, s')
    | .error _ => (false, s)

/-- Whether the signature of a trade is in the set of its mint. -/
def InSet (s : KeyValue.Store) (mint signature : String) : Prop :=
  KeyValue.sismember s (signaturesKey mint) signature = .ok true

/-- The trades that were pushed, by mint and signature. -/
def pushes (log : List (StoreCall × StoreOutcome)) : List (String × String) :=
  log.filterMap fun (c, outcome) =>
    match outcome with
    | .resolved true _ => some (c.mint, c.record.signature)
    | _ => none

/-- A trade was pushed before, or its signature was there at first. -/
def Known (initial : KeyValue.Store) (log : List (StoreCall × StoreOutcome)) (mint signature : String) : Prop :=
  (mint, signature) ∈ pushes log ∨ InSet initial mint signature

/-- What a log of calls is to be. -/
structure Reliable (initial : KeyValue.Store) (log : List (StoreCall × StoreOutcome)) : Prop where
  /-- The record is pushed if and only if its signature is added. -/
  both : ∀ c pushed added, (c, StoreOutcome.resolved pushed added) ∈ log → pushed = added
  /-- A trade that is stored is not pushed again. -/
  once : ∀ pre c added post, log = pre ++ (c, .resolved true added) :: post →
    ¬ Known initial pre c.mint c.record.signature
  /-- A trade that is skipped is stored. -/
  stored : ∀ pre c post, log = pre ++ (c, .skipped) :: post → Known initial pre c.mint c.record.signature

section Calls

variable (number : Rounding 53) (stringify : TokenTradeRecord → String) (maxTradesPerToken : ℤ)

/-- Store a record. -/
def storeTrade (s : KeyValue.Store) (c : StoreCall) : StoreOutcome × KeyValue.Store :=
  match c.replies.down with
  | some msg => (.thrown msg, s)
  | none =>
    match KeyValue.sismember s (signaturesKey c.mint) c.record.signature with
    | .error msg => (.thrown msg, s)
    | .ok true => (.skipped, s)
    | .ok false =>
      let key := tradesKey c.mint
      let sigsKey := signaturesKey c.mint
      let (pushed, s) := attempt c.replies.refusesPush s (.lpush key (stringify c.record))
      let (_, s) := attempt c.replies.refusesTrim s (.ltrim key 0 (maxTradesPerToken - 1))
      let (added, s) := attempt c.replies.refusesAdd s (.sadd sigsKey c.record.signature)
      (.resolved pushed added, s)

/-- Store the record of an update. -/
def storeTransactionUpdate (s : KeyValue.Store) (update : TransactionUpdate) (replies : StoreReplies) :
    StoreOutcome × KeyValue.Store :=
  storeTrade stringify maxTradesPerToken s ⟨update.mint, update.record number, replies⟩

/-- The server after some calls. -/
def storeAll (s : KeyValue.Store) (calls : List StoreCall) : KeyValue.Store :=
  calls.foldl (fun s c => (storeTrade stringify maxTradesPerToken s c).2) s

/-- The calls with their outcomes. -/
def storeLog (s : KeyValue.Store) : List StoreCall → List (StoreCall × StoreOutcome)
  | [] => []
  | c :: calls =>
    (c, (storeTrade stringify maxTradesPerToken s c).1) :: storeLog (storeTrade stringify maxTradesPerToken s c).2 calls

/-- In a call that sends its pipeline, the server refuses the push, or has no list to push to, just when it refuses
the addition. -/
def StoreCall.Agrees (s : KeyValue.Store) (c : StoreCall) : Prop :=
  c.replies.down = none → KeyValue.sismember s (signaturesKey c.mint) c.record.signature = .ok false →
    ((c.replies.refusesPush = true ∨ ∃ members, s (tradesKey c.mint) = some (.set members)) ↔
      c.replies.refusesAdd = true)

variable {stringify maxTradesPerToken} {s : KeyValue.Store} {c : StoreCall} {calls : List StoreCall}

theorem storeAll_concat (s : KeyValue.Store) (calls : List StoreCall) (c : StoreCall) :
    storeAll stringify maxTradesPerToken s (calls ++ [c]) =
      (storeTrade stringify maxTradesPerToken (storeAll stringify maxTradesPerToken s calls) c).2 := by
  simp [storeAll]

theorem storeLog_concat (s : KeyValue.Store) (calls : List StoreCall) (c : StoreCall) :
    storeLog stringify maxTradesPerToken s (calls ++ [c]) = storeLog stringify maxTradesPerToken s calls ++
      [(c, (storeTrade stringify maxTradesPerToken (storeAll stringify maxTradesPerToken s calls) c).1)] := by
  induction calls generalizing s with
  | nil => rfl
  | cons c' calls ih =>
    rw [List.cons_append, storeLog, ih]
    rfl

/-! ### One command -/

theorem attempt_of_ne {refused : Bool} {command : KeyValue.Command} {k : String} (h : k ≠ command.key) :
    (attempt refused s command).2 k = s k := by
  simp only [attempt]
  split
  · rfl
  · rcases hrun : command.run s with _ | s'
    · rfl
    · exact KeyValue.run_of_ne hrun h

/-- A push is run unless it is refused or there is no list. -/
theorem attempt_lpush (refused : Bool) (s : KeyValue.Store) (key item : String) :
    (attempt refused s (.lpush key item)).1 = false ↔ refused = true ∨ ∃ members, s key = some (.set members) := by
  cases refused with
  | true => simp [attempt]
  | false =>
    rcases hkey : s key with _ | ⟨items | members⟩ <;>
      simp [attempt, KeyValue.Command.run, KeyValue.Store.asList, hkey, Except.map]

theorem sismember_eq_ok {key member : String} {there : Bool} (h : KeyValue.sismember s key member = .ok there) :
    ∃ members, s.asSet key = .ok members ∧ there = decide (member ∈ members) := by
  rcases hset : s.asSet key with e | members
  · rw [KeyValue.sismember, hset] at h
    cases h
  · rw [KeyValue.sismember, hset] at h
    cases h
    exact ⟨members, rfl, rfl⟩

theorem InSet.congr {t : KeyValue.Store} {mint : String} (h : t (signaturesKey mint) = s (signaturesKey mint))
    (signature : String) : InSet t mint signature ↔ InSet s mint signature := by
  rw [InSet, InSet, KeyValue.sismember, KeyValue.sismember, KeyValue.asSet_congr h]

theorem inSet_putSet (s : KeyValue.Store) {mint : String} {members : Finset String}
    (h : s.asSet (signaturesKey mint) = .ok members) (signature m sig : String) :
    InSet (s.putSet (signaturesKey mint) (insert signature members)) m sig ↔
      InSet s m sig ∨ m = mint ∧ sig = signature := by
  by_cases hm : m = mint
  · subst hm
    rw [InSet, InSet, KeyValue.sismember, KeyValue.sismember, KeyValue.asSet_putSet, h]
    simp [Except.map, or_comm]
  · have hkey : signaturesKey m ≠ signaturesKey mint := fun hkey => hm (signaturesKey_inj.mp hkey)
    rw [InSet.congr (KeyValue.putSet_of_ne hkey _)]
    simp [hm]

/-- An addition to a set is run unless it is refused. -/
theorem attempt_sadd (refused : Bool) {mint : String} {members : Finset String}
    (h : s.asSet (signaturesKey mint) = .ok members) (signature : String) :
    (attempt refused s (.sadd (signaturesKey mint) signature)).1 = !refused ∧
      ∀ m sig, InSet (attempt refused s (.sadd (signaturesKey mint) signature)).2 m sig ↔
        InSet s m sig ∨ refused = false ∧ m = mint ∧ sig = signature := by
  rw [attempt, KeyValue.run_sadd h]
  cases refused with
  | true => simp
  | false => simpa using inSet_putSet s h signature

/-! ### One call -/

/-- The server when a pipeline has come to its last command. -/
def pushedAndTrimmed (stringify : TokenTradeRecord → String) (maxTradesPerToken : ℤ) (s : KeyValue.Store)
    (c : StoreCall) : KeyValue.Store :=
  (attempt c.replies.refusesTrim (attempt c.replies.refusesPush s (.lpush (tradesKey c.mint) (stringify c.record))).2
    (.ltrim (tradesKey c.mint) 0 (maxTradesPerToken - 1))).2

/-- The sets of signatures are not touched before. -/
theorem pushedAndTrimmed_signatures (stringify : TokenTradeRecord → String) (maxTradesPerToken : ℤ)
    (s : KeyValue.Store) (c : StoreCall) (mint : String) :
    pushedAndTrimmed stringify maxTradesPerToken s c (signaturesKey mint) = s (signaturesKey mint) := by
  have hne : signaturesKey mint ≠ tradesKey c.mint := (tradesKey_ne_signaturesKey c.mint mint).symm
  rw [pushedAndTrimmed, attempt_of_ne hne, attempt_of_ne hne]

variable (stringify maxTradesPerToken) in
/-- A call that sends its pipeline. -/
theorem storeTrade_resolved (hdown : c.replies.down = none)
    (hthere : KeyValue.sismember s (signaturesKey c.mint) c.record.signature = .ok false) :
    ∃ pushed s', storeTrade stringify maxTradesPerToken s c = (.resolved pushed !c.replies.refusesAdd, s') ∧
      (pushed = false ↔
        c.replies.refusesPush = true ∨ ∃ members, s (tradesKey c.mint) = some (.set members)) ∧
      ∀ mint signature, InSet s' mint signature ↔
        InSet s mint signature ∨ c.replies.refusesAdd = false ∧ mint = c.mint ∧ signature = c.record.signature := by
  obtain ⟨members, hmembers, -⟩ := sismember_eq_ok hthere
  have hkeys := pushedAndTrimmed_signatures stringify maxTradesPerToken s c
  have hset : (pushedAndTrimmed stringify maxTradesPerToken s c).asSet (signaturesKey c.mint) = .ok members := by
    rw [KeyValue.asSet_congr (hkeys c.mint), hmembers]
  obtain ⟨hadded, hsigs⟩ := attempt_sadd c.replies.refusesAdd hset c.record.signature
  refine ⟨(attempt c.replies.refusesPush s (.lpush (tradesKey c.mint) (stringify c.record))).1,
    (attempt c.replies.refusesAdd (pushedAndTrimmed stringify maxTradesPerToken s c)
      (.sadd (signaturesKey c.mint) c.record.signature)).2, ?_, attempt_lpush _ s _ _, fun mint signature => ?_⟩
  · rw [← hadded, storeTrade, hdown, hthere]
    rfl
  · rw [hsigs, InSet.congr (hkeys mint)]

variable (stringify maxTradesPerToken) in
/-- Any other call leaves the server as it is. -/
theorem storeTrade_cases (s : KeyValue.Store) (c : StoreCall) :
    (∃ msg, storeTrade stringify maxTradesPerToken s c = (.thrown msg, s)) ∨
      InSet s c.mint c.record.signature ∧ storeTrade stringify maxTradesPerToken s c = (.skipped, s) ∨
      c.replies.down = none ∧ KeyValue.sismember s (signaturesKey c.mint) c.record.signature = .ok false := by
  rcases hdown : c.replies.down with _ | msg
  · rcases hthere : KeyValue.sismember s (signaturesKey c.mint) c.record.signature with msg | ⟨_ | _⟩
    · exact Or.inl ⟨msg, by rw [storeTrade, hdown, hthere]⟩
    · exact Or.inr (Or.inr ⟨rfl, rfl⟩)
    · exact Or.inr (Or.inl ⟨hthere, by rw [storeTrade, hdown, hthere]⟩)
  · exact Or.inl ⟨msg, by rw [storeTrade, hdown]⟩

/-- Where nothing is refused, the commands are run as in `Subscription.lean`. -/
theorem storeTrade_exec (hdown : c.replies = ⟨none, false, false, false⟩) (hmint : c.record.mint = c.mint)
    (hthere : KeyValue.sismember s (signaturesKey c.mint) c.record.signature = .ok false) :
    (storeTrade stringify maxTradesPerToken s c).2 =
      KeyValue.exec s (storeCommands stringify maxTradesPerToken c.record) := by
  have hattempt : ∀ (t : KeyValue.Store) (command : KeyValue.Command) commands,
      KeyValue.exec t (command :: commands) = KeyValue.exec (attempt false t command).2 commands := by
    intro t command commands
    rw [KeyValue.exec, attempt, if_neg Bool.false_ne_true]
    rcases command.run t with _ | t' <;> rfl
  rw [storeCommands, hmint, hattempt, hattempt, hattempt, storeTrade, hdown, hthere]
  rfl

theorem storeTransactionUpdate_exec {number : Rounding 53} {update : TransactionUpdate}
    (hthere : KeyValue.sismember s (signaturesKey update.mint) update.signature = .ok false) :
    (storeTransactionUpdate number stringify maxTradesPerToken s update ⟨none, false, false, false⟩).2 =
      KeyValue.exec s (storeCommands stringify maxTradesPerToken (update.record number)) :=
  storeTrade_exec rfl rfl hthere

/-! ### Runs -/

/-- The sets have the signatures of the trades that are known. -/
def Tracks (initial : KeyValue.Store) (log : List (StoreCall × StoreOutcome)) (s : KeyValue.Store) : Prop :=
  ∀ mint signature, InSet s mint signature ↔ Known initial log mint signature

section Reliable

variable {initial : KeyValue.Store} {log : List (StoreCall × StoreOutcome)}

theorem known_concat_of_ne {outcome : StoreOutcome} (h : ∀ added, outcome ≠ .resolved true added)
    (mint signature : String) :
    Known initial (log ++ [(c, outcome)]) mint signature ↔ Known initial log mint signature := by
  have hnone : pushes [(c, outcome)] = [] := by
    cases outcome with
    | thrown _ | skipped => rfl
    | resolved pushed added =>
      cases pushed with
      | false => rfl
      | true => exact absurd rfl (h added)
  rw [Known, Known, pushes, List.filterMap_append]
  show _ ∈ pushes log ++ pushes [(c, outcome)] ∨ _ ↔ _
  rw [hnone, List.append_nil]

theorem known_concat_pushed (added : Bool) (mint signature : String) :
    Known initial (log ++ [(c, .resolved true added)]) mint signature ↔
      Known initial log mint signature ∨ mint = c.mint ∧ signature = c.record.signature := by
  rw [Known, Known, pushes, List.filterMap_append]
  show _ ∈ pushes log ++ [(c.mint, c.record.signature)] ∨ _ ↔ _
  rw [List.mem_append, List.mem_singleton, Prod.mk.injEq, or_right_comm]

/-- Where an entry stands in a log with one more at the end. -/
theorem split_concat {α : Type} {xs pre post : List α} {x y : α} (h : xs ++ [y] = pre ++ x :: post) :
    pre = xs ∧ x = y ∨ ∃ post', xs = pre ++ x :: post' := by
  rcases List.eq_nil_or_concat post with rfl | ⟨post', last, rfl⟩
  · obtain ⟨hpre, hlast⟩ := List.append_inj' h rfl
    exact Or.inl ⟨hpre.symm, (List.singleton_inj.mp hlast).symm⟩
  · rw [List.concat_eq_append, ← List.cons_append, ← List.append_assoc] at h
    exact Or.inr ⟨post', (List.append_inj' h rfl).1⟩

/-- One more call. -/
theorem Reliable.concat {outcome : StoreOutcome} (h : Reliable initial log)
    (hboth : ∀ pushed added, outcome = .resolved pushed added → pushed = added)
    (honce : ∀ added, outcome = .resolved true added → ¬ Known initial log c.mint c.record.signature)
    (hstored : outcome = .skipped → Known initial log c.mint c.record.signature) :
    Reliable initial (log ++ [(c, outcome)]) := by
  refine ⟨fun c' pushed added hmem => ?_, fun pre c' added post heq => ?_, fun pre c' post heq => ?_⟩
  · rcases List.mem_append.mp hmem with hmem | hmem
    · exact h.both c' pushed added hmem
    · cases List.mem_singleton.mp hmem
      exact hboth pushed added rfl
  · rcases split_concat heq with ⟨rfl, hlast⟩ | ⟨post', hlog⟩
    · cases hlast
      exact honce added rfl
    · exact h.once pre c' added post' hlog
  · rcases split_concat heq with ⟨rfl, hlast⟩ | ⟨post', hlog⟩
    · cases hlast
      exact hstored rfl
    · exact h.stored pre c' post' hlog

/-- A call that agrees keeps the log reliable and the sets on it. -/
theorem Reliable.step (h : Reliable initial log) (htracks : Tracks initial log s) (hc : c.Agrees s) :
    Reliable initial (log ++ [(c, (storeTrade stringify maxTradesPerToken s c).1)]) ∧
      Tracks initial (log ++ [(c, (storeTrade stringify maxTradesPerToken s c).1)])
        (storeTrade stringify maxTradesPerToken s c).2 := by
  rcases storeTrade_cases stringify maxTradesPerToken s c with ⟨msg, hrun⟩ | ⟨hthere, hrun⟩ | ⟨hdown, hthere⟩
  · rw [hrun]
    refine ⟨h.concat (by simp) (by simp) (by simp), fun mint signature => ?_⟩
    rw [known_concat_of_ne (by simp)]
    exact htracks mint signature
  · rw [hrun]
    refine ⟨h.concat (by simp) (by simp) fun _ => (htracks _ _).mp hthere, fun mint signature => ?_⟩
    rw [known_concat_of_ne (by simp)]
    exact htracks mint signature
  · obtain ⟨pushed, s', hrun, hpushed, hsigs⟩ := storeTrade_resolved stringify maxTradesPerToken hdown hthere
    have hagree : pushed = !c.replies.refusesAdd := by
      have hiff := hpushed.trans (hc hdown hthere)
      cases pushed <;> cases hadd : c.replies.refusesAdd <;> simp [hadd] at hiff ⊢
    have hnot : ¬ Known initial log c.mint c.record.signature := by
      rw [← htracks, InSet, hthere]
      simp
    rw [hrun]
    refine ⟨h.concat ?_ (fun _ _ => hnot) (by simp), fun mint signature => ?_⟩
    · rintro pushed' added ⟨⟩
      exact hagree
    · rw [hsigs, htracks, hagree]
      cases c.replies.refusesAdd with
      | true =>
        rw [known_concat_of_ne (by simp)]
        simp
      | false =>
        rw [Bool.not_false, known_concat_pushed]
        simp

theorem run_reliable
    (h : ∀ before c, before ++ [c] <+: calls → c.Agrees (storeAll stringify maxTradesPerToken initial before)) :
    ∀ before, before <+: calls → Reliable initial (storeLog stringify maxTradesPerToken initial before) ∧
      Tracks initial (storeLog stringify maxTradesPerToken initial before)
        (storeAll stringify maxTradesPerToken initial before) := by
  refine Prefixes.invariant_of_steps (C := fun before c => c.Agrees (storeAll stringify maxTradesPerToken initial before))
    ?_ (fun before c _ hbefore hc => ?_) fun before c hpre _ => h before c hpre
  · refine ⟨⟨by simp [storeLog], by simp [storeLog], by simp [storeLog]⟩, fun mint signature => ?_⟩
    simp [Known, pushes, storeLog, storeAll]
  · rw [storeLog_concat, storeAll_concat]
    exact hbefore.1.step hbefore.2 hc

variable (stringify maxTradesPerToken) in
theorem mem_storeLog {before : List StoreCall} (h : before ++ [c] <+: calls) (initial : KeyValue.Store) :
    (c, (storeTrade stringify maxTradesPerToken (storeAll stringify maxTradesPerToken initial before) c).1) ∈
      storeLog stringify maxTradesPerToken initial calls := by
  obtain ⟨after, rfl⟩ := h
  induction after using List.reverseRecOn with
  | nil =>
    rw [List.append_nil, storeLog_concat]
    exact List.mem_append_right _ (List.mem_singleton_self _)
  | append_singleton after c' ih =>
    rw [← List.append_assoc, storeLog_concat]
    exact List.mem_append_left _ ih

theorem agrees_of_both {pushed added : Bool} {s' : KeyValue.Store}
    (hrun : storeTrade stringify maxTradesPerToken s c = (.resolved pushed added, s')) (h : pushed = added) :
    c.Agrees s := by
  intro hdown hthere
  obtain ⟨pushed', s'', hrun', hpushed, -⟩ := storeTrade_resolved stringify maxTradesPerToken hdown hthere
  rw [hrun] at hrun'
  cases hrun'
  rw [← hpushed, h]
  cases c.replies.refusesAdd <;> simp

end Reliable

/-- **Refused commands.** For every server, and every sequence of calls in which the server may refuse any of the
commands: each call that resolves pushed its record if and only if it added the signature, pushed none that was
stored before and skipped none that was not, if and only if in every call that sends its pipeline the push is
refused, or fails for want of a list, exactly when the addition is refused. -/
theorem reliable_iff (stringify : TokenTradeRecord → String) (maxTradesPerToken : ℤ) (initial : KeyValue.Store)
    (calls : List StoreCall) :
    Reliable initial (storeLog stringify maxTradesPerToken initial calls) ↔
      ∀ before c, before ++ [c] <+: calls → c.Agrees (storeAll stringify maxTradesPerToken initial before) := by
  constructor
  · intro h before c hpre
    have hmem := mem_storeLog stringify maxTradesPerToken hpre initial
    rcases hrun : storeTrade stringify maxTradesPerToken (storeAll stringify maxTradesPerToken initial before) c with
      ⟨outcome, s'⟩
    rw [hrun] at hmem
    cases outcome with
    | resolved pushed added => exact agrees_of_both hrun (h.both c pushed added hmem)
    | thrown _ | skipped =>
      intro hdown hthere
      obtain ⟨pushed, s'', hrun', -⟩ := storeTrade_resolved stringify maxTradesPerToken hdown hthere
      rw [hrun] at hrun'
      cases hrun'
  · intro h
    exact (run_reliable h calls List.prefix_rfl).1

end Calls

/-- A trade comes twice, and the server refuses some commands of the first call. -/
def sampleRefused (push add : Bool) : List StoreCall :=
  [⟨sampleRecord.mint, sampleRecord, ⟨none, push, false, add⟩⟩,
    ⟨sampleRecord.mint, sampleRecord, ⟨none, false, false, false⟩⟩]

/-- It is pushed twice where the addition was refused, and not at all where the push was. -/
theorem refused_sample :
    ((storeLog sampleStringify 1000 (fun _ => none) (sampleRefused false true)).map Prod.snd =
        [.resolved true false, .resolved true true] ∧
      ¬ Reliable (fun _ => none) (storeLog sampleStringify 1000 (fun _ => none) (sampleRefused false true))) ∧
    (storeLog sampleStringify 1000 (fun _ => none) (sampleRefused true false)).map Prod.snd =
        [.resolved false true, .skipped] ∧
      ¬ Reliable (fun _ => none) (storeLog sampleStringify 1000 (fun _ => none) (sampleRefused true false)) := by
  have hadd : (storeLog sampleStringify 1000 (fun _ => none) (sampleRefused false true)).map Prod.snd =
      [.resolved true false, .resolved true true] := by decide +kernel
  have hpush : (storeLog sampleStringify 1000 (fun _ => none) (sampleRefused true false)).map Prod.snd =
      [.resolved false true, .skipped] := by decide +kernel
  have hboth : ∀ (log : List (StoreCall × StoreOutcome)) pushed added, pushed ≠ added →
      .resolved pushed added ∈ log.map Prod.snd → ¬ Reliable (fun _ => none) log := by
    intro log pushed added hne hmem h
    obtain ⟨⟨c, outcome⟩, hc, rfl⟩ := List.mem_map.mp hmem
    exact hne (h.both c pushed added hc)
  refine ⟨⟨hadd, hboth _ true false (by decide) ?_⟩, hpush, hboth _ false true (by decide) ?_⟩
  · rw [hadd]
    exact List.mem_cons_self
  · rw [hpush]
    exact List.mem_cons_self

end PumpSwapBot.Node
