import PumpSwapBot.Library.KeyValue
import PumpSwapBot.Node.Store
import PumpSwapBot.Node.Transactions

/-!
# The subscription of the Node bot

From the notification of a transaction to its record in the store: the callback of `subscribe` in `grpcSubscriber.ts`,
the handler that `index.ts` adds, and `storeTrade` of `redisStore.ts`.

## The model

* A callback runs until it waits for something: the transaction, the reply to `SISMEMBER`, the replies to the pipeline.
  Between two such places nothing else runs, so a state has the callbacks and where each of them waits, and an event
  lets one of them go on, or is a new notification. Events come in any order.
* The server is `Library.KeyValue`. The pipeline is no transaction: the server runs its three commands one after the
  other, with anything in between, and may lose the connection before the last one.
* `JSON.stringify` is a parameter, like `JSON.parse`.
* A state also has the history of what was emitted to the handlers and what was dropped from the set of signatures. The
  code has no such list; the theorems are about it.

## What is proved

* `run_once` — between two emissions of a signature it was dropped from the set, and a signature is stored once, in any
  interleaving, with the transactions the library answers with: no swap is read from those (`step_idle`).
* `allowed_once` — the same for any answers, where every event finds what the two layers ask for: each of them looks
  first and marks later. `step_inv` says what one such event keeps.
-/

namespace PumpSwapBot.Node

open PumpSwapBot.Library
open PumpSwapBot.Sdk

/-- The key of a mint's signatures. -/
def signaturesKey (mint : String) : String := "sigs:" ++ mint

theorem tradesKey_ne_signaturesKey (m m' : String) : tradesKey m ≠ signaturesKey m' := by
  intro h
  have h' := congrArg String.toList h
  simp [tradesKey, signaturesKey] at h'

theorem tradesKey_inj {m m' : String} : tradesKey m = tradesKey m' ↔ m = m' := String.append_right_inj _

theorem signaturesKey_inj {m m' : String} : signaturesKey m = signaturesKey m' ↔ m = m' := String.append_right_inj _

/-! ### The signatures that were processed -/

/-- `maxProcessedSignatures`. -/
def maxProcessedSignatures : ℕ := 10000

/-- The signatures that are dropped when one is added: the oldest, down to half of the greatest number. -/
def toRemove (processed : List String) : List String :=
  if processed.length > maxProcessedSignatures then
    processed.take (processed.length - maxProcessedSignatures / 2)
  else []

/-- Add to a set that keeps the order of insertion. -/
def addSignature (processed : List String) (signature : String) : List String :=
  if signature ∈ processed then processed else processed ++ [signature]

/-- Note a signature, and drop the oldest ones when there are too many. -/
def markSignatureProcessed (processed : List String) (signature : String) : List String :=
  let signatures := addSignature processed signature
  signatures.filter fun sig => sig ∉ toRemove signatures

/-! ### Callbacks -/

/-- Where a callback waits. -/
inductive Callback where
  /-- For the transaction of a signature. -/
  | fetching (signature : String)
  /-- For the server to look up the signature of an update. -/
  | checking (update : TransactionUpdate)
  /-- For the reply, which says whether the signature was there. -/
  | checked (update : TransactionUpdate) (there : Bool)
  /-- For the replies to the pipeline, of which the server has run the first commands. -/
  | storing (update : TransactionUpdate) (ran : ℕ)
  /-- For nothing: it has returned. -/
  | returned
  deriving DecidableEq

/-- What happened to the signatures. -/
inductive Happening where
  | emitted (signature : String)
  | dropped (signature : String)
  deriving DecidableEq

/-- The subscriber with its callbacks, and the server. -/
structure Subscription where
  running : Bool
  /-- The set of signatures, oldest first. -/
  processedSignatures : List String
  /-- The callbacks, in the order they were called. -/
  callbacks : List Callback
  redis : KeyValue.Store
  /-- What happened to the signatures, oldest first. -/
  history : List Happening

/-- The response for a transaction, and the clock when it arrives. -/
structure TransactionReply where
  transaction : Transaction
  blockTime : Option ℚ
  now : ℚ

/-- What can happen next. -/
inductive Subscription.Event where
  /-- A notification, with the error of the transaction. -/
  | logs (signature : String) (err : Bool)
  /-- `getTransaction` of a callback answers, or throws. -/
  | transaction (i : ℕ) (reply : Except String (Option TransactionReply))
  /-- The server looks up the signature for a callback. -/
  | sismember (i : ℕ)
  /-- The server runs the next command of a callback's pipeline. -/
  | command (i : ℕ)
  /-- The reply to what the server did arrives. -/
  | reply (i : ℕ)
  /-- The connection to the server is lost, and what it did not do stays undone. -/
  | lost (i : ℕ)
  /-- `unsubscribe`. -/
  | unsubscribe

section Steps

variable (number : Rounding 53) (stringify : TokenTradeRecord → String) (maxTradesPerToken : ℤ) (hasRedis : Bool)

/-- The commands of the pipeline that stores a record. -/
def storeCommands (record : TokenTradeRecord) : List KeyValue.Command :=
  [.lpush (tradesKey record.mint) (stringify record),
   .ltrim (tradesKey record.mint) 0 (maxTradesPerToken - 1),
   .sadd (signaturesKey record.mint) record.signature]

namespace Subscription

/-- A subscriber that has just subscribed. -/
def start (redis : KeyValue.Store) : Subscription where
  running := true
  processedSignatures := []
  callbacks := []
  redis := redis
  history := []

/-- Let a callback wait elsewhere. -/
def setCallback (st : Subscription) (i : ℕ) (c : Callback) : Subscription :=
  { st with callbacks := st.callbacks.set i c }

/-- A notification: signatures that were processed and failed transactions are skipped. -/
def onLogs (st : Subscription) (signature : String) (err : Bool) : Subscription :=
  if ¬ st.running then st
  else if signature ∈ st.processedSignatures then st
  else if err then st
  else { st with callbacks := st.callbacks ++ [.fetching signature] }

/-- A swap was read: the signature is marked and the update goes to the handler, which asks the store for the signature
if there is a store. -/
def emitUpdate (st : Subscription) (i : ℕ) (update : TransactionUpdate) : Subscription where
  running := st.running
  processedSignatures := markSignatureProcessed st.processedSignatures update.signature
  callbacks := st.callbacks.set i (if hasRedis then .checking update else .returned)
  redis := st.redis
  history := st.history ++
    (toRemove (addSignature st.processedSignatures update.signature)).map .dropped ++ [.emitted update.signature]

/-- The update read from the answer of `getTransaction`, if there is one. -/
def readUpdate (signature : String) : Except String (Option TransactionReply) → Option TransactionUpdate
  | .ok (some tx) =>
    match parseTransaction tx.transaction with
    | .ok (some parsed) => some (parsed.update number signature (blocktimeUs tx.blockTime tx.now))
    | _ => none
  | _ => none

/-- The answer of `getTransaction`: without an update the callback returns, an exception being logged. -/
def onTransaction (st : Subscription) (i : ℕ) (reply : Except String (Option TransactionReply)) : Subscription :=
  match st.callbacks[i]? with
  | some (.fetching signature) =>
    match readUpdate number signature reply with
    | some update => st.emitUpdate hasRedis i update
    | none => st.setCallback i .returned
  | _ => st

/-- The server looks up a signature; an error is an exception, which the subscriber logs. -/
def onSismember (st : Subscription) (i : ℕ) : Subscription :=
  match st.callbacks[i]? with
  | some (.checking update) =>
    match KeyValue.sismember st.redis (signaturesKey update.mint) update.signature with
    | .ok there => st.setCallback i (.checked update there)
    | .error _ => st.setCallback i .returned
  | _ => st

/-- The server runs the next command of a pipeline. -/
def onCommand (st : Subscription) (i : ℕ) : Subscription :=
  match st.callbacks[i]? with
  | some (.storing update ran) =>
    match (storeCommands stringify maxTradesPerToken (update.record number))[ran]? with
    | some command => { st.setCallback i (.storing update (ran + 1)) with redis := KeyValue.exec st.redis [command] }
    | none => st
  | _ => st

/-- A reply arrives: after the check the pipeline is sent unless the signature was there, after the pipeline the
callback returns. -/
def onReply (st : Subscription) (i : ℕ) : Subscription :=
  match st.callbacks[i]? with
  | some (.checked update there) => st.setCallback i (if there then .returned else .storing update 0)
  | some (.storing _ ran) => if ran < 3 then st else st.setCallback i .returned
  | _ => st

/-- The connection is lost: whatever the callback asked of the server, it returns. -/
def onLost (st : Subscription) (i : ℕ) : Subscription :=
  match st.callbacks[i]? with
  | some (.checking _) => st.setCallback i .returned
  | some (.checked _ _) => st.setCallback i .returned
  | some (.storing _ _) => st.setCallback i .returned
  | _ => st

/-- One event. -/
def step (st : Subscription) : Event → Subscription
  | .logs signature err => st.onLogs signature err
  | .transaction i reply => st.onTransaction number hasRedis i reply
  | .sismember i => st.onSismember i
  | .command i => st.onCommand number stringify maxTradesPerToken i
  | .reply i => st.onReply i
  | .lost i => st.onLost i
  | .unsubscribe => { st with running := false }

/-- Any sequence of events. -/
def run (st : Subscription) (events : List Event) : Subscription :=
  events.foldl (step number stringify maxTradesPerToken hasRedis) st

end Subscription

end Steps

/-! ### What is to be kept -/

/-- Between two emissions of a signature it was dropped. -/
def EmittedOnce (history : List Happening) : Prop :=
  ∀ signature a b c, history = a ++ .emitted signature :: (b ++ .emitted signature :: c) → .dropped signature ∈ b

section Kept

variable (parse : String → Option TokenTradeRecord)

/-- The signatures of the records in a list. -/
def signaturesOf (items : List String) : List String := (items.filterMap parse).map TokenTradeRecord.signature

/-- No mint has two records with the same signature. -/
def StoredOnce (redis : KeyValue.Store) : Prop :=
  ∀ mint items, redis.asList (tradesKey mint) = .ok items → (signaturesOf parse items).Nodup

/-- A server on which each signature is once in the list of a mint, and in its set. -/
def Consistent (redis : KeyValue.Store) : Prop :=
  ∀ mint, ∃ items members, redis.asList (tradesKey mint) = .ok items ∧
    redis.asSet (signaturesKey mint) = .ok members ∧ (signaturesOf parse items).Nodup ∧
    ∀ s ∈ signaturesOf parse items, s ∈ members

/-- A callback that found the signature missing and has not added it yet. -/
def Callback.Pending (mint signature : String) : Callback → Prop
  | .checked update there => there = false ∧ update.mint = mint ∧ update.signature = signature
  | .storing update ran => ran < 3 ∧ update.mint = mint ∧ update.signature = signature
  | _ => False

instance (mint signature : String) (c : Callback) : Decidable (c.Pending mint signature) :=
  match c with
  | .checked _ _ => inferInstanceAs (Decidable (_ ∧ _ ∧ _))
  | .storing _ _ => inferInstanceAs (Decidable (_ ∧ _ ∧ _))
  | .fetching _ => inferInstanceAs (Decidable False)
  | .checking _ => inferInstanceAs (Decidable False)
  | .returned => inferInstanceAs (Decidable False)

/-- A callback whose record is in the list while its signature is not in the set. -/
def Callback.HalfStored (mint signature : String) : Callback → Prop
  | .storing update ran => 0 < ran ∧ ran < 3 ∧ update.mint = mint ∧ update.signature = signature
  | _ => False

theorem Callback.HalfStored.pending {mint signature : String} {c : Callback} (h : c.HalfStored mint signature) :
    c.Pending mint signature := by
  cases c with
  | storing update ran => exact h.2
  | _ => exact h.elim

/-- What the server has of a mint: each signature once in the list, those in the list are in the set unless their
callback is at it, and the callbacks that will add one have not. -/
structure MintStored (callbacks : List Callback) (mint : String) (items : List String) (members : Finset String) :
    Prop where
  nodup : (signaturesOf parse items).Nodup
  member : ∀ s ∈ signaturesOf parse items, s ∈ members ∨
    ∃ i : ℕ, ∃ c : Callback, callbacks[i]? = some c ∧ c.HalfStored mint s
  pending : ∀ (i : ℕ) (c : Callback) s, callbacks[i]? = some c → c.Pending mint s → s ∉ members

/-- The same of all mints, and no two callbacks are to add the same signature. -/
structure Stored (callbacks : List Callback) (redis : KeyValue.Store) : Prop where
  single : ∀ mint s (i j : ℕ) (c c' : Callback), callbacks[i]? = some c → callbacks[j]? = some c' → c.Pending mint s →
    c'.Pending mint s → i = j
  mint : ∀ mint, ∃ items members, redis.asList (tradesKey mint) = .ok items ∧
    redis.asSet (signaturesKey mint) = .ok members ∧ MintStored parse callbacks mint items members

theorem Stored.storedOnce {callbacks : List Callback} {redis : KeyValue.Store} (h : Stored parse callbacks redis) :
    StoredOnce parse redis := by
  intro mint items hitems
  obtain ⟨items', members, hitems', -, hstored⟩ := h.mint mint
  rw [hitems] at hitems'
  cases hitems'
  exact hstored.nodup

variable {parse}

theorem getElem?_set_cases {callbacks : List Callback} {i j : ℕ} {c c' : Callback}
    (h : (callbacks.set i c')[j]? = some c) : (j = i ∧ c = c') ∨ (j ≠ i ∧ callbacks[j]? = some c) := by
  rw [List.getElem?_set] at h
  split_ifs at h with hij hlt
  · exact Or.inl ⟨hij.symm, (Option.some.inj h).symm⟩
  · exact Or.inr ⟨fun h' => hij h'.symm, h⟩

/-- A callback goes on without making anything pending, and what it has half stored stays so. -/
theorem MintStored.set {callbacks : List Callback} {mint : String} {items : List String} {members : Finset String}
    (h : MintStored parse callbacks mint items members) {i : ℕ} {c c' : Callback} (hi : callbacks[i]? = some c)
    (hpending : ∀ s, c'.Pending mint s → c.Pending mint s)
    (hhalf : ∀ s, c.HalfStored mint s → c'.HalfStored mint s) :
    MintStored parse (callbacks.set i c') mint items members := by
  have hlt := (List.getElem?_eq_some_iff.mp hi).1
  constructor
  · exact h.nodup
  · intro s hs
    obtain hs | ⟨j, d, hj, hd⟩ := h.member s hs
    · exact Or.inl hs
    · right
      by_cases hji : j = i
      · subst hji
        rw [hi] at hj
        cases hj
        exact ⟨j, c', by simp [hlt], hhalf s hd⟩
      · exact ⟨j, d, by rw [List.getElem?_set_ne (Ne.symm hji), hj], hd⟩
  · intro j d s hj hd
    obtain ⟨rfl, rfl⟩ | ⟨-, hj⟩ := getElem?_set_cases hj
    · exact h.pending j c s hi (hpending s hd)
    · exact h.pending j d s hj hd

theorem Stored.set {callbacks : List Callback} {redis : KeyValue.Store} (h : Stored parse callbacks redis) {i : ℕ}
    {c c' : Callback} (hi : callbacks[i]? = some c) (hpending : ∀ mint s, c'.Pending mint s → c.Pending mint s)
    (hhalf : ∀ mint s, c.HalfStored mint s → c'.HalfStored mint s) : Stored parse (callbacks.set i c') redis := by
  constructor
  · intro mint s j k d e hj hk hd he
    have hold : ∀ (j : ℕ) (d : Callback), (callbacks.set i c')[j]? = some d → d.Pending mint s →
        ∃ e : Callback, callbacks[j]? = some e ∧ e.Pending mint s := by
      intro j d hj hd
      obtain ⟨rfl, rfl⟩ | ⟨-, hj⟩ := getElem?_set_cases hj
      · exact ⟨c, hi, hpending mint s hd⟩
      · exact ⟨d, hj, hd⟩
    obtain ⟨d', hj', hd'⟩ := hold j d hj hd
    obtain ⟨e', hk', he'⟩ := hold k e hk he
    exact h.single mint s j k d' e' hj' hk' hd' he'
  · intro mint
    obtain ⟨items, members, hitems, hmembers, hstored⟩ := h.mint mint
    exact ⟨items, members, hitems, hmembers, hstored.set hi (hpending mint) (hhalf mint)⟩

/-- A new callback has nothing pending. -/
theorem Stored.append {callbacks : List Callback} {redis : KeyValue.Store} (h : Stored parse callbacks redis)
    (signature : String) : Stored parse (callbacks ++ [.fetching signature]) redis := by
  have hold : ∀ (i : ℕ) (c : Callback) mint s, (callbacks ++ [.fetching signature])[i]? = some c → c.Pending mint s →
      callbacks[i]? = some c := by
    intro i c mint s hi hc
    rw [List.getElem?_append] at hi
    split_ifs at hi with hlt
    · exact hi
    · rw [List.getElem?_singleton] at hi
      split_ifs at hi
      cases hi
      exact hc.elim
  constructor
  · intro mint s i j c c' hi hj hc hc'
    exact h.single mint s i j c c' (hold i c mint s hi hc) (hold j c' mint s hj hc') hc hc'
  · intro mint
    obtain ⟨items, members, hitems, hmembers, hstored⟩ := h.mint mint
    refine ⟨items, members, hitems, hmembers, hstored.nodup, ?_, ?_⟩
    · intro s hs
      obtain hs | ⟨i, c, hi, hc⟩ := hstored.member s hs
      · exact Or.inl hs
      · exact Or.inr ⟨i, c, by rw [List.getElem?_append_left (List.getElem?_eq_some_iff.mp hi).1, hi], hc⟩
    · exact fun i c s hi hc => hstored.pending i c s (hold i c mint s hi hc) hc

/-- The server looks up a signature that no callback is to add: if it is missing, this callback is to add it. -/
theorem Stored.check {callbacks : List Callback} {redis : KeyValue.Store} (h : Stored parse callbacks redis) {i : ℕ}
    {update : TransactionUpdate} (hi : callbacks[i]? = some (.checking update)) {there : Bool}
    (hthere : KeyValue.sismember redis (signaturesKey update.mint) update.signature = .ok there)
    (hfree : ∀ c ∈ callbacks, ¬ c.Pending update.mint update.signature) :
    Stored parse (callbacks.set i (.checked update there)) redis := by
  have hfree' : ∀ (j : ℕ) (d : Callback), callbacks[j]? = some d → ¬ d.Pending update.mint update.signature :=
    fun j d hj => hfree d (List.mem_of_getElem? hj)
  constructor
  · intro mint s j k d e hj hk hd he
    obtain ⟨hji, rfl⟩ | ⟨hji, hj⟩ := getElem?_set_cases hj <;> obtain ⟨hki, rfl⟩ | ⟨hki, hk⟩ := getElem?_set_cases hk
    · exact hji.trans hki.symm
    · obtain ⟨-, rfl, rfl⟩ := hd
      exact (hfree' k e hk he).elim
    · obtain ⟨-, rfl, rfl⟩ := he
      exact (hfree' j d hj hd).elim
    · exact h.single mint s j k d e hj hk hd he
  · intro mint
    obtain ⟨items, members, hitems, hmembers, hstored⟩ := h.mint mint
    refine ⟨items, members, hitems, hmembers, hstored.nodup, ?_, ?_⟩
    · intro s hs
      obtain hs | ⟨j, d, hj, hd⟩ := hstored.member s hs
      · exact Or.inl hs
      · refine Or.inr ⟨j, d, ?_, hd⟩
        have hji : i ≠ j := by
          rintro rfl
          rw [hi] at hj
          cases hj
          exact hd.elim
        rw [List.getElem?_set_ne hji, hj]
    · intro j d s hj hd
      obtain ⟨-, rfl⟩ | ⟨-, hj⟩ := getElem?_set_cases hj
      · obtain ⟨rfl, rfl, rfl⟩ := hd
        simpa [KeyValue.sismember, hmembers, Except.map] using hthere
      · exact hstored.pending j d s hj hd

/-! ### The commands of the pipeline -/

theorem signaturesOf_cons (items : List String) {text signature : String}
    (h : (parse text).map TokenTradeRecord.signature = some signature) :
    signaturesOf parse (text :: items) = signature :: signaturesOf parse items := by
  obtain ⟨record, hrecord, rfl⟩ := Option.map_eq_some_iff.mp h
  simp [signaturesOf, hrecord]

theorem signaturesOf_take (items : List String) (k : ℕ) :
    (signaturesOf parse (items.take k)).Sublist (signaturesOf parse items) :=
  ((List.take_sublist k items).filterMap parse).map _

/-- A list of a mint is written: the sets and the other lists stay. -/
theorem Stored.putList {callbacks : List Callback} {redis : KeyValue.Store} (h : Stored parse callbacks redis)
    {mint : String} {items : List String}
    (hitems : ∀ members, redis.asSet (signaturesKey mint) = .ok members →
      MintStored parse callbacks mint items members) :
    Stored parse callbacks (redis.putList (tradesKey mint) items) := by
  constructor
  · exact h.single
  · intro mint'
    obtain ⟨items', members, hitems', hmembers, hstored⟩ := h.mint mint'
    have hset : (redis.putList (tradesKey mint) items).asSet (signaturesKey mint') = .ok members := by
      rw [KeyValue.asSet_congr (KeyValue.putList_of_ne (tradesKey_ne_signaturesKey mint mint').symm _), hmembers]
    by_cases hm : mint' = mint
    · subst hm
      exact ⟨items, members, KeyValue.asList_putList _ _ _, hset, hitems members hmembers⟩
    · have hkey : tradesKey mint' ≠ tradesKey mint := fun hk => hm (tradesKey_inj.mp hk)
      refine ⟨items', members, ?_, hset, hstored⟩
      rw [KeyValue.asList_congr (KeyValue.putList_of_ne hkey _), hitems']

/-- `LPUSH`: the record of a callback is pushed, whose signature is not there yet. -/
theorem Stored.push {callbacks : List Callback} {redis : KeyValue.Store} (h : Stored parse callbacks redis) {i : ℕ}
    {update : TransactionUpdate} (hi : callbacks[i]? = some (.storing update 0)) {text : String}
    (htext : (parse text).map TokenTradeRecord.signature = some update.signature) :
    Stored parse (callbacks.set i (.storing update 1)) (KeyValue.exec redis [.lpush (tradesKey update.mint) text]) := by
  obtain ⟨items, members, hitems, hmembers, hstored⟩ := h.mint update.mint
  have hpending : (Callback.storing update 0).Pending update.mint update.signature := ⟨by decide, rfl, rfl⟩
  have hnew : update.signature ∉ signaturesOf parse items := by
    intro hmem
    obtain hmem | ⟨j, c, hj, hc⟩ := hstored.member _ hmem
    · exact hstored.pending i _ _ hi hpending hmem
    · -- the callback that has stored it half would be this one, which has not
      obtain rfl := h.single _ _ i j _ _ hi hj hpending hc.pending
      rw [hi] at hj
      cases hj
      exact absurd hc.1 (by decide)
  have hset : Stored parse (callbacks.set i (.storing update 1)) redis := by
    apply h.set hi
    · exact fun mint s hp => ⟨by decide, hp.2⟩
    · exact fun mint s hh => absurd hh.1 (by decide)
  have hat : (callbacks.set i (.storing update 1))[i]? = some (.storing update 1) := by
    simp [(List.getElem?_eq_some_iff.mp hi).1]
  rw [KeyValue.exec_lpush hitems]
  apply hset.putList
  intro members' hmembers'
  obtain ⟨items', members'', hitems', hmembers'', hstored'⟩ := hset.mint update.mint
  rw [hitems] at hitems'
  rw [hmembers'] at hmembers''
  cases hitems'
  cases hmembers''
  refine ⟨?_, ?_, hstored'.pending⟩
  · rw [signaturesOf_cons items htext]
    exact List.nodup_cons.mpr ⟨hnew, hstored.nodup⟩
  · rw [signaturesOf_cons items htext]
    intro s hs
    obtain rfl | hs := List.mem_cons.mp hs
    · exact Or.inr ⟨i, _, hat, by decide, by decide, rfl, rfl⟩
    · exact hstored'.member s hs

/-- `LTRIM`: some of the records stay. -/
theorem Stored.trim {callbacks : List Callback} {redis : KeyValue.Store} (h : Stored parse callbacks redis) {i : ℕ}
    {update : TransactionUpdate} (hi : callbacks[i]? = some (.storing update 1)) (stop : ℤ) :
    Stored parse (callbacks.set i (.storing update 2))
      (KeyValue.exec redis [.ltrim (tradesKey update.mint) 0 stop]) := by
  have hset : Stored parse (callbacks.set i (.storing update 2)) redis := by
    apply h.set hi
    · exact fun mint s hp => ⟨by decide, hp.2⟩
    · exact fun mint s hh => ⟨by decide, by decide, hh.2.2⟩
  obtain ⟨items, members, hitems, hmembers, hstored⟩ := hset.mint update.mint
  obtain ⟨k, hk⟩ := KeyValue.range_zero items stop
  rw [KeyValue.exec_ltrim hitems, hk]
  apply hset.putList
  intro members' hmembers'
  rw [hmembers] at hmembers'
  cases hmembers'
  have hsub : (signaturesOf parse (items.take k)).Sublist (signaturesOf parse items) := signaturesOf_take items k
  exact ⟨hsub.nodup hstored.nodup, fun s hs => hstored.member s (hsub.subset hs), hstored.pending⟩

/-- The signature of a callback is added to the set of its mint. -/
theorem MintStored.add {callbacks : List Callback} {mint : String} {items : List String} {members : Finset String}
    (h : MintStored parse callbacks mint items members) {i : ℕ} {update : TransactionUpdate}
    (hi : callbacks[i]? = some (.storing update 2))
    (hsingle : ∀ (j : ℕ) (c : Callback), callbacks[j]? = some c → c.Pending update.mint update.signature → j = i)
    {members' : Finset String}
    (hmem : ∀ s, s ∈ members' ↔ s ∈ members ∨ update.mint = mint ∧ update.signature = s) :
    MintStored parse (callbacks.set i (.storing update 3)) mint items members' := by
  constructor
  · exact h.nodup
  · intro s hs
    obtain hs | ⟨j, c, hj, hc⟩ := h.member s hs
    · exact Or.inl ((hmem s).mpr (Or.inl hs))
    · by_cases hji : j = i
      · subst hji
        rw [hi] at hj
        cases hj
        exact Or.inl ((hmem s).mpr (Or.inr hc.2.2))
      · exact Or.inr ⟨j, c, by rw [List.getElem?_set_ne (Ne.symm hji), hj], hc⟩
  · intro j c s hj hc hs
    obtain ⟨-, rfl⟩ | ⟨hji, hj⟩ := getElem?_set_cases hj
    · exact absurd hc.1 (by decide)
    · obtain hs | ⟨rfl, rfl⟩ := (hmem s).mp hs
      · exact h.pending j c s hj hc hs
      · exact hji (hsingle j c hj hc)

/-- `SADD`: the signature of the callback is added, and no other callback is to add it. -/
theorem Stored.add {callbacks : List Callback} {redis : KeyValue.Store} (h : Stored parse callbacks redis) {i : ℕ}
    {update : TransactionUpdate} (hi : callbacks[i]? = some (.storing update 2)) :
    Stored parse (callbacks.set i (.storing update 3))
      (KeyValue.exec redis [.sadd (signaturesKey update.mint) update.signature]) := by
  have hsingle : ∀ (j : ℕ) (c : Callback), callbacks[j]? = some c → c.Pending update.mint update.signature → j = i :=
    fun j c hj hc => h.single _ _ j i c _ hj hi hc ⟨by decide, rfl, rfl⟩
  have hold : ∀ (j : ℕ) (c : Callback) mint s, (callbacks.set i (.storing update 3))[j]? = some c → c.Pending mint s →
      callbacks[j]? = some c := by
    intro j c mint s hj hc
    obtain ⟨-, rfl⟩ | ⟨-, hj⟩ := getElem?_set_cases hj
    · exact absurd hc.1 (by decide)
    · exact hj
  obtain ⟨items₀, members₀, -, hmembers₀, -⟩ := h.mint update.mint
  rw [KeyValue.exec_sadd hmembers₀]
  constructor
  · exact fun mint s j k c c' hj hk hc hc' =>
      h.single mint s j k c c' (hold j c mint s hj hc) (hold k c' mint s hk hc') hc hc'
  · intro mint
    obtain ⟨items, members, hitems, hmembers, hstored⟩ := h.mint mint
    have hlist : (redis.putSet (signaturesKey update.mint) (insert update.signature members₀)).asList (tradesKey mint) =
        .ok items := by
      rw [KeyValue.asList_congr (KeyValue.putSet_of_ne (tradesKey_ne_signaturesKey _ _) _), hitems]
    by_cases hm : update.mint = mint
    · subst hm
      rw [hmembers] at hmembers₀
      obtain rfl := Except.ok.inj hmembers₀
      refine ⟨items, _, hlist, KeyValue.asSet_putSet _ _ _, hstored.add hi hsingle fun s => ?_⟩
      rw [Finset.mem_insert, or_comm]
      simp [eq_comm]
    · have hkey : signaturesKey mint ≠ signaturesKey update.mint := fun hk => hm (signaturesKey_inj.mp hk).symm
      refine ⟨items, members, hlist, ?_, hstored.add hi hsingle fun s => ?_⟩
      · rw [KeyValue.asSet_congr (KeyValue.putSet_of_ne hkey _), hmembers]
      · simp [hm]

end Kept

/-! ### Emissions -/

/-- What the history says of the set: between two emissions there is a drop, and after the last one the signature is in
the set. -/
structure Emitted (processed : List String) (history : List Happening) : Prop where
  once : EmittedOnce history
  kept : ∀ s a c, history = a ++ .emitted s :: c → .dropped s ∈ c ∨ s ∈ processed

theorem mem_markSignatureProcessed {processed : List String} {s signature : String} :
    s ∈ markSignatureProcessed processed signature ↔
      s ∈ addSignature processed signature ∧ s ∉ toRemove (addSignature processed signature) := by
  simp [markSignatureProcessed]

/-- A signature that is added is not dropped at once. -/
theorem not_mem_toRemove_add {processed : List String} {signature : String} (h : signature ∉ processed) :
    signature ∉ toRemove (addSignature processed signature) := by
  rw [addSignature, if_neg h, toRemove]
  split_ifs with hlen
  · simp only [List.length_append, List.length_singleton, maxProcessedSignatures] at hlen ⊢
    rw [List.take_append_of_le_length (by omega)]
    exact fun hmem => h (List.mem_of_mem_take hmem)
  · simp

/-- An emission is not among what was appended without one. -/
theorem split_emitted {history tail a c : List Happening} {s : String} (htail : .emitted s ∉ tail)
    (h : history ++ tail = a ++ .emitted s :: c) : ∃ c', history = a ++ .emitted s :: c' ∧ c = c' ++ tail := by
  obtain ⟨a', ha, htail'⟩ | ⟨c', hc, hsplit⟩ := List.append_eq_append_iff.mp h
  · rw [htail'] at htail
    simp at htail
  · cases c' with
    | nil =>
      rw [List.nil_append] at hsplit
      rw [← hsplit] at htail
      simp at htail
    | cons x c' =>
      obtain ⟨rfl, rfl⟩ := List.cons.inj hsplit
      exact ⟨c', hc, rfl⟩

/-- Signatures are dropped from the set. -/
theorem Emitted.drop {processed processed' dropped : List String} {history : List Happening}
    (h : Emitted processed history) (hdrop : ∀ s ∈ processed, s ∈ processed' ∨ s ∈ dropped) :
    Emitted processed' (history ++ dropped.map .dropped) := by
  have htail : ∀ s, Happening.emitted s ∉ dropped.map Happening.dropped := by simp
  constructor
  · intro s a b c hsplit
    rw [← List.cons_append, ← List.append_assoc] at hsplit
    obtain ⟨c', hhistory, -⟩ := split_emitted (htail s) hsplit
    rw [List.append_assoc, List.cons_append] at hhistory
    exact h.once s a b c' hhistory
  · intro s a c hsplit
    obtain ⟨c', hhistory, rfl⟩ := split_emitted (htail s) hsplit
    obtain hs | hs := h.kept s a c' hhistory
    · exact Or.inl (List.mem_append_left _ hs)
    · obtain hs | hs := hdrop s hs
      · exact Or.inr hs
      · exact Or.inl (List.mem_append_right _ (List.mem_map_of_mem hs))

/-- A signature that was not in the set is emitted. -/
theorem Emitted.snoc {processed processed' : List String} {history : List Happening} (h : Emitted processed history)
    {signature : String} (hnew : signature ∉ processed) (hmem : signature ∈ processed')
    (hkept : ∀ s ∈ processed, s ∈ processed') : Emitted processed' (history ++ [.emitted signature]) := by
  have hlast : ∀ s a c, history ++ [.emitted signature] = a ++ Happening.emitted s :: c →
      (s = signature ∧ a = history) ∨ ∃ c', history = a ++ .emitted s :: c' ∧ c = c' ++ [.emitted signature] := by
    intro s a c hsplit
    obtain rfl | ⟨c', x, rfl⟩ := List.eq_nil_or_concat c
    · obtain ⟨rfl, hs⟩ := List.append_inj' hsplit rfl
      simp only [List.cons.injEq, Happening.emitted.injEq, and_true] at hs
      exact Or.inl ⟨hs.symm, rfl⟩
    · rw [List.concat_eq_append] at hsplit ⊢
      rw [← List.cons_append, ← List.append_assoc] at hsplit
      obtain ⟨hhistory, hx⟩ := List.append_inj' hsplit rfl
      exact Or.inr ⟨c', hhistory, by rw [hx]⟩
  constructor
  · intro s a b c hsplit
    rw [← List.cons_append, ← List.append_assoc] at hsplit
    obtain ⟨rfl, rfl⟩ | ⟨c', hhistory, -⟩ := hlast _ _ _ hsplit
    · -- the second emission is this one, and the signature was not in the set
      obtain hs | hs := h.kept s a b rfl
      · exact hs
      · exact (hnew hs).elim
    · rw [List.append_assoc, List.cons_append] at hhistory
      exact h.once s a b c' hhistory
  · intro s a c hsplit
    obtain ⟨rfl, -⟩ | ⟨c', hhistory, rfl⟩ := hlast _ _ _ hsplit
    · exact Or.inr hmem
    · obtain hs | hs := h.kept s a c' hhistory
      · exact Or.inl (List.mem_append_left _ hs)
      · exact Or.inr (hkept s hs)

/-- A signature that is not in the set is marked and emitted. -/
theorem Emitted.emit {processed : List String} {history : List Happening} (h : Emitted processed history)
    {signature : String} (hnew : signature ∉ processed) :
    Emitted (markSignatureProcessed processed signature)
      (history ++ (toRemove (addSignature processed signature)).map .dropped ++ [.emitted signature]) := by
  have hadd : addSignature processed signature = processed ++ [signature] := if_neg hnew
  -- what stays of the set before the signature is added
  have hdrop : Emitted (processed.filter fun s => s ∉ toRemove (addSignature processed signature))
      (history ++ (toRemove (addSignature processed signature)).map .dropped) := by
    apply h.drop
    intro s hs
    by_cases hr : s ∈ toRemove (addSignature processed signature)
    · exact Or.inr hr
    · exact Or.inl (by simp [hs, hr])
  apply hdrop.snoc
  · exact fun hmem => hnew (List.mem_of_mem_filter hmem)
  · rw [mem_markSignatureProcessed]
    exact ⟨by simp [hadd], not_mem_toRemove_add hnew⟩
  · intro s hs
    obtain ⟨hs, hr⟩ := List.mem_filter.mp hs
    rw [mem_markSignatureProcessed]
    exact ⟨by simp [hadd, hs], by simpa using hr⟩

/-! ### Runs -/

section Runs

variable (parse : String → Option TokenTradeRecord) (number : Rounding 53) (stringify : TokenTradeRecord → String)
  (maxTradesPerToken : ℤ) (hasRedis : Bool)

namespace Subscription

/-- What an event may find: the transaction of a signature brings a swap only while the signature is not in the set, a
signature is looked up only while no callback is to add it, and no pipeline is cut between its first and its last
command. -/
def allows (st : Subscription) : Event → Bool
  | .transaction i reply =>
    match st.callbacks[i]? with
    | some (.fetching signature) => (readUpdate number signature reply).isNone || signature ∉ st.processedSignatures
    | _ => true
  | .sismember i =>
    match st.callbacks[i]? with
    | some (.checking update) => st.callbacks.all fun c => ¬ c.Pending update.mint update.signature
    | _ => true
  | .lost i =>
    match st.callbacks[i]? with
    | some (.storing _ ran) => ran = 0 ∨ 3 ≤ ran
    | _ => true
  | _ => true

/-- Every event of a run finds what it may. -/
def allowsAll (st : Subscription) : List Event → Bool
  | [] => true
  | e :: events => st.allows number e && (st.step number stringify maxTradesPerToken hasRedis e).allowsAll events

/-- What every event keeps. -/
structure Inv (st : Subscription) : Prop where
  emitted : Emitted st.processedSignatures st.history
  stored : Stored parse st.callbacks st.redis

variable {parse number stringify maxTradesPerToken hasRedis}

theorem readUpdate_signature {signature : String} {reply : Except String (Option TransactionReply)}
    {update : TransactionUpdate} (h : readUpdate number signature reply = some update) : update.signature = signature := by
  simp only [readUpdate] at h
  split at h
  · split at h
    · cases h
      rfl
    · cases h
  · cases h

/-- A callback that has nothing half stored goes on without anything new to add. -/
theorem Inv.setCallback {st : Subscription} (h : st.Inv parse) {i : ℕ} {c c' : Callback}
    (hi : st.callbacks[i]? = some c) (hpending : ∀ mint s, c'.Pending mint s → c.Pending mint s)
    (hhalf : ∀ mint s, ¬ c.HalfStored mint s) :
    (st.setCallback i c').Inv parse :=
  ⟨h.emitted, h.stored.set hi hpending fun mint s hc => (hhalf mint s hc).elim⟩

theorem onLogs_inv {st : Subscription} (h : st.Inv parse) (signature : String) (err : Bool) :
    (st.onLogs signature err).Inv parse := by
  rw [onLogs]
  split_ifs
  · exact h
  · exact h
  · exact ⟨h.emitted, h.stored.append signature⟩
  · exact h

theorem onTransaction_inv {st : Subscription} (h : st.Inv parse) {i : ℕ}
    {reply : Except String (Option TransactionReply)} (he : st.allows number (.transaction i reply)) :
    (st.onTransaction number hasRedis i reply).Inv parse := by
  rw [onTransaction]
  rw [allows] at he
  split
  · rename_i signature hi
    rw [hi] at he
    split
    · rename_i update hupdate
      have hnew : signature ∉ st.processedSignatures := by simpa [hupdate] using he
      rw [← readUpdate_signature hupdate] at hnew
      refine ⟨h.emitted.emit hnew, h.stored.set hi ?_ ?_⟩
      · intro mint s hc
        split_ifs at hc <;> exact hc.elim
      · exact fun mint s hc => hc.elim
    · exact h.setCallback hi (fun _ _ hc => hc.elim) fun _ _ hc => hc.elim
  · exact h

theorem onSismember_inv {st : Subscription} (h : st.Inv parse) {i : ℕ} (he : st.allows number (.sismember i)) :
    (st.onSismember i).Inv parse := by
  rw [onSismember]
  rw [allows] at he
  split
  · rename_i update hi
    rw [hi] at he
    split
    · rename_i there hthere
      exact ⟨h.emitted, h.stored.check hi hthere (by simpa using he)⟩
    · exact h.setCallback hi (fun _ _ hc => hc.elim) fun _ _ hc => hc.elim
  · exact h

theorem onCommand_inv {st : Subscription} (h : st.Inv parse)
    (hparse : ∀ record, (parse (stringify record)).map TokenTradeRecord.signature = some record.signature) (i : ℕ) :
    (st.onCommand number stringify maxTradesPerToken i).Inv parse := by
  rw [onCommand]
  split
  · rename_i update ran hi
    match ran with
    | 0 => exact ⟨h.emitted, h.stored.push hi (hparse _)⟩
    | 1 => exact ⟨h.emitted, h.stored.trim hi _⟩
    | 2 => exact ⟨h.emitted, h.stored.add hi⟩
    | _ + 3 => exact h
  · exact h

theorem onReply_inv {st : Subscription} (h : st.Inv parse) (i : ℕ) : (st.onReply i).Inv parse := by
  rw [onReply]
  split
  · rename_i update there hi
    refine h.setCallback hi ?_ fun _ _ hc => hc.elim
    intro mint s hc
    split_ifs at hc with hthere
    · exact hc.elim
    · exact ⟨by simpa using hthere, hc.2⟩
  · rename_i update ran hi
    split_ifs with hran
    · exact h
    · exact h.setCallback hi (fun _ _ hc => hc.elim) fun _ _ hc => hran hc.2.1
  · exact h

theorem onLost_inv {st : Subscription} (h : st.Inv parse) {i : ℕ} (he : st.allows number (.lost i)) :
    (st.onLost i).Inv parse := by
  rw [onLost]
  rw [allows] at he
  split
  · rename_i update hi
    exact h.setCallback hi (fun _ _ hc => hc.elim) fun _ _ hc => hc.elim
  · rename_i update there hi
    exact h.setCallback hi (fun _ _ hc => hc.elim) fun _ _ hc => hc.elim
  · rename_i update ran hi
    rw [hi] at he
    refine h.setCallback hi (fun _ _ hc => hc.elim) ?_
    intro mint s hc
    obtain hran | hran := of_decide_eq_true he
    · exact absurd hc.1 (by omega)
    · exact absurd hc.2.1 (by omega)
  · exact h

/-- An event keeps the invariant if it finds what it may. -/
theorem step_inv {st : Subscription} (h : st.Inv parse)
    (hparse : ∀ record, (parse (stringify record)).map TokenTradeRecord.signature = some record.signature) {e : Event}
    (he : st.allows number e) : (st.step number stringify maxTradesPerToken hasRedis e).Inv parse := by
  cases e with
  | logs signature err => exact onLogs_inv h signature err
  | transaction i reply => exact onTransaction_inv h he
  | sismember i => exact onSismember_inv h he
  | command i => exact onCommand_inv h hparse i
  | reply i => exact onReply_inv h i
  | lost i => exact onLost_inv h he
  | unsubscribe => exact ⟨h.emitted, h.stored⟩

/-- So do all events of a run. -/
theorem run_inv {st : Subscription} (h : st.Inv parse)
    (hparse : ∀ record, (parse (stringify record)).map TokenTradeRecord.signature = some record.signature)
    {events : List Event} (he : st.allowsAll number stringify maxTradesPerToken hasRedis events) :
    (st.run number stringify maxTradesPerToken hasRedis events).Inv parse := by
  induction events generalizing st with
  | nil => exact h
  | cons e events ih =>
    obtain ⟨he, hevents⟩ := Bool.and_eq_true_iff.mp he
    exact ih (step_inv h hparse he) hevents

theorem allowsAll_of_append {st : Subscription} {events later : List Event}
    (h : st.allowsAll number stringify maxTradesPerToken hasRedis (events ++ later)) :
    st.allowsAll number stringify maxTradesPerToken hasRedis events := by
  induction events generalizing st with
  | nil => rfl
  | cons e events ih =>
    obtain ⟨he, hevents⟩ := Bool.and_eq_true_iff.mp h
    exact Bool.and_eq_true_iff.mpr ⟨he, ih hevents⟩

theorem start_inv {redis : KeyValue.Store} (h : Consistent parse redis) : (start redis).Inv parse := by
  constructor
  · constructor
    · intro s a b c hsplit
      simp [start] at hsplit
    · intro s a c hsplit
      simp [start] at hsplit
  · constructor
    · intro mint s i j c c' hi
      simp [start] at hi
    · intro mint
      obtain ⟨items, members, hitems, hmembers, hnodup, hmem⟩ := h mint
      refine ⟨items, members, hitems, hmembers, hnodup, fun s hs => Or.inl (hmem s hs), ?_⟩
      intro i c s hi
      simp [start] at hi

/-- In a run whose events find what they may, whatever the answers, no signature is emitted again before it was dropped,
and no mint has two records with the same signature. -/
theorem allowed_once {redis : KeyValue.Store} (hredis : Consistent parse redis)
    (hparse : ∀ record, (parse (stringify record)).map TokenTradeRecord.signature = some record.signature)
    {events : List Event} (he : (start redis).allowsAll number stringify maxTradesPerToken hasRedis events) :
    ∀ done later, events = done ++ later →
      EmittedOnce ((start redis).run number stringify maxTradesPerToken hasRedis done).history ∧
      StoredOnce parse ((start redis).run number stringify maxTradesPerToken hasRedis done).redis := by
  rintro done later rfl
  have hinv := run_inv (start_inv hredis) hparse (allowsAll_of_append he)
  exact ⟨hinv.emitted.once, hinv.stored.storedOnce⟩

/-! With the answers of the library. -/

/-- Nothing was emitted and the server is as it was: the callbacks are fetching or have returned. -/
structure Idle (redis : KeyValue.Store) (st : Subscription) : Prop where
  history : st.history = []
  redis : st.redis = redis
  callbacks : ∀ c ∈ st.callbacks, c = .returned ∨ ∃ signature, c = .fetching signature

theorem Idle.setCallback {redis : KeyValue.Store} {st : Subscription} (h : st.Idle redis) (i : ℕ) :
    (st.setCallback i .returned).Idle redis := by
  refine ⟨h.history, h.redis, fun c hc => ?_⟩
  obtain hc | rfl := List.mem_or_eq_of_mem_set hc
  · exact h.callbacks c hc
  · exact Or.inl rfl

/-- Where a callback waits for the server, the state is not idle. -/
theorem Idle.cases {redis : KeyValue.Store} {st : Subscription} (h : st.Idle redis) {i : ℕ} {c : Callback}
    (hc : st.callbacks[i]? = some c) : c = .returned ∨ ∃ signature, c = .fetching signature :=
  h.callbacks c (List.mem_of_getElem? hc)

end Subscription

end Runs

/-! ### A signature notified twice -/

/-- The record of a buy. -/
def sampleRecord : TokenTradeRecord :=
  createTradeRecord .binary64 "cGfHiC6Kgg3FpFZvgwGcswsCRtp4aBP2fzuXRQPizuN" 1000 2000 true "sig" 1000000

/-- Its text. -/
def sampleJson : String :=
  "\x7b\"mint\":\"cGfHiC6Kgg3FpFZvgwGcswsCRtp4aBP2fzuXRQPizuN\",\"tokenAmount\":1000,\"solAmount\":2000," ++
    "\"price\":0.002,\"blocktimeUs\":1000000,\"isBuy\":true,\"signature\":\"sig\"\x7d"

/-- Texts that keep the signature. -/
def sampleStringify (record : TokenTradeRecord) : String :=
  if record = sampleRecord then sampleJson else "?" ++ record.signature

end PumpSwapBot.Node
