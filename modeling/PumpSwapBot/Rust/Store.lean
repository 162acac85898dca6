import PumpSwapBot.Library.KeyValue
import PumpSwapBot.Library.Proc
import PumpSwapBot.Rust.Record
import Mathlib.Data.List.Sort

/-!
# The store of trade records

`RedisStore` of `trading.rs`, and the task of `strategy.rs` that feeds it: two keys for each mint,
the list `trades:{mint}` of the latest records and the set `sigs:{mint}` of all signatures seen.

## The model

* The server is `Library.KeyValue`. What goes wrong between the bot and the server is a parameter
  of each call: a connection that cannot be had, a reply that does not come. A pipeline is
  `MULTI`/`EXEC`, so it is applied as a whole or not at all; applied and its reply lost is a case of
  its own.
* `usize` and `isize` have 64 bits: `limit as isize - 1` is negative from 2^63 on, and overflows at
  2^63 (`lastIndex`).
* Beside the server, the state of the store task holds the records whose pipeline was applied,
  newest first. The code has no such list; the theorems are about it.

## What is proved

`StoreInv` holds after any sequence of deliveries with any failures (`storeTask_inv`): the set is
exactly the signatures of the applied records, the list a prefix of them.
-/

namespace PumpSwapBot.Rust

open PumpSwapBot.Sdk PumpSwapBot.Library

/-! ### Reading -/

/-- A `usize` as an `isize`. -/
def asIsize (n : UInt64) : ℤ := if n.toNat < 2 ^ 63 then n.toNat else n.toNat - 2 ^ 64

/-- The index `n as isize - 1` of the last of `n` items. -/
def lastIndex (p : Profile) (n : UInt64) : Result ℤ :=
  if asIsize n = -2 ^ 63 then
    match p with
    | .dev => .error (.panic "attempt to subtract with overflow")
    | .release => .ok (2 ^ 63 - 1)
  else .ok (asIsize n - 1)

/-- The key of a mint's records. -/
def tradesKey (mint : String) : String := "trades:" ++ mint

/-- The key of a mint's signatures. -/
def signaturesKey (mint : String) : String := "sigs:" ++ mint

/-- The mint of a key of records, `strip_prefix("trades:")`. -/
def mintOfKey (key : String) : Option String :=
  if "trades:".toList.isPrefixOf key.toList then some (String.ofList (key.toList.drop 7)) else none

/-- What the server answers a reading call. -/
structure ReadReplies where
  /-- The connection. -/
  connect : Except Error Unit
  /-- The items of a list between two indices. -/
  lrange : String → ℤ → ℤ → Except Error (List String)
  /-- The keys that match a pattern. -/
  keys : String → Except Error (List String)
  /-- The present, for records without a usable time. -/
  now : ℤ

section Read

variable (p : Profile) (serde : SerdeJson)

/-- The newest first: `sort_by(|a, b| b.blocktime_us.cmp(&a.blocktime_us))`. -/
def sortByBlocktime (records : List TokenTradeRecord) : List TokenTradeRecord :=
  records.insertionSort fun a b => b.blocktimeUs ≤ a.blocktimeUs

/-- Read the stored texts one after the other. -/
def decodeAll (now : ℤ) : List String → Result (List TokenTradeRecord)
  | [] => .ok []
  | text :: texts => do
    let record ← context "Failed to deserialize trade record" (TokenTradeRecord.decode p serde now text)
    let records ← decodeAll now texts
    return record :: records

/-- The latest records of a mint, newest first. -/
def getRecentTrades (r : ReadReplies) (mint : String) (limit : UInt64) : Result (List TokenTradeRecord) := do
  context "Failed to get Redis connection" (orFail r.connect)
  let stop ← lastIndex p limit
  let texts ← context "Failed to get trade records from Redis" (orFail (r.lrange (tradesKey mint) 0 stop))
  let records ← decodeAll p serde r.now texts
  return sortByBlocktime records

/-- The price of the latest record. -/
def getLatestPriceFromTrades (r : ReadReplies) (mint : String) : Result (Option ℚ) := do
  let trades ← getRecentTrades p serde r mint 1
  return trades.head?.map TokenTradeRecord.effectivePrice

/-- The change of the price from the oldest to the newest of the latest records, in percent. -/
def calculatePriceChangeFromRecords (r : ReadReplies) (mint : String) (recordCount : UInt64) :
    Result (Option ℚ) := do
  let trades ← getRecentTrades p serde r mint recordCount
  match trades.head?, trades.getLast? with
  | some newest, some oldest =>
    if trades.length < 2 ∨ oldest.effectivePrice = 0 then return none
    else return some ((newest.effectivePrice - oldest.effectivePrice) / oldest.effectivePrice * 100)
  | _, _ => return none

/-- The mints that have records; a failing `KEYS` counts as none. -/
def getActiveMints (r : ReadReplies) : Result (List String) := do
  context "Failed to get Redis connection" (orFail r.connect)
  let keys := match r.keys "trades:*" with
    | .ok keys => keys
    | .error _ => []
  return keys.filterMap mintOfKey

end Read

/-! ### Writing -/

/-- What becomes of a pipeline. -/
inductive PipelineOutcome where
  /-- It is applied, and the reply may be lost. -/
  | applied (reply : Except Error Unit)
  /-- It is not applied. -/
  | notApplied (e : Error)

/-- What the server answers a storing call. -/
structure StoreReplies where
  /-- The connection for the check. -/
  connect : Except Error Unit
  /-- Whether the reply to the check arrives. -/
  sismember : Except Error Unit
  /-- The connection for the pipeline. -/
  reconnect : Except Error Unit
  pipeline : PipelineOutcome

/-- The server, and the records whose pipeline was applied, newest first. -/
structure StoreState where
  redis : KeyValue.Store
  applied : List TokenTradeRecord

/-- An empty server. -/
def StoreState.empty : StoreState := ⟨fun _ => none, []⟩

/-- The records applied for a mint, newest first. -/
def StoreState.appliedFor (s : StoreState) (mint : String) : List TokenTradeRecord :=
  s.applied.filter fun r => r.mint = mint

/-- The commands that store a record. -/
def storeCommands (serde : SerdeJson) (stop : ℤ) (mint : String) (record : TokenTradeRecord) :
    List KeyValue.Command :=
  [.lpush (tradesKey mint) (record.encode serde), .ltrim (tradesKey mint) 0 stop,
   .sadd (signaturesKey mint) record.signature]

section Write

variable (p : Profile) (serde : SerdeJson) (maxTradesPerToken : UInt64)

/-- Whether a mint's signature was seen. -/
def isSignatureExists (r : StoreReplies) (mint signature : String) : Proc StoreState Failure Bool := do
  Proc.ofExcept (context "Failed to get Redis connection" (orFail r.connect))
  let s ← Proc.get
  Proc.ofExcept (context "Failed to check signature existence" (do
    orFail r.sismember
    orFail ((KeyValue.sismember s.redis (signaturesKey mint) signature).mapError anyhow)))

/-- Send the pipeline. -/
def runPipeline (r : StoreReplies) (stop : ℤ) (mint : String) (record : TokenTradeRecord) :
    Proc StoreState Failure Unit :=
  match r.pipeline with
  | .applied reply => do
    Proc.modify fun s => { redis := KeyValue.exec s.redis (storeCommands serde stop mint record)
                           applied := record :: s.applied }
    Proc.ofExcept (orFail reply)
  | .notApplied e => Proc.ofExcept (.error (.err e))

/-- Store a record, unless its signature was seen. -/
def storeTrade (r : StoreReplies) (mint : String) (record : TokenTradeRecord) : Proc StoreState Failure Unit := do
  let exists_ ← isSignatureExists r mint record.signature
  if exists_ then pure ()
  else do
    Proc.ofExcept (context "Failed to get Redis connection" (orFail r.reconnect))
    let stop ← Proc.ofExcept (lastIndex p maxTradesPerToken)
    let outcome ← Proc.attempt (runPipeline serde r stop mint record)
    Proc.ofExcept (context "Failed to store trade record to Redis" outcome)

/-- The store task: it stores the updates as they come, going on after an error and ending with a
panic. -/
def storeTask : List (TransactionUpdate × StoreReplies) → StoreState → StoreState
  | [], s => s
  | (u, r) :: deliveries, s =>
    match (storeTrade p serde maxTradesPerToken r u.mint u.record).run s with
    | (.error (.panic _), s') => s'
    | (_, s') => storeTask deliveries s'

/-! ### What a storing call can do -/

theorem isSignatureExists_run {r : StoreReplies} {mint signature : String} {s : StoreState}
    {o : Except Failure Bool} {s' : StoreState} (h : (isSignatureExists r mint signature).run s = (o, s')) :
    s' = s ∧ ∀ b, o = .ok b → KeyValue.sismember s.redis (signaturesKey mint) signature = .ok b := by
  simp only [isSignatureExists] at h
  rcases hc : context "Failed to get Redis connection" (orFail r.connect) with e | u
  · rw [hc, Proc.bind_run_error (Proc.ofExcept_run _ _)] at h
    cases h
    exact ⟨rfl, fun b hb => by cases hb⟩
  · rw [hc, Proc.bind_run_ok (Proc.ofExcept_run _ _), Proc.bind_run_ok (Proc.get_run _), Proc.ofExcept_run] at h
    cases h
    refine ⟨rfl, fun b hb => ?_⟩
    obtain ⟨-, -, hb⟩ := bind_eq_ok.mp (context_eq_ok.mp hb)
    rcases hm : KeyValue.sismember s.redis (signaturesKey mint) signature with e | b'
    · rw [hm] at hb
      cases hb
    · rw [hm] at hb
      cases hb
      rfl

/-- **A storing call** leaves the state as it was, or the signature was new and the pipeline is
applied, all of it. -/
theorem storeTrade_cases (r : StoreReplies) (mint : String) (record : TokenTradeRecord) (s : StoreState) :
    ((storeTrade p serde maxTradesPerToken r mint record).run s).2 = s ∨
      ∃ stop, lastIndex p maxTradesPerToken = .ok stop ∧
        KeyValue.sismember s.redis (signaturesKey mint) record.signature = .ok false ∧
        ((storeTrade p serde maxTradesPerToken r mint record).run s).2 =
          ⟨KeyValue.exec s.redis (storeCommands serde stop mint record), record :: s.applied⟩ := by
  simp only [storeTrade]
  rcases hx : (isSignatureExists r mint record.signature).run s with ⟨e | b, s₁⟩
  · rw [Proc.bind_run_error hx]
    exact Or.inl (isSignatureExists_run hx).1
  obtain ⟨rfl, hb⟩ := isSignatureExists_run hx
  rw [Proc.bind_run_ok hx]
  rcases b with _ | _
  swap
  · exact Or.inl rfl
  rcases hc : context "Failed to get Redis connection" (orFail r.reconnect) with e | u
  · exact Or.inl rfl
  rcases hi : lastIndex p maxTradesPerToken with e | stop
  · exact Or.inl rfl
  -- Both the connection and the index are there, so what happens is up to the pipeline.
  rcases hp : r.pipeline with reply | e
  · refine Or.inr ⟨stop, rfl, hb false rfl, ?_⟩
    simp [runPipeline, hp, Proc.bind_run]
  · exact Or.inl (by simp [runPipeline, hp, Proc.bind_run])

end Write

/-! ### The invariant -/

theorem tradesKey_ne_signaturesKey (m m' : String) : tradesKey m ≠ signaturesKey m' := by
  intro h
  have h' := congrArg (fun s => s.toList.head?) h
  simp [tradesKey, signaturesKey] at h'

theorem tradesKey_inj {m m' : String} : tradesKey m = tradesKey m' ↔ m = m' := String.append_right_inj _

theorem signaturesKey_inj {m m' : String} : signaturesKey m = signaturesKey m' ↔ m = m' :=
  String.append_right_inj _

theorem storeCommands_keys {serde : SerdeJson} {stop : ℤ} {mint key : String} {record : TokenTradeRecord}
    (h : key ≠ tradesKey mint) (h' : key ≠ signaturesKey mint) :
    key ∉ (storeCommands serde stop mint record).map KeyValue.Command.key := by
  simp [storeCommands, KeyValue.Command.key, h, h']

/-- The set of a mint is the signatures of the records applied for it, pairwise distinct; its list
is a prefix of them. -/
structure StoreInv (serde : SerdeJson) (s : StoreState) (mint : String) : Prop where
  /-- The set. -/
  sigs : s.redis.asSet (signaturesKey mint) =
    .ok ((s.appliedFor mint).map TokenTradeRecord.signature).toFinset
  /-- The list. -/
  trades : ∃ k, s.redis.asList (tradesKey mint) =
    .ok (((s.appliedFor mint).take k).map (TokenTradeRecord.encode serde))
  /-- No signature is applied twice. -/
  distinct : ((s.appliedFor mint).map TokenTradeRecord.signature).Nodup

theorem StoreInv.empty (serde : SerdeJson) (mint : String) : StoreInv serde StoreState.empty mint where
  sigs := rfl
  trades := ⟨0, rfl⟩
  distinct := List.nodup_nil

theorem sismember_eq_false {s : KeyValue.Store} {key member : String} {members : Finset String}
    (hset : s.asSet key = .ok members) (h : KeyValue.sismember s key member = .ok false) : member ∉ members := by
  simp only [KeyValue.sismember, hset, Except.map, Except.ok.injEq, decide_eq_false_iff_not] at h
  exact h

/-- The invariant of a mint is kept by a record stored for it. -/
theorem StoreInv.stored {serde : SerdeJson} {s : StoreState} {record : TokenTradeRecord} {stop : ℤ}
    (h : StoreInv serde s record.mint)
    (hnew : KeyValue.sismember s.redis (signaturesKey record.mint) record.signature = .ok false) :
    StoreInv serde ⟨KeyValue.exec s.redis (storeCommands serde stop record.mint record), record :: s.applied⟩
      record.mint := by
  obtain ⟨hsigs, ⟨k, htrades⟩, hdistinct⟩ := h
  have hfor : (StoreState.mk (KeyValue.exec s.redis (storeCommands serde stop record.mint record))
      (record :: s.applied)).appliedFor record.mint = record :: s.appliedFor record.mint := by
    simp [StoreState.appliedFor]
  obtain ⟨hlist, hset⟩ := KeyValue.execPushTrimAdd (record.encode serde) record.signature stop
    (tradesKey_ne_signaturesKey record.mint record.mint) htrades hsigs
  refine ⟨?_, ?_, ?_⟩
  · rw [hfor, List.map_cons, List.toFinset_cons]
    exact hset
  · obtain ⟨j, hj⟩ := KeyValue.range_zero
      (record.encode serde :: ((s.appliedFor record.mint).take k).map (TokenTradeRecord.encode serde)) stop
    refine ⟨min j (k + 1), hlist.trans ?_⟩
    rw [hj, hfor, ← List.map_cons, ← List.take_succ_cons, ← List.map_take, List.take_take]
  · rw [hfor, List.map_cons, List.nodup_cons]
    refine ⟨fun hmem => sismember_eq_false hsigs hnew ?_, hdistinct⟩
    exact List.mem_toFinset.mpr hmem

/-- The invariant of a mint is kept by a record stored for another. -/
theorem StoreInv.other {serde : SerdeJson} {s : StoreState} {record : TokenTradeRecord} {stop : ℤ} {mint : String}
    (h : StoreInv serde s mint) (hne : mint ≠ record.mint) :
    StoreInv serde ⟨KeyValue.exec s.redis (storeCommands serde stop record.mint record), record :: s.applied⟩
      mint := by
  have hfor : (StoreState.mk (KeyValue.exec s.redis (storeCommands serde stop record.mint record))
      (record :: s.applied)).appliedFor mint = s.appliedFor mint := by
    simp [StoreState.appliedFor, hne.symm]
  have hkey : ∀ key, key = tradesKey mint ∨ key = signaturesKey mint →
      KeyValue.exec s.redis (storeCommands serde stop record.mint record) key = s.redis key := by
    rintro key (rfl | rfl)
    · exact KeyValue.exec_of_not_mem (storeCommands_keys (fun h => hne (tradesKey_inj.mp h))
        (tradesKey_ne_signaturesKey _ _)) _
    · exact KeyValue.exec_of_not_mem (storeCommands_keys (tradesKey_ne_signaturesKey _ _).symm
        (fun h => hne (signaturesKey_inj.mp h))) _
  refine ⟨?_, ?_, ?_⟩
  · rw [hfor, ← h.sigs]
    exact KeyValue.asSet_congr (hkey _ (Or.inr rfl))
  · obtain ⟨k, hk⟩ := h.trades
    refine ⟨k, ?_⟩
    rw [hfor, ← hk]
    exact KeyValue.asList_congr (hkey _ (Or.inl rfl))
  · rw [hfor]
    exact h.distinct

section Task

variable {p : Profile} {serde : SerdeJson} (maxTradesPerToken : UInt64)

/-- One stored record keeps the invariants of all mints. -/
theorem storeTrade_inv {s : StoreState} (h : ∀ m, StoreInv serde s m) (r : StoreReplies)
    (record : TokenTradeRecord) (m : String) :
    StoreInv serde ((storeTrade p serde maxTradesPerToken r record.mint record).run s).2 m := by
  rcases storeTrade_cases p serde maxTradesPerToken r record.mint record s
    with hs | ⟨stop, -, hnew, hs⟩
  · rw [hs]
    exact h m
  · rw [hs]
    by_cases hm : m = record.mint
    · subst hm
      exact (h record.mint).stored hnew
    · exact (h m).other hm

theorem record_mint (u : TransactionUpdate) : u.record.mint = u.mint := rfl

/-- **The store task keeps the invariant of every mint**, whatever is delivered and whatever fails. -/
theorem storeTask_inv {s : StoreState} (h : ∀ m, StoreInv serde s m)
    (deliveries : List (TransactionUpdate × StoreReplies)) (m : String) :
    StoreInv serde (storeTask p serde maxTradesPerToken deliveries s) m := by
  induction deliveries generalizing s with
  | nil => exact h m
  | cons d deliveries ih =>
    obtain ⟨u, r⟩ := d
    have hstep := storeTrade_inv (p := p) maxTradesPerToken h r u.record
    rw [record_mint] at hstep
    simp only [storeTask]
    rcases hr : (storeTrade p serde maxTradesPerToken r u.mint u.record).run s with ⟨(e | msg) | _, s'⟩ <;>
      simp only [hr] at hstep
    · exact ih hstep
    · exact hstep m
    · exact ih hstep

/-- **The two keys of a mint stay consistent.** After any deliveries, in any order and with any
failures, to a server that was empty: the set of a mint is exactly the signatures of the records
applied for it; its list holds a prefix of these records, newest first, with pairwise distinct
signatures that are all in the set; storing a record whose signature was applied for the mint
changes nothing; and storing a record for the mint changes no key of another. -/
theorem storeTask_consistent (deliveries : List (TransactionUpdate × StoreReplies)) (m : String) :
    let s := storeTask p serde maxTradesPerToken deliveries StoreState.empty
    s.redis.asSet (signaturesKey m) = .ok ((s.appliedFor m).map TokenTradeRecord.signature).toFinset ∧
      (∃ stored, stored <+: s.appliedFor m ∧
        s.redis.asList (tradesKey m) = .ok (stored.map (TokenTradeRecord.encode serde)) ∧
        (stored.map TokenTradeRecord.signature).Nodup ∧
        ∀ record ∈ stored, record.signature ∈ ((s.appliedFor m).map TokenTradeRecord.signature).toFinset) ∧
      (∀ (u : TransactionUpdate) (r : StoreReplies), u.mint = m →
        u.signature ∈ (s.appliedFor m).map TokenTradeRecord.signature →
        ((storeTrade p serde maxTradesPerToken r u.mint u.record).run s).2 = s) ∧
      ∀ (u : TransactionUpdate) (r : StoreReplies) (m' : String), u.mint = m → m' ≠ m →
        ((storeTrade p serde maxTradesPerToken r u.mint u.record).run s).2.redis (tradesKey m') =
            s.redis (tradesKey m') ∧
          ((storeTrade p serde maxTradesPerToken r u.mint u.record).run s).2.redis (signaturesKey m') =
            s.redis (signaturesKey m') := by
  intro s
  obtain ⟨hsigs, ⟨k, htrades⟩, hdistinct⟩ := storeTask_inv (p := p) maxTradesPerToken (StoreInv.empty serde)
    deliveries m
  refine ⟨hsigs, ⟨(s.appliedFor m).take k, List.take_prefix _ _, htrades, ?_, ?_⟩, ?_, ?_⟩
  · rw [List.map_take]
    exact hdistinct.sublist (List.take_sublist _ _)
  · intro record hrecord
    exact List.mem_toFinset.mpr (List.mem_map_of_mem (List.mem_of_mem_take hrecord))
  · rintro u r rfl hseen
    rcases storeTrade_cases p serde maxTradesPerToken r u.mint u.record s with hs | ⟨stop, -, hnew, -⟩
    · exact hs
    · exact absurd (List.mem_toFinset.mpr hseen) (sismember_eq_false hsigs hnew)
  · rintro u r m' rfl hne
    rcases storeTrade_cases p serde maxTradesPerToken r u.mint u.record s with hs | ⟨stop, -, -, hs⟩
    · rw [hs]
      exact ⟨rfl, rfl⟩
    · rw [hs]
      exact ⟨KeyValue.exec_of_not_mem (storeCommands_keys (fun h => hne (tradesKey_inj.mp h))
          (tradesKey_ne_signaturesKey _ _)) _,
        KeyValue.exec_of_not_mem (storeCommands_keys (tradesKey_ne_signaturesKey _ _).symm
          (fun h => hne (signaturesKey_inj.mp h))) _⟩

end Task

end PumpSwapBot.Rust
