import PumpSwapBot.Library.Machine
import PumpSwapBot.Sdk.Client
import Mathlib.Data.Multiset.AddSub

/-!
# The pool of senders

How the SDK sends the tasks of a trade through all channels at once
(`trading/core/async_executor.rs`): the callers of `execute_parallel` put jobs into one shared
queue, the workers of the pool take them out, build and send a transaction each, and hand the
results to the collector of the caller, which waits for them.

## The model

Callers and workers are parties of one machine (`Library.Machine`), and every atomic operation on
what they share is a step of its own: a push to or a pop from one of the queues, a store or a load
of a flag, the increment of the counter, the wake-up of the workers. A list of actions is then one
interleaving. What the outside decides comes with the action: how building and sending a
transaction ended (`Outcome`), and whether a caller's time is up when it looks at the clock.

* There is any number of workers (`n`) and any number of batches, each the tasks of one call.
* Pinning a thread to a core changes no result and is left out.
* A batch keeps, beside the data of the source, its history: the tasks the full queue refused,
  those that are finished, and the results its caller has taken out.
-/

namespace PumpSwapBot.Sdk

open PumpSwapBot.Library

/-! ### Results -/

/-- An `anyhow::Error` as the channels return it: one that holds a `TradeError`, or any other. -/
inductive SendError where
  | trade (e : TradeError)
  | other (e : Error)
  deriving DecidableEq

/-- The text of an error. -/
def SendError.text : SendError → String
  | .trade e => e.message
  | .other e => e.msg

/-- Whether a text has another in it. -/
def textContains (s t : String) : Bool := t.toList <:+: s.toList

/-- Whether an error says that the transaction is on the chain, as a failed one. -/
def isLandedError : SendError → Bool
  | .trade e => if e.code = 500 ∧ textContains e.message "timed out" then false else e.code > 0
  | .other _ => false

/-- The result of one task. -/
structure TaskResult where
  success : Bool
  signature : Signature
  error : Option SendError
  swqosType : SwqosType
  landedOnChain : Bool
  /-- When the task was done, in microseconds. -/
  submitDoneUs : ℤ
  deriving DecidableEq

/-- The signature of 64 zero bytes, `Signature::default()`. -/
def defaultSignature : Signature := Base58.encode (List.replicate 64 0)

/-- How a job ended: its transaction could not be built, or was sent with its signatures and answered. -/
inductive Outcome where
  | notBuilt (e : SendError) (doneUs : ℤ)
  | sent (signatures : List Signature) (answer : Except SendError Unit) (doneUs : ℤ)

/-- The result a job hands to the collector. -/
def runOneSwqosJob (t : Task) : Outcome → TaskResult
  | .notBuilt e doneUs =>
    { success := false, signature := defaultSignature, error := some e, swqosType := t.client.swqosType
      landedOnChain := false, submitDoneUs := doneUs }
  | .sent signatures (.ok _) doneUs =>
    { success := true, signature := signatures.headD defaultSignature, error := none
      swqosType := t.client.swqosType, landedOnChain := true, submitDoneUs := doneUs }
  | .sent signatures (.error e) doneUs =>
    { success := false, signature := signatures.headD defaultSignature, error := some e
      swqosType := t.client.swqosType, landedOnChain := isLandedError e, submitDoneUs := doneUs }

/-- The transaction of the result is on the chain, as a failed one. -/
def TaskResult.landedFailed (r : TaskResult) : Bool := r.landedOnChain && !r.success

/-- What a caller is told: whether a task succeeded, the signatures, an error, and when each channel was done. -/
structure Report where
  success : Bool
  signatures : List Signature
  error : Option SendError
  submitTimings : List (SwqosType × ℤ)
  deriving DecidableEq

namespace Report

/-- The report of some results. -/
def ofResults (rs : List TaskResult) (success : Bool) (error : Option SendError) : Report where
  success := success
  signatures := rs.map (·.signature)
  error := error
  submitTimings := rs.map fun r => (r.swqosType, r.submitDoneUs)

/-- The error of the last result that has one. -/
def lastError (rs : List TaskResult) : Option SendError :=
  rs.foldl (fun e r => if r.error.isSome then r.error else e) none

/-- The error of the last result that has one and is on the chain. -/
def landedError (rs : List TaskResult) : Option SendError :=
  rs.foldl (fun e r => if r.landedOnChain && r.error.isSome then r.error else e) none

/-- Whether one of the results is a success. -/
def anySuccess (rs : List TaskResult) : Bool := rs.any (·.success)

/-- The report of all results taken out, `get_first`; there is none without a result. -/
def first (rs : List TaskResult) : Option Report :=
  if rs.isEmpty then none else some (ofResults rs (anySuccess rs) (lastError rs))

end Report

/-! ### The collector -/

/-- What a caller and the workers of its tasks share. -/
structure ResultCollector where
  /-- The results not yet taken out, oldest first; as many fit in as there are tasks. -/
  results : List TaskResult
  successFlag : Bool
  landedFailedFlag : Bool
  completedCount : ℕ
  totalTasks : ℕ

namespace ResultCollector

/-- A new collector. -/
def new (capacity : ℕ) : ResultCollector := ⟨[], false, false, 0, capacity⟩

-- The three operations of `submit`.

/-- Put a result in; a full queue refuses it, and nobody hears of that. -/
def push (c : ResultCollector) (r : TaskResult) : ResultCollector :=
  if c.results.length < c.totalTasks then { c with results := c.results ++ [r] } else c

/-- Raise the flag of a result, if it has one. -/
def flag (c : ResultCollector) (r : TaskResult) : ResultCollector :=
  if r.success then { c with successFlag := true }
  else if r.landedFailed then { c with landedFailedFlag := true }
  else c

/-- Count a result. -/
def count (c : ResultCollector) : ResultCollector := { c with completedCount := c.completedCount + 1 }

end ResultCollector

/-! ### Callers -/

/-- Where a call of `execute_parallel` is. A list of results is what the current loop has taken out. -/
inductive Caller where
  /-- There is no call yet. -/
  | idle
  /-- Putting the tasks into the queue. -/
  | enqueuing
  /-- Returned: a channel has no account for its tip. -/
  | failed (e : Error)
  -- `wait_for_all_submitted`
  | loadCompleted
  | checkElapsed
  | getFirst (popped : List TaskResult)
  -- `wait_for_success`
  | loadSuccess
  | drainSuccess (popped : List TaskResult)
  | loadLanded
  | drainLanded (popped : List TaskResult)
  | loadCount
  | drainCount (popped : List TaskResult)
  | checkTimeout
  /-- Returned from waiting. -/
  | returned (r : Option Report)

/-- One call of `execute_parallel`. -/
structure Batch where
  tasks : List Task
  /-- `wait_transaction_confirmed`. -/
  confirm : Bool
  collector : ResultCollector
  caller : Caller
  /-- The tasks not yet put into the queue. -/
  rest : List Task
  /-- The tasks the full queue refused (history). -/
  dropped : List Task
  /-- The tasks whose result the collector has got, in that order (history). -/
  finished : List (Task × Outcome)
  /-- The results the caller has taken out (history). -/
  taken : List TaskResult
  /-- The caller has found its time to be up (history). -/
  timedOut : Bool

namespace Batch

/-- No call. -/
def idle : Batch := ⟨[], false, .new 0, .idle, [], [], [], [], false⟩

/-- A new call. -/
def start (tasks : List Task) (confirm : Bool) : Batch :=
  ⟨tasks, confirm, .new tasks.length, .enqueuing, tasks, [], [], [], false⟩

/-- The results in the order in which the collector got them. -/
def results (B : Batch) : List TaskResult := B.finished.map fun f => runOneSwqosJob f.1 f.2

/-- Go on at another place. -/
def goto (B : Batch) (c : Caller) : Batch := { B with caller := c }

/-- Take a result out, or go on if there is none. -/
def drain (B : Batch) (popped : List TaskResult) (again : List TaskResult → Caller) (after : Caller) : Batch :=
  match B.collector.results with
  | r :: rs =>
    { B with collector := { B.collector with results := rs }
             taken := B.taken ++ [r]
             caller := again (popped ++ [r]) }
  | [] => B.goto after

/-- The next operation of a caller that waits, unless it is to look at the clock. -/
def poll (B : Batch) : Option Batch :=
  match B.caller with
  | .loadCompleted =>
    some (B.goto (if B.collector.completedCount < B.collector.totalTasks then .checkElapsed else .getFirst []))
  | .getFirst popped => some (B.drain popped .getFirst (.returned (Report.first popped)))
  | .loadSuccess => some (B.goto (if B.collector.successFlag then .drainSuccess [] else .loadLanded))
  | .drainSuccess popped =>
    some (B.drain popped .drainSuccess
      (if Report.anySuccess popped && !popped.isEmpty then .returned (some (.ofResults popped true none))
       else .loadLanded))
  | .loadLanded => some (B.goto (if B.collector.landedFailedFlag then .drainLanded [] else .loadCount))
  | .drainLanded popped =>
    some (B.drain popped .drainLanded
      (if popped.isEmpty then .loadCount
       else .returned (some (.ofResults popped false (Report.landedError popped)))))
  | .loadCount =>
    some (B.goto (if B.collector.completedCount ≥ B.collector.totalTasks then .drainCount [] else .checkTimeout))
  | .drainCount popped => some (B.drain popped .drainCount (.returned (Report.first popped)))
  | _ => none

/-- A caller looks at the clock: it goes on waiting, or its time is up. -/
def clock (B : Batch) (late : Bool) : Option Batch :=
  match B.caller with
  | .checkElapsed =>
    some (if late then { B with timedOut := true, caller := .getFirst [] } else B.goto .loadCompleted)
  | .checkTimeout =>
    some (if late then { B with timedOut := true, caller := .returned none } else B.goto .loadSuccess)
  | _ => none

end Batch

/-! ### Workers -/

/-- A task in the queue of the pool. -/
structure Job where
  /-- The call it belongs to. -/
  batch : ℕ
  task : Task

/-- Where a worker is in its loop. -/
inductive Worker where
  /-- About to take a job. -/
  | ready
  /-- It has found the queue empty and does not wait yet: a wake-up now does not reach it. -/
  | missed
  /-- Waiting to be woken. -/
  | waiting
  /-- Building and sending the transaction of a job. -/
  | running (job : Job)
  -- The three operations of `submit` are ahead of it, two of them, one.
  | pushing (job : Job) (o : Outcome)
  | flagging (job : Job) (o : Outcome)
  | counting (job : Job) (o : Outcome)

/-- What a wake-up makes of a worker. -/
def Worker.wake : Worker → Worker
  | .waiting => .ready
  | w => w

/-! ### The machine -/

/-- How many jobs the queue of the pool holds. -/
def swqosQueueCap : ℕ := 128

/-- The callers, the workers and the queue between them. -/
structure PoolState (n : ℕ) where
  /-- The jobs, oldest first. -/
  queue : List Job
  workers : Fin n → Worker
  batches : ℕ → Batch

/-- An action of one party. -/
inductive Action (n : ℕ) where
  /-- A call begins. -/
  | start (b : ℕ) (tasks : List Task) (confirm : Bool)
  /-- A caller's next operation. -/
  | caller (b : ℕ)
  /-- A caller looks at the clock. -/
  | clock (b : ℕ) (late : Bool)
  /-- A worker's next operation. -/
  | worker (w : Fin n)
  /-- The job of a worker ends. -/
  | answer (w : Fin n) (o : Outcome)

namespace PoolState

variable {n : ℕ}

/-- At first all workers look for a job. -/
def init : PoolState n := ⟨[], fun _ => .ready, fun _ => .idle⟩

/-- Write a batch. -/
def setBatch (s : PoolState n) (b : ℕ) (B : Batch) : PoolState n := { s with batches := Function.update s.batches b B }

/-- Write a worker. -/
def setWorker (s : PoolState n) (w : Fin n) (W : Worker) : PoolState n :=
  { s with workers := Function.update s.workers w W }

/-- Write the queue. -/
def setQueue (s : PoolState n) (queue : List Job) : PoolState n := { s with queue := queue }

/-- Wake all workers that wait. -/
def wakeAll (s : PoolState n) : PoolState n := { s with workers := fun w => (s.workers w).wake }

section Simp

variable (s : PoolState n) (b b' : ℕ) (B : Batch) (w : Fin n) (W : Worker) (queue : List Job)

@[simp] theorem setBatch_queue : (s.setBatch b B).queue = s.queue := rfl

@[simp] theorem setBatch_workers : (s.setBatch b B).workers = s.workers := rfl

@[simp] theorem setBatch_self : (s.setBatch b B).batches b = B := by simp [setBatch]

theorem setBatch_ne {b b' : ℕ} (h : b' ≠ b) : (s.setBatch b B).batches b' = s.batches b' := by simp [setBatch, h]

@[simp] theorem setWorker_queue : (s.setWorker w W).queue = s.queue := rfl

@[simp] theorem setWorker_batches : (s.setWorker w W).batches = s.batches := rfl

@[simp] theorem setQueue_queue : (s.setQueue queue).queue = queue := rfl

@[simp] theorem setQueue_workers : (s.setQueue queue).workers = s.workers := rfl

@[simp] theorem setQueue_batches : (s.setQueue queue).batches = s.batches := rfl

@[simp] theorem wakeAll_queue : s.wakeAll.queue = s.queue := rfl

@[simp] theorem wakeAll_batches : s.wakeAll.batches = s.batches := rfl

end Simp

/-- Put the next task of a call into the queue. The queue refuses it if it is full; the call goes on
all the same. A channel without an account for its tip ends the call at once. -/
def pushJob (s : PoolState n) (b : ℕ) (t : Task) (rest : List Task) : PoolState n :=
  match t.client.tipAccount with
  | .error e => s.setBatch b ((s.batches b).goto (.failed e))
  | .ok _ =>
    if s.queue.length < swqosQueueCap then
      (s.setBatch b { s.batches b with rest := rest }).setQueue (s.queue ++ [⟨b, t⟩])
    else s.setBatch b { s.batches b with rest := rest, dropped := (s.batches b).dropped ++ [t] }

/-- Wake all workers that wait, and begin to wait for the results. -/
def notifyWaiters (s : PoolState n) (b : ℕ) : PoolState n :=
  (s.setBatch b ((s.batches b).goto (if (s.batches b).confirm then .loadSuccess else .loadCompleted))).wakeAll

/-- A caller's next operation. -/
def callerStep (s : PoolState n) (b : ℕ) : Option (PoolState n) :=
  match (s.batches b).caller, (s.batches b).rest with
  | .enqueuing, t :: rest => some (s.pushJob b t rest)
  | .enqueuing, [] => some (s.notifyWaiters b)
  | _, _ => (s.batches b).poll.map (s.setBatch b)

/-- Hand the result of a job on, in three operations. -/
def submitResult (s : PoolState n) (job : Job) (o : Outcome) : PoolState n :=
  let B := s.batches job.batch
  s.setBatch job.batch { B with collector := B.collector.push (runOneSwqosJob job.task o)
                                finished := B.finished ++ [(job.task, o)] }

/-- The second operation. -/
def submitFlag (s : PoolState n) (job : Job) (o : Outcome) : PoolState n :=
  let B := s.batches job.batch
  s.setBatch job.batch { B with collector := B.collector.flag (runOneSwqosJob job.task o) }

/-- The third operation. -/
def submitCount (s : PoolState n) (job : Job) : PoolState n :=
  let B := s.batches job.batch
  s.setBatch job.batch { B with collector := B.collector.count }

/-- A worker's next operation. -/
def workerStep (s : PoolState n) (w : Fin n) : Option (PoolState n) :=
  match s.workers w with
  | .ready => match s.queue with
    | job :: queue => some ((s.setWorker w (.running job)).setQueue queue)
    | [] => some (s.setWorker w .missed)
  | .missed => some (s.setWorker w .waiting)
  | .waiting => none
  | .running _ => none
  | .pushing job o => some ((s.submitResult job o).setWorker w (.flagging job o))
  | .flagging job o => some ((s.submitFlag job o).setWorker w (.counting job o))
  | .counting job _ => some ((s.submitCount job).setWorker w .ready)

/-- One action. -/
def step (s : PoolState n) : Action n → Option (PoolState n)
  | .start b tasks confirm => match (s.batches b).caller with
    | .idle => if tasks.isEmpty then none else some (s.setBatch b (.start tasks confirm))
    | _ => none
  | .caller b => s.callerStep b
  | .clock b late => ((s.batches b).clock late).map (s.setBatch b)
  | .worker w => s.workerStep w
  | .answer w o => match s.workers w with
    | .running job => some (s.setWorker w (.pushing job o))
    | _ => none

/-! ### What a step can do -/

/-- One constructor for each operation of the source. -/
inductive Moves (s : PoolState n) : Action n → PoolState n → Prop where
  | start {b : ℕ} {tasks : List Task} {confirm : Bool} (hidle : (s.batches b).caller = .idle) (htasks : tasks ≠ []) :
    Moves s (.start b tasks confirm) (s.setBatch b (.start tasks confirm))
  | tipFailed {b : ℕ} {t : Task} {rest : List Task} {e : Error} (hcaller : (s.batches b).caller = .enqueuing)
      (hrest : (s.batches b).rest = t :: rest) (htip : t.client.tipAccount = .error e) :
    Moves s (.caller b) (s.setBatch b ((s.batches b).goto (.failed e)))
  | enqueued {b : ℕ} {t : Task} {rest : List Task} {account : String} (hcaller : (s.batches b).caller = .enqueuing)
      (hrest : (s.batches b).rest = t :: rest) (htip : t.client.tipAccount = .ok account)
      (hroom : s.queue.length < swqosQueueCap) :
    Moves s (.caller b) ((s.setBatch b { s.batches b with rest := rest }).setQueue (s.queue ++ [⟨b, t⟩]))
  | refused {b : ℕ} {t : Task} {rest : List Task} {account : String} (hcaller : (s.batches b).caller = .enqueuing)
      (hrest : (s.batches b).rest = t :: rest) (htip : t.client.tipAccount = .ok account)
      (hfull : ¬ s.queue.length < swqosQueueCap) :
    Moves s (.caller b) (s.setBatch b { s.batches b with rest := rest, dropped := (s.batches b).dropped ++ [t] })
  | notified {b : ℕ} (hcaller : (s.batches b).caller = .enqueuing) (hrest : (s.batches b).rest = []) :
    Moves s (.caller b) (s.notifyWaiters b)
  | polled {b : ℕ} {B : Batch} (hpoll : (s.batches b).poll = some B) : Moves s (.caller b) (s.setBatch b B)
  | clocked {b : ℕ} {late : Bool} {B : Batch} (hclock : (s.batches b).clock late = some B) :
    Moves s (.clock b late) (s.setBatch b B)
  | tookJob {w : Fin n} {job : Job} {queue : List Job} (hworker : s.workers w = .ready) (hqueue : s.queue = job :: queue) :
    Moves s (.worker w) ((s.setWorker w (.running job)).setQueue queue)
  | foundEmpty {w : Fin n} (hworker : s.workers w = .ready) (hqueue : s.queue = []) :
    Moves s (.worker w) (s.setWorker w .missed)
  | waits {w : Fin n} (hworker : s.workers w = .missed) : Moves s (.worker w) (s.setWorker w .waiting)
  | answered {w : Fin n} {job : Job} {o : Outcome} (hworker : s.workers w = .running job) :
    Moves s (.answer w o) (s.setWorker w (.pushing job o))
  | pushed {w : Fin n} {job : Job} {o : Outcome} (hworker : s.workers w = .pushing job o) :
    Moves s (.worker w) ((s.submitResult job o).setWorker w (.flagging job o))
  | flagged {w : Fin n} {job : Job} {o : Outcome} (hworker : s.workers w = .flagging job o) :
    Moves s (.worker w) ((s.submitFlag job o).setWorker w (.counting job o))
  | counted {w : Fin n} {job : Job} {o : Outcome} (hworker : s.workers w = .counting job o) :
    Moves s (.worker w) ((s.submitCount job).setWorker w .ready)

theorem callerStep_moves {s s' : PoolState n} {b : ℕ} (h : s.callerStep b = some s') : Moves s (.caller b) s' := by
  unfold callerStep at h
  split at h
  next t rest hcaller hrest =>
    cases h
    unfold pushJob
    split
    next e htip => exact .tipFailed hcaller hrest htip
    next account htip =>
      split_ifs with hroom
      · exact .enqueued hcaller hrest htip hroom
      · exact .refused hcaller hrest htip hroom
  next hcaller hrest =>
    cases h
    exact .notified hcaller hrest
  next =>
    obtain ⟨B, hpoll, rfl⟩ := Option.map_eq_some_iff.mp h
    exact .polled hpoll

theorem workerStep_moves {s s' : PoolState n} {w : Fin n} (h : s.workerStep w = some s') : Moves s (.worker w) s' := by
  unfold workerStep at h
  split at h
  next hworker =>
    split at h
    next job queue hqueue =>
      cases h
      exact .tookJob hworker hqueue
    next hqueue =>
      cases h
      exact .foundEmpty hworker hqueue
  next hworker =>
    cases h
    exact .waits hworker
  next => cases h
  next => cases h
  next job o hworker =>
    cases h
    exact .pushed hworker
  next job o hworker =>
    cases h
    exact .flagged hworker
  next job o hworker =>
    cases h
    exact .counted hworker

/-- **Inversion.** Every step is one of the operations. -/
theorem step_moves {s s' : PoolState n} {a : Action n} (h : s.step a = some s') : Moves s a s' := by
  cases a with
  | start b tasks confirm =>
    simp only [step] at h
    split at h
    next hidle =>
      split_ifs at h with htasks
      cases h
      exact .start hidle (by simpa using htasks)
    next => cases h
  | caller b => exact callerStep_moves h
  | clock b late =>
    obtain ⟨B, hclock, rfl⟩ := Option.map_eq_some_iff.mp h
    exact .clocked hclock
  | worker w => exact workerStep_moves h
  | answer w o =>
    simp only [step] at h
    split at h
    next job hworker =>
      cases h
      exact .answered hworker
    next => cases h

end PoolState

end PumpSwapBot.Sdk
