import PumpSwapBot.Sdk.Executor

/-!
# What a caller of the pool is told

Where the tasks of a call are at any time, and what its report says about them, over every
interleaving of the callers and the workers.

## What is proved

`Accounted` and `Sound` are the invariants: every task of a call is in exactly one place, the counter
lags behind the results by the workers that have not counted theirs, and what the caller has taken
out is the beginning of the results in the order of their arrival.
-/

namespace PumpSwapBot.Sdk

open PumpSwapBot.Library

open scoped BigOperators

variable {n : ℕ}

/-! ### Where the tasks are -/

namespace Worker

/-- The task of a call that a worker has taken and whose result it has not handed on. -/
def holds (b : ℕ) : Worker → Multiset Task
  | .running job => if job.batch = b then {job.task} else 0
  | .pushing job _ => if job.batch = b then {job.task} else 0
  | _ => 0

/-- One for a result of a call that a worker has handed on and not counted. -/
def owes (b : ℕ) : Worker → ℕ
  | .flagging job _ => if job.batch = b then 1 else 0
  | .counting job _ => if job.batch = b then 1 else 0
  | _ => 0

@[simp] theorem holds_wake (b : ℕ) (W : Worker) : W.wake.holds b = W.holds b := by cases W <;> rfl

@[simp] theorem owes_wake (b : ℕ) (W : Worker) : W.wake.owes b = W.owes b := by cases W <;> rfl

end Worker

namespace Batch

/-- The two batches have the same tasks in the same places, and counted the same. -/
structure SameAccount (B B' : Batch) : Prop where
  tasks : B'.tasks = B.tasks
  rest : B'.rest = B.rest
  dropped : B'.dropped = B.dropped
  finished : B'.finished = B.finished
  completed : B'.collector.completedCount = B.collector.completedCount
  total : B'.collector.totalTasks = B.collector.totalTasks
  idle : B'.caller = .idle ↔ B.caller = .idle

theorem SameAccount.refl (B : Batch) : B.SameAccount B := ⟨rfl, rfl, rfl, rfl, rfl, rfl, Iff.rfl⟩

theorem sameAccount_goto {B : Batch} {c : Caller} (hfrom : B.caller ≠ .idle) (hto : c ≠ .idle) :
    B.SameAccount (B.goto c) :=
  ⟨rfl, rfl, rfl, rfl, rfl, rfl, iff_of_false hto hfrom⟩

theorem sameAccount_drain {B : Batch} {popped : List TaskResult} {again : List TaskResult → Caller} {after : Caller}
    (hfrom : B.caller ≠ .idle) (hagain : ∀ rs, again rs ≠ .idle) (hafter : after ≠ .idle) :
    B.SameAccount (B.drain popped again after) := by
  unfold drain
  split
  · exact ⟨rfl, rfl, rfl, rfl, rfl, rfl, iff_of_false (hagain _) hfrom⟩
  · exact sameAccount_goto hfrom hafter

theorem sameAccount_poll {B B' : Batch} (h : B.poll = some B') : B.SameAccount B' := by
  unfold poll at h
  split at h <;> cases h
  next hc => exact sameAccount_goto (by simp [hc]) (by split_ifs <;> simp)
  next hc => exact sameAccount_drain (by simp [hc]) (by simp) (by simp)
  next hc => exact sameAccount_goto (by simp [hc]) (by split_ifs <;> simp)
  next hc => exact sameAccount_drain (by simp [hc]) (by simp) (by split_ifs <;> simp)
  next hc => exact sameAccount_goto (by simp [hc]) (by split_ifs <;> simp)
  next hc => exact sameAccount_drain (by simp [hc]) (by simp) (by split_ifs <;> simp)
  next hc => exact sameAccount_goto (by simp [hc]) (by split_ifs <;> simp)
  next hc => exact sameAccount_drain (by simp [hc]) (by simp) (by simp)

theorem sameAccount_clock {B B' : Batch} {late : Bool} (h : B.clock late = some B') : B.SameAccount B' := by
  unfold clock at h
  split at h <;> cases h <;> split_ifs
  next hc _ => exact ⟨rfl, rfl, rfl, rfl, rfl, rfl, by simp [hc]⟩
  next hc _ => exact sameAccount_goto (by simp [hc]) (by simp)
  next hc _ => exact ⟨rfl, rfl, rfl, rfl, rfl, rfl, by simp [hc]⟩
  next hc _ => exact sameAccount_goto (by simp [hc]) (by simp)

end Batch

namespace PoolState

/-- The tasks of a call in the queue. -/
def queued (s : PoolState n) (b : ℕ) : Multiset Task := ((s.queue.filter (·.batch = b)).map (·.task) : List Task)

/-- The tasks of a call the workers hold. -/
def held (s : PoolState n) (b : ℕ) : Multiset Task := ∑ w, (s.workers w).holds b

/-- The results of a call that are handed on and not counted. -/
def owed (s : PoolState n) (b : ℕ) : ℕ := ∑ w, (s.workers w).owes b

section Simp

variable (s : PoolState n) (b b' : ℕ) (B : Batch) (w : Fin n) (W : Worker) (queue : List Job)

@[simp] theorem setBatch_queued : (s.setBatch b B).queued b' = s.queued b' := rfl

@[simp] theorem setBatch_held : (s.setBatch b B).held b' = s.held b' := rfl

@[simp] theorem setBatch_owed : (s.setBatch b B).owed b' = s.owed b' := rfl

@[simp] theorem setWorker_queued : (s.setWorker w W).queued b = s.queued b := rfl

@[simp] theorem setBatch_setWorker_held : ((s.setBatch b B).setWorker w W).held b' = (s.setWorker w W).held b' := rfl

@[simp] theorem setBatch_setWorker_owed : ((s.setBatch b B).setWorker w W).owed b' = (s.setWorker w W).owed b' := rfl

@[simp] theorem setQueue_held : (s.setQueue queue).held b = s.held b := rfl

@[simp] theorem setQueue_owed : (s.setQueue queue).owed b = s.owed b := rfl

@[simp] theorem wakeAll_queued : s.wakeAll.queued b = s.queued b := rfl

@[simp] theorem wakeAll_held : s.wakeAll.held b = s.held b := by simp [held, wakeAll]

@[simp] theorem wakeAll_owed : s.wakeAll.owed b = s.owed b := by simp [owed, wakeAll]

end Simp

theorem queued_append (s : PoolState n) (job : Job) (b : ℕ) :
    (s.setQueue (s.queue ++ [job])).queued b = s.queued b + if job.batch = b then {job.task} else 0 := by
  simp only [queued, setQueue_queue, List.filter_append, List.map_append, ← Multiset.coe_add]
  split_ifs with hb <;> simp [hb]

theorem queued_cons {s : PoolState n} {job : Job} {queue : List Job} (h : s.queue = job :: queue) (b : ℕ) :
    s.queued b = (if job.batch = b then {job.task} else 0) + (s.setQueue queue).queued b := by
  simp only [queued, h, setQueue_queue, List.filter_cons]
  split_ifs with hb <;> simp_all

theorem held_setWorker (s : PoolState n) (w : Fin n) (W : Worker) (b : ℕ) :
    (s.setWorker w W).held b + (s.workers w).holds b = s.held b + W.holds b :=
  Machine.sum_update (Worker.holds b) s.workers w W

theorem owed_setWorker (s : PoolState n) (w : Fin n) (W : Worker) (b : ℕ) :
    (s.setWorker w W).owed b + (s.workers w).owes b = s.owed b + W.owes b :=
  Machine.sum_update (Worker.owes b) s.workers w W

/-- Every task of a call is in one place: not yet in the queue, refused, in the queue, with a worker, or
finished; and the finished ones are those counted and those about to be. -/
structure Accounted (s : PoolState n) (b : ℕ) : Prop where
  conserved : ((s.batches b).rest : Multiset Task) + (s.batches b).dropped + s.queued b + s.held b
    + ((s.batches b).finished.map Prod.fst : List Task) = ((s.batches b).tasks : Multiset Task)
  counted : (s.batches b).collector.completedCount + s.owed b = (s.batches b).finished.length
  total : (s.batches b).collector.totalTasks = (s.batches b).tasks.length
  idle : (s.batches b).caller = .idle ↔ (s.batches b).tasks = []

namespace Accounted

variable {s s' : PoolState n} {b : ℕ}

theorem finished_le (h : s.Accounted b) : (s.batches b).finished.length ≤ (s.batches b).tasks.length := by
  have hcard := congrArg Multiset.card h.conserved
  simp only [Multiset.card_add, Multiset.coe_card, List.length_map] at hcard
  omega

theorem completed_le (h : s.Accounted b) : (s.batches b).collector.completedCount ≤ (s.batches b).collector.totalTasks := by
  have h₁ := h.counted
  have h₂ := h.finished_le
  rw [h.total]
  omega

/-- When the counter has reached the total, all tasks are finished, and none is anywhere else. -/
theorem finished_perm (h : s.Accounted b)
    (hall : (s.batches b).collector.totalTasks ≤ (s.batches b).collector.completedCount) :
    ((s.batches b).finished.map Prod.fst).Perm (s.batches b).tasks := by
  have hlen : (s.batches b).tasks.length ≤ (s.batches b).finished.length := by
    have h₁ := h.counted
    have h₂ := h.total
    omega
  have hle : (((s.batches b).finished.map Prod.fst : List Task) : Multiset Task) ≤ (s.batches b).tasks := by
    rw [← h.conserved]
    exact Multiset.le_add_left _ _
  refine Multiset.coe_eq_coe.mp (Multiset.eq_of_le_of_card_le hle ?_)
  simpa using hlen

/-- A batch that keeps its account stays accounted for if the queue and the workers hold the same of it. -/
theorem of_batch (h : s.Accounted b) (hqueued : s'.queued b = s.queued b) (hheld : s'.held b = s.held b)
    (howed : s'.owed b = s.owed b) (hsame : (s.batches b).SameAccount (s'.batches b)) : s'.Accounted b where
  conserved := by
    rw [hsame.tasks, hsame.rest, hsame.dropped, hsame.finished, hheld, hqueued, h.conserved]
  counted := by rw [hsame.completed, howed, hsame.finished, h.counted]
  total := by rw [hsame.total, hsame.tasks, h.total]
  idle := by rw [hsame.tasks, hsame.idle, h.idle]

end Accounted

theorem accounted_init (b : ℕ) : (init : PoolState n).Accounted b where
  conserved := by simp [init, Batch.idle, queued, held, Worker.holds]
  counted := by simp [init, Batch.idle, ResultCollector.new, owed, Worker.owes]
  total := rfl
  idle := iff_of_true rfl rfl

/-- A step on one batch, with the queue and the workers as they were. -/
theorem accounted_setBatch {s : PoolState n} {b : ℕ} {B : Batch} (h : ∀ b, s.Accounted b)
    (hsame : (s.batches b).SameAccount B) (b' : ℕ) : (s.setBatch b B).Accounted b' := by
  refine (h b').of_batch rfl rfl rfl ?_
  by_cases hb : b' = b
  · subst hb
    simpa [setBatch] using hsame
  · simpa [setBatch, hb] using Batch.SameAccount.refl _

/-- A call that has not begun has nothing anywhere. -/
theorem Accounted.of_idle {s : PoolState n} {b : ℕ} (h : s.Accounted b) (hidle : (s.batches b).caller = .idle) :
    s.queued b = 0 ∧ s.held b = 0 ∧ s.owed b = 0 := by
  have hcard := congrArg Multiset.card h.conserved
  have hcount := h.counted
  simp only [h.idle.mp hidle, Multiset.card_add, Multiset.coe_card, List.length_nil, List.length_map] at hcard
  exact ⟨Multiset.card_eq_zero.mp (by omega), Multiset.card_eq_zero.mp (by omega), by omega⟩

theorem accounted_start {s : PoolState n} {b : ℕ} {tasks : List Task} {confirm : Bool} (h : ∀ b, s.Accounted b)
    (hidle : (s.batches b).caller = .idle) (htasks : tasks ≠ []) (b' : ℕ) :
    (s.setBatch b (.start tasks confirm)).Accounted b' := by
  by_cases hb : b' = b
  · subst hb
    obtain ⟨hqueued, hheld, howed⟩ := (h b').of_idle hidle
    constructor
    · simp [hqueued, hheld, Batch.start]
    · simp [howed, Batch.start, ResultCollector.new]
    · simp [Batch.start, ResultCollector.new]
    · simp [Batch.start, htasks]
  · exact (h b').of_batch rfl rfl rfl (setBatch_ne s _ hb ▸ .refl _)

theorem accounted_enqueued {s : PoolState n} {b : ℕ} {t : Task} {rest : List Task} (h : ∀ b, s.Accounted b)
    (hrest : (s.batches b).rest = t :: rest) (b' : ℕ) :
    ((s.setBatch b { s.batches b with rest := rest }).setQueue (s.queue ++ [⟨b, t⟩])).Accounted b' := by
  obtain ⟨hcons, hcount, htotal, hidle⟩ := h b'
  have hqueued := queued_append (s.setBatch b { s.batches b with rest := rest }) ⟨b, t⟩ b'
  simp only [setBatch_queue, setBatch_queued] at hqueued
  by_cases hb : b' = b
  · subst hb
    constructor <;> simp only [setQueue_batches, setBatch_self, setQueue_held, setBatch_held, setQueue_owed,
      setBatch_owed]
    · rw [hqueued, ← hcons, hrest, ← Multiset.cons_coe, ← Multiset.singleton_add, if_pos rfl]
      abel
    · exact hcount
    · exact htotal
    · exact hidle
  · rw [if_neg fun h => hb h.symm, add_zero] at hqueued
    exact (h b').of_batch hqueued rfl rfl (by rw [setQueue_batches, setBatch_ne s _ hb]; exact .refl _)

theorem accounted_refused {s : PoolState n} {b : ℕ} {t : Task} {rest : List Task} (h : ∀ b, s.Accounted b)
    (hrest : (s.batches b).rest = t :: rest) (b' : ℕ) :
    (s.setBatch b { s.batches b with rest := rest, dropped := (s.batches b).dropped ++ [t] }).Accounted b' := by
  by_cases hb : b' = b
  · subst hb
    obtain ⟨hcons, hcount, htotal, hidle⟩ := h b'
    constructor <;> simp only [setBatch_self, setBatch_queued, setBatch_held, setBatch_owed]
    · rw [← hcons, hrest, ← Multiset.cons_coe, ← Multiset.singleton_add, ← Multiset.coe_add,
        Multiset.coe_singleton]
      abel
    · exact hcount
    · exact htotal
    · exact hidle
  · exact (h b').of_batch rfl rfl rfl (setBatch_ne s _ hb ▸ .refl _)

/-- A worker that goes on without taking a task or handing a result on. -/
theorem accounted_setWorker {s : PoolState n} {w : Fin n} {W : Worker} (h : ∀ b, s.Accounted b)
    (hholds : ∀ b, W.holds b = (s.workers w).holds b) (howes : ∀ b, W.owes b = (s.workers w).owes b) (b' : ℕ) :
    (s.setWorker w W).Accounted b' := by
  have hheld := held_setWorker s w W b'
  have howed := owed_setWorker s w W b'
  rw [hholds b'] at hheld
  rw [howes b'] at howed
  exact (h b').of_batch rfl (add_right_cancel hheld) (add_right_cancel howed) (.refl _)

theorem accounted_tookJob {s : PoolState n} {w : Fin n} {job : Job} {queue : List Job} (h : ∀ b, s.Accounted b)
    (hworker : s.workers w = .ready) (hqueue : s.queue = job :: queue) (b' : ℕ) :
    ((s.setWorker w (.running job)).setQueue queue).Accounted b' := by
  have hqueued := queued_cons hqueue b'
  have hheld := held_setWorker s w (.running job) b'
  have howed := owed_setWorker s w (.running job) b'
  simp only [hworker, Worker.holds, Worker.owes, add_zero] at hheld howed
  obtain ⟨hcons, hcount, htotal, hidle⟩ := h b'
  constructor <;> simp only [setQueue_batches, setWorker_batches, setQueue_held, setQueue_owed]
  · rw [hheld, ← hcons, hqueued, show ((s.setWorker w (.running job)).setQueue queue).queued b' =
      (s.setQueue queue).queued b' from rfl]
    abel
  · rw [howed]
    exact hcount
  · exact htotal
  · exact hidle

theorem accounted_pushed {s : PoolState n} {w : Fin n} {job : Job} {o : Outcome} (h : ∀ b, s.Accounted b)
    (hworker : s.workers w = .pushing job o) (b' : ℕ) :
    ((s.submitResult job o).setWorker w (.flagging job o)).Accounted b' := by
  have hheld := held_setWorker s w (.flagging job o) b'
  have howed := owed_setWorker s w (.flagging job o) b'
  simp only [hworker, Worker.holds, Worker.owes, add_zero] at hheld howed
  by_cases hb : b' = job.batch
  · subst hb
    rw [if_pos rfl] at hheld howed
    obtain ⟨hcons, hcount, htotal, hidle⟩ := h job.batch
    have hpush : ∀ c : ResultCollector, ∀ r, (c.push r).completedCount = c.completedCount ∧
        (c.push r).totalTasks = c.totalTasks := by
      intro c r
      unfold ResultCollector.push
      split_ifs <;> exact ⟨rfl, rfl⟩
    constructor <;> simp only [submitResult, setWorker_batches, setBatch_self, setWorker_queued, setBatch_queued,
      setBatch_setWorker_held, setBatch_setWorker_owed]
    · rw [← hcons, ← hheld, List.map_append, ← Multiset.coe_add, List.map_singleton, Multiset.coe_singleton]
      abel
    · rw [(hpush _ _).1, howed, List.length_append, List.length_singleton]
      omega
    · rw [(hpush _ _).2]
      exact htotal
    · exact hidle
  · rw [if_neg fun h => hb h.symm] at hheld howed
    refine (h b').of_batch rfl (by simpa [submitResult] using hheld) (by simpa [submitResult] using howed) ?_
    rw [setWorker_batches, submitResult, setBatch_ne s _ hb]
    exact .refl _

theorem accounted_flagged {s : PoolState n} {w : Fin n} {job : Job} {o : Outcome} (h : ∀ b, s.Accounted b)
    (hworker : s.workers w = .flagging job o) (b' : ℕ) :
    ((s.submitFlag job o).setWorker w (.counting job o)).Accounted b' := by
  have hflag : ∀ b, (s.submitFlag job o).Accounted b := by
    refine accounted_setBatch h ⟨rfl, rfl, rfl, rfl, ?_, ?_, Iff.rfl⟩ <;>
      · simp only [ResultCollector.flag]
        split_ifs <;> rfl
  refine accounted_setWorker hflag ?_ ?_ b' <;> intro b <;>
    rw [show (s.submitFlag job o).workers w = .flagging job o from hworker] <;> rfl

theorem accounted_counted {s : PoolState n} {w : Fin n} {job : Job} {o : Outcome} (h : ∀ b, s.Accounted b)
    (hworker : s.workers w = .counting job o) (b' : ℕ) : ((s.submitCount job).setWorker w .ready).Accounted b' := by
  have hheld := held_setWorker s w .ready b'
  have howed := owed_setWorker s w .ready b'
  simp only [hworker, Worker.holds, Worker.owes, add_zero] at hheld howed
  by_cases hb : b' = job.batch
  · subst hb
    rw [if_pos rfl] at howed
    obtain ⟨hcons, hcount, htotal, hidle⟩ := h job.batch
    constructor <;> simp only [submitCount, setWorker_batches, setBatch_self, setWorker_queued, setBatch_queued,
      setBatch_setWorker_held, setBatch_setWorker_owed]
    · rw [hheld]
      exact hcons
    · simp only [ResultCollector.count]
      omega
    · exact htotal
    · exact hidle
  · rw [if_neg fun h => hb h.symm] at howed
    refine (h b').of_batch rfl hheld (by simpa [submitCount] using howed) ?_
    rw [setWorker_batches, submitCount, setBatch_ne s _ hb]
    exact .refl _

/-- Every operation keeps the account of every call. -/
theorem accounted_moves {s s' : PoolState n} {a : Action n} (h : ∀ b, s.Accounted b) (hm : Moves s a s') (b' : ℕ) :
    s'.Accounted b' := by
  cases hm with
  | start hidle htasks => exact accounted_start h hidle htasks b'
  | tipFailed hcaller hrest htip => exact accounted_setBatch h (Batch.sameAccount_goto (by simp [hcaller]) (by simp)) b'
  | enqueued hcaller hrest htip hroom => exact accounted_enqueued h hrest b'
  | refused hcaller hrest htip hfull => exact accounted_refused h hrest b'
  | @notified b hcaller hrest =>
    have hgoto := accounted_setBatch h (Batch.sameAccount_goto (B := s.batches b)
      (c := if (s.batches b).confirm then .loadSuccess else .loadCompleted) (by simp [hcaller])
      (by split_ifs <;> simp)) b'
    exact hgoto.of_batch rfl (wakeAll_held _ b') (wakeAll_owed _ b') (.refl _)
  | polled hpoll => exact accounted_setBatch h (Batch.sameAccount_poll hpoll) b'
  | clocked hclock => exact accounted_setBatch h (Batch.sameAccount_clock hclock) b'
  | tookJob hworker hqueue => exact accounted_tookJob h hworker hqueue b'
  | foundEmpty hworker hqueue =>
    exact accounted_setWorker h (fun b => by rw [hworker]; rfl) (fun b => by rw [hworker]; rfl) b'
  | waits hworker => exact accounted_setWorker h (fun b => by rw [hworker]; rfl) (fun b => by rw [hworker]; rfl) b'
  | answered hworker => exact accounted_setWorker h (fun b => by rw [hworker]; rfl) (fun b => by rw [hworker]; rfl) b'
  | pushed hworker => exact accounted_pushed h hworker b'
  | flagged hworker => exact accounted_flagged h hworker b'
  | counted hworker => exact accounted_counted h hworker b'

end PoolState

/-! ### What the caller has taken out -/

namespace Batch

variable {B B' : Batch}

/-- How a call that only waits for the submissions returns: with the report of what it has taken out, which is
everything unless its time was up. -/
def SubmitReport (B : Batch) (r : Option Report) : Prop :=
  r = Report.first B.taken ∧ (B.timedOut = true ∨ B.taken.length = B.tasks.length)

/-- How a call that waits for a success returns: its time was up and it has taken nothing out; or one of what it
has taken out is a success; or one of them is on the chain and failed; or it has taken everything out. -/
inductive ConfirmReport (B : Batch) : Option Report → Prop where
  | late (htime : B.timedOut = true) (htaken : B.taken = []) : ConfirmReport B none
  | success (h : Report.anySuccess B.taken = true) : ConfirmReport B (some (.ofResults B.taken true none))
  | landed (h : ∃ r ∈ B.taken, r.landedFailed = true) :
    ConfirmReport B (some (.ofResults B.taken false (Report.landedError B.taken)))
  | all (htaken : B.taken.length = B.tasks.length) (hne : B.taken ≠ []) :
    ConfirmReport B (some (.ofResults B.taken (Report.anySuccess B.taken) (Report.lastError B.taken)))

/-- What a caller knows at each place of its program. -/
def Place (B : Batch) : Prop :=
  match B.caller with
  | .idle | .enqueuing | .failed _ => B.taken = []
  | .loadCompleted | .checkElapsed => B.confirm = false ∧ B.taken = []
  | .getFirst popped => B.confirm = false ∧ B.taken = popped ∧
      (B.timedOut = true ∨ B.collector.totalTasks ≤ B.collector.completedCount)
  | .loadSuccess | .loadLanded | .loadCount | .checkTimeout => B.confirm = true ∧ B.taken = []
  | .drainSuccess popped => B.confirm = true ∧ B.taken = popped ∧ B.collector.successFlag = true
  | .drainLanded popped => B.confirm = true ∧ B.taken = popped ∧ B.collector.landedFailedFlag = true
  | .drainCount popped => B.confirm = true ∧ B.taken = popped ∧
      B.collector.totalTasks ≤ B.collector.completedCount
  | .returned r => if B.confirm then B.ConfirmReport r else B.SubmitReport r

/-- What the caller has taken out is the beginning of the results, the flags are raised for a reason, and the
caller is where it may be. -/
structure Sound (B : Batch) : Prop where
  kept : B.taken ++ B.collector.results = B.results
  success : B.collector.successFlag = true → Report.anySuccess B.results = true
  landed : B.collector.landedFailedFlag = true → ∃ r ∈ B.results, r.landedFailed = true
  place : B.Place

theorem sound_idle : idle.Sound := ⟨rfl, by simp [idle, ResultCollector.new], by simp [idle, ResultCollector.new], rfl⟩

theorem sound_start (tasks : List Task) (confirm : Bool) : (start tasks confirm).Sound :=
  ⟨rfl, by simp [start, ResultCollector.new], by simp [start, ResultCollector.new], rfl⟩

/-- Going to a place where one may be. -/
theorem Sound.goto (h : B.Sound) {c : Caller} (hplace : (B.goto c).Place) : (B.goto c).Sound :=
  ⟨h.kept, h.success, h.landed, hplace⟩

/-- One round of a loop that takes the results out. -/
theorem Sound.drain (h : B.Sound) {popped : List TaskResult} {again : List TaskResult → Caller} {after : Caller}
    (hagain : ∀ r rs, B.collector.results = r :: rs → Place { B with
      collector := { B.collector with results := rs }, taken := B.taken ++ [r], caller := again (popped ++ [r]) })
    (hafter : B.collector.results = [] → (B.goto after).Place) : (B.drain popped again after).Sound := by
  unfold Batch.drain
  split
  next r rs hresults =>
    refine ⟨?_, h.success, h.landed, hagain r rs hresults⟩
    have hkept := h.kept
    rw [hresults] at hkept
    simpa [Batch.results] using hkept
  next hresults => exact h.goto (hafter hresults)

/-- Once the queue of results is empty, everything is taken out. -/
theorem Sound.taken_eq (h : B.Sound) (hempty : B.collector.results = []) : B.taken = B.results := by
  have hkept := h.kept
  rwa [hempty, List.append_nil] at hkept

/-- The operations of a waiting caller, when the counter is as it should be. -/
theorem Sound.poll (h : B.Sound) (htasks : B.caller = .idle ↔ B.tasks = [])
    (hall : B.collector.totalTasks ≤ B.collector.completedCount → B.results.length = B.tasks.length)
    (hpoll : B.poll = some B') : B'.Sound := by
  have hplace := h.place
  unfold Batch.poll at hpoll
  split at hpoll
  next hc =>
    cases hpoll
    simp only [Place, hc] at hplace
    refine h.goto ?_
    split_ifs with hcount
    · exact hplace
    · exact ⟨hplace.1, hplace.2, .inr (not_lt.mp hcount)⟩
  next popped hc =>
    cases hpoll
    simp only [Place, hc] at hplace
    obtain ⟨hconfirm, rfl, htime⟩ := hplace
    refine h.drain (fun r rs _ => ⟨hconfirm, rfl, htime⟩) fun hempty => ?_
    have htaken := h.taken_eq hempty
    simp only [Place, Batch.goto, hconfirm]
    exact ⟨rfl, htime.imp id fun hcount => htaken ▸ hall hcount⟩
  next hc =>
    cases hpoll
    simp only [Place, hc] at hplace
    refine h.goto ?_
    split_ifs with hflag
    · exact ⟨hplace.1, hplace.2, hflag⟩
    · exact hplace
  next popped hc =>
    cases hpoll
    simp only [Place, hc] at hplace
    obtain ⟨hconfirm, rfl, hflag⟩ := hplace
    refine h.drain (fun r rs _ => ⟨hconfirm, rfl, hflag⟩) fun hempty => ?_
    -- The flag was raised for a result that nobody has taken out before: it is among these.
    have hany : Report.anySuccess B.taken = true := h.taken_eq hempty ▸ h.success hflag
    have hne : B.taken.isEmpty = false := by
      rcases htaken : B.taken with _ | ⟨r, rs⟩
      · rw [htaken] at hany
        cases hany
      · rfl
    rw [hany, hne]
    simp only [Place, Batch.goto, hconfirm]
    exact .success hany
  next hc =>
    cases hpoll
    simp only [Place, hc] at hplace
    refine h.goto ?_
    split_ifs with hflag
    · exact ⟨hplace.1, hplace.2, hflag⟩
    · exact hplace
  next popped hc =>
    cases hpoll
    simp only [Place, hc] at hplace
    obtain ⟨hconfirm, rfl, hflag⟩ := hplace
    refine h.drain (fun r rs _ => ⟨hconfirm, rfl, hflag⟩) fun hempty => ?_
    obtain ⟨r, hr, hlanded⟩ := h.landed hflag
    rw [← h.taken_eq hempty] at hr
    rw [List.isEmpty_eq_false_iff_exists_mem.mpr ⟨r, hr⟩]
    simp only [Place, Batch.goto, hconfirm]
    exact .landed ⟨r, hr, hlanded⟩
  next hc =>
    cases hpoll
    simp only [Place, hc] at hplace
    refine h.goto ?_
    split_ifs with hcount
    · exact ⟨hplace.1, hplace.2, hcount⟩
    · exact hplace
  next popped hc =>
    cases hpoll
    simp only [Place, hc] at hplace
    obtain ⟨hconfirm, rfl, hcount⟩ := hplace
    refine h.drain (fun r rs _ => ⟨hconfirm, rfl, hcount⟩) fun hempty => ?_
    have hlen : B.taken.length = B.tasks.length := h.taken_eq hempty ▸ hall hcount
    have hne : B.taken ≠ [] := by
      intro hnil
      rw [hnil] at hlen
      have hidle := htasks.mpr (List.length_eq_zero_iff.mp hlen.symm)
      rw [hc] at hidle
      cases hidle
    simp only [Place, Batch.goto, hconfirm, Report.first, List.isEmpty_iff, hne, if_false]
    exact .all hlen hne
  next => cases hpoll

/-- The call has returned. -/
def Returned (B : Batch) : Prop := ∃ r, B.caller = .returned r

/-- The caller is where it was in the same call, and has not looked at the clock. -/
structure SameCall (B B' : Batch) : Prop where
  caller : B'.caller = B.caller
  tasks : B'.tasks = B.tasks
  confirm : B'.confirm = B.confirm
  timedOut : B'.timedOut = B.timedOut

theorem SameCall.refl (B : Batch) : B.SameCall B := ⟨rfl, rfl, rfl, rfl⟩

theorem SameCall.symm (h : B.SameCall B') : B'.SameCall B :=
  ⟨h.caller.symm, h.tasks.symm, h.confirm.symm, h.timedOut.symm⟩

theorem SameCall.trans {B'' : Batch} (h : B.SameCall B') (h' : B'.SameCall B'') : B.SameCall B'' :=
  ⟨h'.caller.trans h.caller, h'.tasks.trans h.tasks, h'.confirm.trans h.confirm, h'.timedOut.trans h.timedOut⟩

theorem SameCall.returned (h : B.SameCall B') (hreturned : B.Returned) : B'.Returned :=
  hreturned.imp fun _ hr => h.caller.trans hr

theorem poll_of_returned (h : B.Returned) : B.poll = none := by
  obtain ⟨r, hr⟩ := h
  simp [poll, hr]

theorem clock_of_returned (h : B.Returned) {late : Bool} : B.clock late = none := by
  obtain ⟨r, hr⟩ := h
  simp [clock, hr]

/-- The caller of a call that only waits for the submissions has found nothing left to take out, and is about to return
with a report. -/
structure Submits (B : Batch) (r : Option Report) : Prop where
  place : B.caller = .getFirst B.taken
  taken_eq : B.taken = B.results
  report_eq : r = Report.first B.results
  time : B.timedOut = true ∨ B.collector.totalTasks ≤ B.collector.completedCount

theorem Submits.not_returned {r : Option Report} (h : B.Submits r) : ¬ B.Returned := by
  rintro ⟨r', hr⟩
  rw [h.place] at hr
  cases hr

theorem drain_keeps {popped : List TaskResult} {again : List TaskResult → Caller} {after : Caller} :
    (B.drain popped again after).confirm = B.confirm ∧ (B.drain popped again after).timedOut = B.timedOut := by
  unfold drain
  split <;> exact ⟨rfl, rfl⟩

/-- Only the clock tells a caller that its time is up. -/
theorem poll_keeps (h : B.poll = some B') : B'.confirm = B.confirm ∧ B'.timedOut = B.timedOut := by
  unfold poll at h
  split at h <;> cases h <;> first | exact ⟨rfl, rfl⟩ | exact drain_keeps

/-- The operation by which such a call returns. -/
theorem Sound.submits (h : B.Sound) (hpoll : B.poll = some B') {r : Option Report} (hreturned : B'.caller = .returned r)
    (hconfirm : B'.confirm = false) : B.Submits r := by
  rw [(poll_keeps hpoll).1] at hconfirm
  have hplace := h.place
  unfold Batch.poll at hpoll
  split at hpoll
  next hc =>
    cases hpoll
    simp only [Batch.goto] at hreturned
    split_ifs at hreturned
  next popped hc =>
    simp only [Place, hc] at hplace
    obtain ⟨-, rfl, htime⟩ := hplace
    cases hpoll
    rcases hresults : B.collector.results with _ | ⟨x, xs⟩
    · simp only [Batch.drain, hresults, Batch.goto, Caller.returned.injEq] at hreturned
      have htaken := h.taken_eq hresults
      exact ⟨hc, htaken, by rw [← hreturned, htaken], htime⟩
    · simp only [Batch.drain, hresults] at hreturned
      cases hreturned
  -- The other loops are those of a call that waits for a success.
  next hc => simp [Place, hc, hconfirm] at hplace
  next hc => simp [Place, hc, hconfirm] at hplace
  next hc => simp [Place, hc, hconfirm] at hplace
  next hc => simp [Place, hc, hconfirm] at hplace
  next hc => simp [Place, hc, hconfirm] at hplace
  next hc => simp [Place, hc, hconfirm] at hplace
  next => cases hpoll

/-- Only a call that waits for a success is ended by the clock. -/
theorem Sound.confirm_of_clock (h : B.Sound) {late : Bool} (hclock : B.clock late = some B') (hreturned : B'.Returned) :
    B'.confirm = true := by
  have hplace := h.place
  obtain ⟨r, hr⟩ := hreturned
  unfold Batch.clock at hclock
  split at hclock <;> cases hclock
  next hc =>
    split_ifs at hr
    cases hr
  next hc =>
    simp only [Place, hc] at hplace
    split_ifs <;> exact hplace.1

/-- A caller that looks at the clock. -/
theorem Sound.clock (h : B.Sound) {late : Bool} (hclock : B.clock late = some B') : B'.Sound := by
  have hplace := h.place
  unfold Batch.clock at hclock
  split at hclock
  next hc =>
    cases hclock
    simp only [Place, hc] at hplace
    split_ifs with hlate
    · exact ⟨h.kept, h.success, h.landed, hplace.1, hplace.2, .inl rfl⟩
    · exact h.goto hplace
  next hc =>
    cases hclock
    simp only [Place, hc] at hplace
    split_ifs with hlate
    · refine ⟨h.kept, h.success, h.landed, ?_⟩
      simp only [Place, hplace.1]
      exact .late rfl hplace.2
    · exact h.goto hplace
  next => cases hclock

/-- What a caller knows stays true when the workers go on. -/
theorem Place.mono (h : B.Place) (hcaller : B'.caller = B.caller) (hconfirm : B'.confirm = B.confirm)
    (htaken : B'.taken = B.taken) (htasks : B'.tasks = B.tasks) (htime : B'.timedOut = B.timedOut)
    (htotal : B'.collector.totalTasks = B.collector.totalTasks)
    (hcount : B.collector.completedCount ≤ B'.collector.completedCount)
    (hsuccess : B.collector.successFlag = true → B'.collector.successFlag = true)
    (hlanded : B.collector.landedFailedFlag = true → B'.collector.landedFailedFlag = true) : B'.Place := by
  unfold Place at h ⊢
  rw [hcaller]
  split at h <;> simp only [hconfirm, htaken, htime, htotal]
  next => exact h
  next => exact h
  next => exact h
  next => exact h
  next => exact h
  next => exact ⟨h.1, h.2.1, h.2.2.imp id fun hc => hc.trans hcount⟩
  next => exact h
  next => exact h
  next => exact h
  next => exact h
  next => exact ⟨h.1, h.2.1, hsuccess h.2.2⟩
  next => exact ⟨h.1, h.2.1, hlanded h.2.2⟩
  next => exact ⟨h.1, h.2.1, h.2.2.trans hcount⟩
  next r _ =>
    split_ifs at h ⊢
    · cases h with
      | late h₁ h₂ => exact .late (htime.trans h₁) (htaken.trans h₂)
      | success hany => exact htaken ▸ .success (htaken.symm ▸ hany)
      | landed hany => exact htaken ▸ .landed (htaken.symm ▸ hany)
      | all hlen hne => exact htaken ▸ .all (by rw [htaken, htasks, hlen]) (htaken.symm ▸ hne)
    · exact ⟨htaken.symm ▸ h.1, h.2.imp htime.trans fun hlen => by rw [htaken, htasks, hlen]⟩

/-- A worker hands a result on; there is room for it. -/
theorem Sound.push (h : B.Sound) {t : Task} {o : Outcome} (hroom : B.collector.results.length < B.collector.totalTasks) :
    Sound { B with collector := B.collector.push (runOneSwqosJob t o), finished := B.finished ++ [(t, o)] } := by
  have hresults : Batch.results { B with collector := B.collector.push (runOneSwqosJob t o),
                                         finished := B.finished ++ [(t, o)] } = B.results ++ [runOneSwqosJob t o] := by
    simp [Batch.results]
  have hpush : B.collector.push (runOneSwqosJob t o) =
      { B.collector with results := B.collector.results ++ [runOneSwqosJob t o] } := by
    simp only [ResultCollector.push, hroom, if_true]
  refine ⟨?_, ?_, ?_, ?_⟩
  · rw [hresults, hpush, ← h.kept, List.append_assoc]
  · rw [hresults, hpush]
    intro hflag
    have := h.success hflag
    simp only [Report.anySuccess, List.any_append, Bool.or_eq_true] at this ⊢
    exact .inl this
  · rw [hresults, hpush]
    intro hflag
    obtain ⟨r, hr, hl⟩ := h.landed hflag
    exact ⟨r, List.mem_append_left _ hr, hl⟩
  · rw [hpush]
    exact h.place.mono rfl rfl rfl rfl rfl rfl le_rfl id id

/-- A worker raises the flag of a result it has handed on. -/
theorem Sound.flag (h : B.Sound) {t : Task} {o : Outcome} (hmem : (t, o) ∈ B.finished) :
    Sound { B with collector := B.collector.flag (runOneSwqosJob t o) } := by
  have hr : runOneSwqosJob t o ∈ B.results := List.mem_map_of_mem (f := fun f => runOneSwqosJob f.1 f.2) hmem
  unfold ResultCollector.flag
  split_ifs with hsuccess hlanded
  · refine ⟨h.kept, fun _ => List.any_eq_true.mpr ⟨_, hr, hsuccess⟩, h.landed, ?_⟩
    exact h.place.mono rfl rfl rfl rfl rfl rfl le_rfl (fun _ => rfl) id
  · refine ⟨h.kept, h.success, fun _ => ⟨_, hr, hlanded⟩, ?_⟩
    exact h.place.mono rfl rfl rfl rfl rfl rfl le_rfl id fun _ => rfl
  · exact h

/-- A worker counts its result. -/
theorem Sound.count (h : B.Sound) : Sound { B with collector := B.collector.count } :=
  ⟨h.kept, h.success, h.landed, h.place.mono rfl rfl rfl rfl rfl rfl (Nat.le_succ _) id id⟩

end Batch

namespace PoolState

/-- What holds of the pool at any time. -/
structure Inv (s : PoolState n) : Prop where
  accounted : ∀ b, s.Accounted b
  sound : ∀ b, (s.batches b).Sound
  /-- A worker that is about to raise a flag has handed its result on. -/
  handed : ∀ w job o, s.workers w = .flagging job o → (job.task, o) ∈ (s.batches job.batch).finished

theorem inv_init : (init : PoolState n).Inv where
  accounted := accounted_init
  sound _ := Batch.sound_idle
  handed w job o h := by cases h

theorem Accounted.results_length {s : PoolState n} {b : ℕ} (h : s.Accounted b)
    (hall : (s.batches b).collector.totalTasks ≤ (s.batches b).collector.completedCount) :
    (s.batches b).results.length = (s.batches b).tasks.length := by
  simpa [Batch.results] using (h.finished_perm hall).length_eq

/-- As long as a worker holds a task there is room for its result. -/
theorem Inv.room {s : PoolState n} (h : s.Inv) {w : Fin n} {job : Job} {o : Outcome}
    (hworker : s.workers w = .pushing job o) :
    (s.batches job.batch).collector.results.length < (s.batches job.batch).collector.totalTasks := by
  have hacc := h.accounted job.batch
  have hheld := congrArg Multiset.card (held_setWorker s w .ready job.batch)
  have hcard := congrArg Multiset.card hacc.conserved
  have hkept := congrArg List.length (h.sound job.batch).kept
  simp only [hworker, Worker.holds, if_true, Multiset.card_add, Multiset.card_singleton,
    add_zero] at hheld
  simp only [Multiset.card_add, Multiset.coe_card, List.length_map] at hcard
  simp only [List.length_append, Batch.results, List.length_map] at hkept
  rw [hacc.total]
  omega

/-- A step on one batch. -/
theorem sound_setBatch {s : PoolState n} {b : ℕ} {B : Batch} (h : ∀ b, (s.batches b).Sound) (hB : B.Sound) (b' : ℕ) :
    ((s.setBatch b B).batches b').Sound := by
  by_cases hb : b' = b
  · subst hb
    rwa [setBatch_self]
  · rw [setBatch_ne s B hb]
    exact h b'

theorem sound_moves {s s' : PoolState n} {a : Action n} (h : s.Inv) (hm : Moves s a s') (b' : ℕ) :
    (s'.batches b').Sound := by
  cases hm with
  | start hidle htasks => exact sound_setBatch h.sound (Batch.sound_start _ _) b'
  | @tipFailed b t rest e hcaller hrest htip =>
    have hplace := (h.sound b).place
    simp only [Batch.Place, hcaller] at hplace
    exact sound_setBatch h.sound ((h.sound b).goto (c := .failed e) hplace) b'
  | @enqueued b t rest account hcaller hrest htip hroom =>
    refine sound_setBatch h.sound ?_ b'
    exact ⟨(h.sound b).kept, (h.sound b).success, (h.sound b).landed,
      (h.sound b).place.mono rfl rfl rfl rfl rfl rfl le_rfl id id⟩
  | @refused b t rest account hcaller hrest htip hfull =>
    refine sound_setBatch h.sound ?_ b'
    exact ⟨(h.sound b).kept, (h.sound b).success, (h.sound b).landed,
      (h.sound b).place.mono rfl rfl rfl rfl rfl rfl le_rfl id id⟩
  | @notified b hcaller hrest =>
    have hplace := (h.sound b).place
    simp only [Batch.Place, hcaller] at hplace
    refine sound_setBatch h.sound ((h.sound b).goto ?_) b'
    split_ifs with hconfirm
    · exact ⟨hconfirm, hplace⟩
    · exact ⟨Bool.not_eq_true _ |>.mp hconfirm, hplace⟩
  | @polled b B hpoll =>
    exact sound_setBatch h.sound ((h.sound b).poll (h.accounted b).idle (h.accounted b).results_length hpoll) b'
  | @clocked b late B hclock => exact sound_setBatch h.sound ((h.sound b).clock hclock) b'
  | tookJob hworker hqueue => exact h.sound b'
  | foundEmpty hworker hqueue => exact h.sound b'
  | waits hworker => exact h.sound b'
  | answered hworker => exact h.sound b'
  | @pushed w job o hworker => exact sound_setBatch h.sound ((h.sound job.batch).push (h.room hworker)) b'
  | @flagged w job o hworker =>
    exact sound_setBatch h.sound ((h.sound job.batch).flag (h.handed w job o hworker)) b'
  | @counted w job o hworker => exact sound_setBatch h.sound (h.sound job.batch).count b'

/-- What is finished stays finished. -/
theorem finished_moves {s s' : PoolState n} {a : Action n} (h : s.Inv) (hm : Moves s a s') (b : ℕ) :
    (s.batches b).finished <+: (s'.batches b).finished := by
  have hset : ∀ b' B, (s.batches b').finished <+: B.finished →
      (s.batches b).finished <+: ((s.setBatch b' B).batches b).finished := by
    intro b' B hB
    by_cases hb : b = b'
    · subst hb
      rwa [setBatch_self]
    · rw [setBatch_ne s B hb]
  cases hm with
  | @start b' tasks confirm hidle htasks =>
    have hnil : (s.batches b').finished = [] := by
      have hlen := (h.accounted b').finished_le
      rw [(h.accounted b').idle.mp hidle] at hlen
      exact List.length_eq_zero_iff.mp (by simpa using hlen)
    exact hset b' _ (hnil ▸ List.nil_prefix)
  | tipFailed hcaller hrest htip => exact hset _ _ (List.prefix_refl _)
  | enqueued hcaller hrest htip hroom => exact hset _ _ (List.prefix_refl _)
  | refused hcaller hrest htip hfull => exact hset _ _ (List.prefix_refl _)
  | notified hcaller hrest => exact hset _ _ (List.prefix_refl _)
  | polled hpoll => exact hset _ _ ((Batch.sameAccount_poll hpoll).finished ▸ List.prefix_refl _)
  | clocked hclock => exact hset _ _ ((Batch.sameAccount_clock hclock).finished ▸ List.prefix_refl _)
  | tookJob hworker hqueue => exact List.prefix_refl _
  | foundEmpty hworker hqueue => exact List.prefix_refl _
  | waits hworker => exact List.prefix_refl _
  | answered hworker => exact List.prefix_refl _
  | pushed hworker => exact hset _ _ (List.prefix_append _ _)
  | flagged hworker => exact hset _ _ (List.prefix_refl _)
  | counted hworker => exact hset _ _ (List.prefix_refl _)

/-- A worker that is about to raise a flag was there before, or has just handed its result on. -/
theorem flagging_moves {s s' : PoolState n} {a : Action n} (hm : Moves s a s') {w : Fin n} {job : Job} {o : Outcome}
    (hworker : s'.workers w = .flagging job o) :
    s.workers w = .flagging job o ∨ (job.task, o) ∈ (s'.batches job.batch).finished := by
  have hset : ∀ w' W, (∀ job o, W ≠ .flagging job o) → Function.update s.workers w' W w = .flagging job o →
      s.workers w = .flagging job o := by
    intro w' W hW h
    by_cases hw : w = w'
    · subst hw
      rw [Function.update_self] at h
      exact absurd h (hW job o)
    · rwa [Function.update_of_ne hw] at h
  cases hm with
  | start hidle htasks => exact .inl hworker
  | tipFailed hcaller hrest htip => exact .inl hworker
  | enqueued hcaller hrest htip hroom => exact .inl hworker
  | refused hcaller hrest htip hfull => exact .inl hworker
  | notified hcaller hrest =>
    refine .inl ?_
    simp only [notifyWaiters, wakeAll, setBatch_workers] at hworker
    revert hworker
    rcases s.workers w with _ | _ | _ | _ | _ | _ | _ <;> simp [Worker.wake]
  | polled hpoll => exact .inl hworker
  | clocked hclock => exact .inl hworker
  | tookJob hold hqueue => exact .inl (hset _ _ (by simp) hworker)
  | foundEmpty hold hqueue => exact .inl (hset _ _ (by simp) hworker)
  | waits hold => exact .inl (hset _ _ (by simp) hworker)
  | answered hold => exact .inl (hset _ _ (by simp) hworker)
  | @pushed w' job' o' hold =>
    by_cases hw : w = w'
    · subst hw
      simp only [setWorker, Function.update_self, Worker.flagging.injEq] at hworker
      obtain ⟨rfl, rfl⟩ := hworker
      exact .inr (by simp [submitResult])
    · simp only [setWorker, Function.update_of_ne hw] at hworker
      exact .inl hworker
  | flagged hold => exact .inl (hset _ _ (by simp) hworker)
  | counted hold => exact .inl (hset _ _ (by simp) hworker)

theorem inv_moves {s s' : PoolState n} {a : Action n} (h : s.Inv) (hm : Moves s a s') : s'.Inv where
  accounted := accounted_moves h.accounted hm
  sound := sound_moves h hm
  handed w job o hworker := by
    rcases flagging_moves hm hworker with hold | hnew
    · exact (finished_moves h hm job.batch).subset (h.handed w job o hold)
    · exact hnew

/-- The invariant holds in every state of every run. -/
theorem inv_run {s : PoolState n} {as : List (Action n)} (hrun : Machine.run step init as = some s) : s.Inv :=
  Machine.invariant (fun _ _ _ h hs => inv_moves h (step_moves hs)) inv_init hrun

/-! ### The reports -/

/-- **Every task of every call is in exactly one place, in every run:** not yet in the queue, refused by the full
queue, in the queue, with a worker, or finished. The counter never passes the total, and when it has reached it all
tasks are finished: a call with a refused task can only leave by its clock. -/
theorem tasks_in_one_place {s : PoolState n} {as : List (Action n)} (hrun : Machine.run step init as = some s) (b : ℕ) :
    ((s.batches b).rest : Multiset Task) + (s.batches b).dropped + s.queued b + s.held b
        + ((s.batches b).finished.map Prod.fst : List Task) = ((s.batches b).tasks : Multiset Task) ∧
      (s.batches b).collector.completedCount ≤ (s.batches b).collector.totalTasks ∧
      ((s.batches b).collector.completedCount = (s.batches b).collector.totalTasks →
        ((s.batches b).finished.map Prod.fst).Perm (s.batches b).tasks ∧ (s.batches b).dropped = [] ∧
          s.queued b = 0 ∧ s.held b = 0) := by
  have hacc := (inv_run hrun).accounted b
  refine ⟨hacc.conserved, hacc.completed_le, fun hall => ?_⟩
  have hperm := hacc.finished_perm hall.ge
  have hcard := congrArg Multiset.card hacc.conserved
  have hlen := hperm.length_eq
  simp only [Multiset.card_add, Multiset.coe_card] at hcard
  exact ⟨hperm, List.length_eq_zero_iff.mp (by omega), Multiset.card_eq_zero.mp (by omega),
    Multiset.card_eq_zero.mp (by omega)⟩

/-- A task of the plain RPC. -/
def rpcTask : Task where
  index := 0
  client := { swqosType := .default, minTipSol := SwqosType.minTipSol .default, tipAccount := .ok "" }
  config := (.default, .normal, ⟨200000, 0, 0⟩)

/-- The worker of a pool that has only one. -/
def sender : Fin 1 := 0

/-- Two tasks and one worker: the first transaction is accepted, the second cannot be built. -/
def oneWorkerRun : List (Action 1) :=
  [.start 0 [rpcTask, rpcTask] false, .caller 0, .caller 0, .caller 0,
   .worker sender, .answer sender (.sent ["a"] (.ok ()) 1), .worker sender, .worker sender, .worker sender,
   .worker sender, .answer sender (.notBuilt (.other (anyhow "no blockhash")) 2), .worker sender, .worker sender, .worker sender,
   .caller 0, .caller 0, .caller 0, .caller 0]

theorem tasks_in_one_place_oneWorkerRun : ∃ s, Machine.run step init oneWorkerRun = some s ∧
    ((s.batches 0).finished.map Prod.fst).Perm [rpcTask, rpcTask] :=
  ⟨_, rfl, ((tasks_in_one_place (show Machine.run step init oneWorkerRun = some _ from rfl) 0).2.2 rfl).1⟩

theorem success_iff_sent (t : Task) (o : Outcome) :
    (runOneSwqosJob t o).success = true ↔ ∃ signatures doneUs, o = .sent signatures (.ok ()) doneUs := by
  rcases o with ⟨e, us⟩ | ⟨sigs, _ | _, us⟩ <;> simp [runOneSwqosJob]

theorem anySuccess_iff_sent (fs : List (Task × Outcome)) :
    Report.anySuccess (fs.map fun f => runOneSwqosJob f.1 f.2) = true ↔
      ∃ f ∈ fs, ∃ signatures doneUs, f.2 = .sent signatures (.ok ()) doneUs := by
  simp [Report.anySuccess, success_iff_sent]

/-- Everything a step can do to where a caller is: leave it, move a caller that has not returned to a place where
it has not, or be an operation of the waiting caller. -/
theorem caller_moves {s s' : PoolState n} {a : Action n} (hm : Moves s a s') (b : ℕ) :
    (s.batches b).SameCall (s'.batches b) ∨
      (¬ (s.batches b).Returned ∧ ¬ (s'.batches b).Returned) ∨
      (a = .caller b ∧ (s.batches b).poll = some (s'.batches b)) ∨
      ∃ late, (s.batches b).clock late = some (s'.batches b) := by
  have hset : ∀ b' B, (b = b' → (s.batches b').SameCall B) → (s.batches b).SameCall ((s.setBatch b' B).batches b) := by
    intro b' B hB
    by_cases hb : b = b'
    · subst hb
      rw [setBatch_self]
      exact hB rfl
    · rw [setBatch_ne s B hb]
      exact .refl _
  cases hm with
  | @start b' tasks confirm hidle htasks =>
    by_cases hb : b = b'
    · subst hb
      exact .inr (.inl ⟨by simp [Batch.Returned, hidle], by simp [Batch.Returned, Batch.start]⟩)
    · exact .inl (hset b' _ fun h => absurd h hb)
  | @tipFailed b' t rest e hcaller hrest htip =>
    by_cases hb : b = b'
    · subst hb
      exact .inr (.inl ⟨by simp [Batch.Returned, hcaller], by simp [Batch.Returned, Batch.goto]⟩)
    · exact .inl (hset b' _ fun h => absurd h hb)
  | @notified b' hcaller hrest =>
    by_cases hb : b = b'
    · subst hb
      refine .inr (.inl ⟨by simp [Batch.Returned, hcaller], ?_⟩)
      simp only [notifyWaiters, wakeAll_batches, setBatch_self, Batch.Returned, Batch.goto]
      split_ifs <;> simp
    · exact .inl (hset b' _ fun h => absurd h hb)
  | @polled b' B hpoll =>
    by_cases hb : b = b'
    · subst hb
      exact .inr (.inr (.inl ⟨rfl, by rw [setBatch_self]; exact hpoll⟩))
    · exact .inl (hset b' _ fun h => absurd h hb)
  | @clocked b' late B hclock =>
    by_cases hb : b = b'
    · subst hb
      exact .inr (.inr (.inr ⟨late, by rw [setBatch_self]; exact hclock⟩))
    · exact .inl (hset b' _ fun h => absurd h hb)
  | enqueued hcaller hrest htip hroom => exact .inl (hset _ _ fun _ => ⟨rfl, rfl, rfl, rfl⟩)
  | refused hcaller hrest htip hfull => exact .inl (hset _ _ fun _ => ⟨rfl, rfl, rfl, rfl⟩)
  | tookJob hworker hqueue => exact .inl (.refl _)
  | foundEmpty hworker hqueue => exact .inl (.refl _)
  | waits hworker => exact .inl (.refl _)
  | answered hworker => exact .inl (.refl _)
  | pushed hworker => exact .inl (hset _ _ fun _ => ⟨rfl, rfl, rfl, rfl⟩)
  | flagged hworker => exact .inl (hset _ _ fun _ => ⟨rfl, rfl, rfl, rfl⟩)
  | counted hworker => exact .inl (hset _ _ fun _ => ⟨rfl, rfl, rfl, rfl⟩)

/-- A call that has returned is over. -/
theorem returned_run {s s' : PoolState n} {as : List (Action n)} (h : s.Inv) (hrun : Machine.run step s as = some s')
    {b : ℕ} (hreturned : (s.batches b).Returned) :
    (s.batches b).SameCall (s'.batches b) ∧ (s.batches b).finished <+: (s'.batches b).finished := by
  have hkeep : s'.Inv ∧ (s.batches b).SameCall (s'.batches b) ∧ (s.batches b).finished <+: (s'.batches b).finished := by
    refine Machine.invariant (I := fun t => t.Inv ∧ (s.batches b).SameCall (t.batches b) ∧
      (s.batches b).finished <+: (t.batches b).finished) ?_ ⟨h, .refl _, List.prefix_refl _⟩ hrun
    rintro t a t' ⟨hinv, hsame, hpre⟩ hstep
    have hm := step_moves hstep
    refine ⟨inv_moves hinv hm, ?_, hpre.trans (finished_moves hinv hm b)⟩
    have hback := hsame.returned hreturned
    rcases caller_moves hm b with hstay | ⟨hnot, -⟩ | ⟨-, hpoll⟩ | ⟨late, hclock⟩
    · exact hsame.trans hstay
    · exact absurd hback hnot
    · rw [Batch.poll_of_returned hback] at hpoll
      cases hpoll
    · rw [Batch.clock_of_returned hback] at hclock
      cases hclock
  exact hkeep.2

/-- **How a call that waits for the submissions returns**: by one step of its caller, which finds nothing left to take
out; its report is that of all results that have been handed on by then. -/
theorem submitted_step {s s' : PoolState n} {as : List (Action n)} (h : s.Inv) (hrun : Machine.run step s as = some s')
    {b : ℕ} {r : Option Report} (hbefore : ¬ (s.batches b).Returned) (hreturned : (s'.batches b).caller = .returned r)
    (hconfirm : (s'.batches b).confirm = false) :
    ∃ before after t t', as = before ++ .caller b :: after ∧ Machine.run step s before = some t ∧
      t.step (.caller b) = some t' ∧ (t.batches b).poll = some (t'.batches b) ∧ t.Inv ∧
      (t.batches b).Submits r ∧ (t'.batches b).SameCall (s'.batches b) ∧
      (t.batches b).finished <+: (s'.batches b).finished := by
  induction as generalizing s with
  | nil =>
    cases hrun
    exact absurd ⟨r, hreturned⟩ hbefore
  | cons a as ih =>
    obtain ⟨s₁, hstep, hrest⟩ := Machine.run_cons.mp hrun
    have hm := step_moves hstep
    have hinv := inv_moves h hm
    by_cases hnow : (s₁.batches b).Returned
    · obtain ⟨hsame, hpre⟩ := returned_run hinv hrest hnow
      have hcaller : (s₁.batches b).caller = .returned r := hsame.caller.symm.trans hreturned
      have hsubmits : a = .caller b ∧ (s.batches b).poll = some (s₁.batches b) ∧ (s.batches b).Submits r := by
        rcases caller_moves hm b with hstay | ⟨-, hnot⟩ | ⟨ha, hpoll⟩ | ⟨late, hclock⟩
        · exact absurd (hstay.symm.returned hnow) hbefore
        · exact absurd hnow hnot
        · exact ⟨ha, hpoll, (h.sound b).submits hpoll hcaller (hsame.confirm.symm.trans hconfirm)⟩
        · have hwaits := (h.sound b).confirm_of_clock hclock ⟨r, hcaller⟩
          rw [hsame.confirm.symm.trans hconfirm] at hwaits
          cases hwaits
      obtain ⟨rfl, hpoll, hsubmits⟩ := hsubmits
      exact ⟨[], as, s, s₁, rfl, rfl, hstep, hpoll, h, hsubmits, hsame, (finished_moves h hm b).trans hpre⟩
    · obtain ⟨before, after, t, t', rfl, hbefore', htail⟩ := ih hinv hrest hnow
      exact ⟨a :: before, after, t, t', rfl, Machine.run_cons.mpr ⟨s₁, hstep, hbefore'⟩, htail⟩

/-- What is taken out belongs to the first tasks that were finished. -/
theorem Inv.taken_eq {s : PoolState n} (h : s.Inv) (b : ℕ) :
    (s.batches b).taken =
      ((s.batches b).finished.take (s.batches b).taken.length).map fun f => runOneSwqosJob f.1 f.2 := by
  rw [List.map_take]
  exact (List.prefix_iff_eq_take.mp ⟨_, (h.sound b).kept⟩)

/-- **The report of a call that waits for the submissions.** It is about exactly the tasks whose results had been handed on
when the call returned, in that order, so that there is none exactly if there were no such tasks; these are all tasks of the call
unless its time was up. It says success exactly if the channel of one of them accepted the transaction. -/
theorem submitted_report {s : PoolState n} {as : List (Action n)} (hrun : Machine.run step init as = some s) {b : ℕ}
    {r : Option Report} (hreturned : (s.batches b).caller = .returned r) (hconfirm : (s.batches b).confirm = false) :
    ∃ before after t t', as = before ++ .caller b :: after ∧ Machine.run step init before = some t ∧
      t.step (.caller b) = some t' ∧ ¬ (t.batches b).Returned ∧ (t'.batches b).caller = .returned r ∧
      let reported := (t.batches b).finished
      reported <+: (s.batches b).finished ∧
        ((reported.map Prod.fst : List Task) : Multiset Task) ≤ ((s.batches b).tasks : Multiset Task) ∧
        ((s.batches b).timedOut = false → (reported.map Prod.fst).Perm (s.batches b).tasks) ∧
        (r = none ↔ reported = []) ∧
        ∀ report, r = some report →
          report.signatures = reported.map (fun f => (runOneSwqosJob f.1 f.2).signature) ∧
          (report.success = true ↔ ∃ f ∈ reported, ∃ signatures doneUs, f.2 = .sent signatures (.ok ()) doneUs) := by
  obtain ⟨before, after, t, t', has, hbefore, hstep, hpoll, hinv, hsubmits, hsame, hpre⟩ :=
    submitted_step inv_init hrun (by simp [Batch.Returned, init, Batch.idle]) hreturned hconfirm
  have hacc := hinv.accounted b
  have htasks : (t.batches b).tasks = (s.batches b).tasks := (hsame.tasks.trans (Batch.sameAccount_poll hpoll).tasks).symm
  have hle : (((t.batches b).finished.map Prod.fst : List Task) : Multiset Task) ≤ ((t.batches b).tasks : Multiset Task) := by
    rw [← hacc.conserved]
    exact Multiset.le_add_left _ _
  refine ⟨before, after, t, t', has, hbefore, hstep, hsubmits.not_returned, hsame.caller.symm.trans hreturned, hpre,
    htasks ▸ hle, ?_, ?_, ?_⟩
  · intro hnot
    rw [hsame.timedOut, (Batch.poll_keeps hpoll).2] at hnot
    rw [← htasks]
    exact hacc.finished_perm (hsubmits.time.resolve_left (by simp [hnot]))
  · rw [hsubmits.report_eq, Report.first]
    simp [Batch.results]
  · intro report hreport
    rw [hsubmits.report_eq, Report.first] at hreport
    split_ifs at hreport with hempty
    cases hreport
    exact ⟨by simp [Report.ofResults, Batch.results], anySuccess_iff_sent _⟩

theorem submitted_report_oneWorkerRun : ∃ s, Machine.run step init oneWorkerRun = some s ∧
    (s.batches 0).caller = .returned (some ⟨true, ["a", defaultSignature], some (.other (anyhow "no blockhash")),
      [(.default, 1), (.default, 2)]⟩) ∧
    ∃ reported, reported <+: (s.batches 0).finished ∧ (reported.map Prod.fst).Perm [rpcTask, rpcTask] := by
  refine ⟨_, rfl, rfl, ?_⟩
  obtain ⟨-, -, t, -, -, -, -, -, -, hpre, -, hall, -⟩ :=
    submitted_report (show Machine.run step init oneWorkerRun = some _ from rfl) (b := 0) rfl rfl
  exact ⟨(t.batches 0).finished, hpre, hall rfl⟩

/-- **The report of a call that waits for a success.** It has none only if its time was up; a success it tells of is one;
and a success it has seen is told as a failure only beside a transaction that is on the chain and failed. -/
theorem confirmed_report {s : PoolState n} {as : List (Action n)} (hrun : Machine.run step init as = some s) {b : ℕ}
    {r : Option Report} (hreturned : (s.batches b).caller = .returned r) (hconfirm : (s.batches b).confirm = true) :
    (r = none → (s.batches b).timedOut = true) ∧
      ∀ report, r = some report → ∃ reported, reported <+: (s.batches b).finished ∧ reported ≠ [] ∧
        report.signatures = reported.map (fun f => (runOneSwqosJob f.1 f.2).signature) ∧
        (report.success = true → ∃ f ∈ reported, ∃ signatures doneUs, f.2 = .sent signatures (.ok ()) doneUs) ∧
        (report.success = false → (∃ f ∈ reported, ∃ signatures doneUs, f.2 = .sent signatures (.ok ()) doneUs) →
          ∃ f ∈ reported, (runOneSwqosJob f.1 f.2).landedFailed = true) := by
  have hinv := inv_run hrun
  have hplace := (hinv.sound b).place
  simp only [Batch.Place, hreturned, hconfirm, if_true] at hplace
  have htaken := hinv.taken_eq b
  set reported := (s.batches b).finished.take (s.batches b).taken.length with hreported
  have hpre : reported <+: (s.batches b).finished := List.take_prefix _ _
  have hsignatures : ∀ ok error, (Report.ofResults (s.batches b).taken ok error).signatures =
      reported.map fun f => (runOneSwqosJob f.1 f.2).signature := by
    intro ok error
    rw [htaken]
    simp [Report.ofResults]
  have hany : Report.anySuccess (s.batches b).taken = true ↔
      ∃ f ∈ reported, ∃ signatures doneUs, f.2 = .sent signatures (.ok ()) doneUs := by
    rw [htaken]
    exact anySuccess_iff_sent reported
  cases hplace with
  | late htime _ => exact ⟨fun _ => htime, fun _ h => by cases h⟩
  | success hsome =>
    refine ⟨fun h => (by cases h), ?_⟩
    intro report h
    cases h
    have hsent := hany.mp hsome
    refine ⟨reported, hpre, ?_, hsignatures _ _, fun _ => hsent, fun hfalse => ?_⟩
    · rintro hnil
      obtain ⟨f, hf, -⟩ := hsent
      rw [hnil] at hf
      cases hf
    · cases hfalse
  | landed hsome =>
    refine ⟨fun h => (by cases h), ?_⟩
    intro report h
    cases h
    rw [htaken] at hsome
    obtain ⟨r, hr, hlanded⟩ := hsome
    obtain ⟨f, hf, rfl⟩ := List.mem_map.mp hr
    refine ⟨reported, hpre, List.ne_nil_of_mem hf, hsignatures _ _, fun htrue => ?_, fun _ _ => ⟨f, hf, hlanded⟩⟩
    cases htrue
  | all hlen hne =>
    refine ⟨fun h => (by cases h), ?_⟩
    intro report h
    cases h
    refine ⟨reported, hpre, ?_, hsignatures _ _, hany.mp, fun hfalse hsent => ?_⟩
    · intro hnil
      rw [hnil] at htaken
      exact hne htaken
    · rw [show Report.anySuccess (s.batches b).taken = false from hfalse] at hany
      exact absurd (hany.mpr hsent) (by simp)

/-- Two workers: one has raised the flag for a failed transaction on the chain, the other hands its success on after the
caller has looked for one. -/
def raceRun : List (Action 2) :=
  [.start 0 [rpcTask, rpcTask] true, .caller 0, .caller 0, .caller 0, .worker 0, .worker 1,
   .answer 0 (.sent ["a"] (.ok ()) 1), .answer 1 (.sent ["b"] (.error (.trade ⟨6004, "slippage", none⟩)) 2),
   .worker 1, .worker 1, .caller 0, .worker 0, .caller 0, .caller 0, .caller 0, .caller 0]

theorem confirmed_report_raceRun : ∃ s, Machine.run step init raceRun = some s ∧
    (s.batches 0).caller = .returned (some ⟨false, ["b", "a"], some (.trade ⟨6004, "slippage", none⟩),
      [(.default, 2), (.default, 1)]⟩) ∧
    ∃ reported, reported <+: (s.batches 0).finished ∧ ∃ f ∈ reported, (runOneSwqosJob f.1 f.2).landedFailed = true := by
  refine ⟨_, rfl, rfl, ?_⟩
  obtain ⟨reported, hpre, -, hsignatures, -, hlanded⟩ :=
    (confirmed_report (show Machine.run step init raceRun = some _ from rfl) (b := 0) rfl rfl).2 _ rfl
  refine ⟨reported, hpre, hlanded rfl ⟨(rpcTask, .sent ["a"] (.ok ()) 1), ?_, ["a"], 1, rfl⟩⟩
  have hlen : 2 = reported.length := (congrArg List.length hsignatures).trans (List.length_map _)
  rw [hpre.eq_of_length hlen.symm]
  exact List.mem_cons_of_mem _ List.mem_cons_self

end PoolState

end PumpSwapBot.Sdk
