import PumpSwapBot.Sdk.Reports

/-!
# Waking the workers

A worker that finds the queue empty waits to be woken, and a wake-up reaches only the workers that
wait already: one that has looked at the queue and does not wait yet misses it. So a job can be in
the queue with every worker waiting. Here is when that cannot happen, what follows if it does, and
what of a call that ends early is still sent.

## What is proved

* `some_worker_awake` — if at every wake-up one worker is not in between, a job that was announced
  always has a worker that will look for it.
* `parked_until_notified` — when all workers wait, nothing is sent or counted before the next
  wake-up, whatever is put into the queue.
* `failed_call_sends_prefix` — a call that ends for want of a tip account sends no task from that
  channel's on, and may send every task before it.
* `executeParallel_of_run` — whatever a call returns through the pool, the trade's model returns for
  some network.
-/

namespace PumpSwapBot.Sdk

open PumpSwapBot.Library

variable {n : ℕ}

/-- The worker is about to look for a job, or has one. -/
def Worker.Awake : Worker → Prop
  | .missed => False
  | .waiting => False
  | _ => True

/-- The call has put its tasks into the queue and woken the workers. -/
def Caller.Notified : Caller → Prop
  | .idle | .enqueuing | .failed _ => False
  | _ => True

namespace Batch

variable {B B' : Batch}

theorem notified_drain {popped : List TaskResult} {again : List TaskResult → Caller} {after : Caller}
    (hagain : ∀ rs, (again rs).Notified) (hafter : after.Notified) : (B.drain popped again after).caller.Notified := by
  unfold drain
  split
  · exact hagain _
  · exact hafter

/-- A caller that waits has woken the workers, and goes on waiting or returns. -/
theorem notified_poll (h : B.poll = some B') : B.caller.Notified ∧ B'.caller.Notified := by
  have hite : ∀ {c : Prop} [Decidable c] {x y : Caller}, x.Notified → y.Notified → (if c then x else y).Notified := by
    intro c _ x y hx hy
    split_ifs
    · exact hx
    · exact hy
  unfold poll at h
  split at h <;> cases h
  next hc => exact ⟨hc ▸ trivial, hite trivial trivial⟩
  next hc => exact ⟨hc ▸ trivial, notified_drain (fun _ => trivial) trivial⟩
  next hc => exact ⟨hc ▸ trivial, hite trivial trivial⟩
  next hc => exact ⟨hc ▸ trivial, notified_drain (fun _ => trivial) (hite trivial trivial)⟩
  next hc => exact ⟨hc ▸ trivial, hite trivial trivial⟩
  next hc => exact ⟨hc ▸ trivial, notified_drain (fun _ => trivial) (hite trivial trivial)⟩
  next hc => exact ⟨hc ▸ trivial, hite trivial trivial⟩
  next hc => exact ⟨hc ▸ trivial, notified_drain (fun _ => trivial) trivial⟩

theorem notified_clock {late : Bool} (h : B.clock late = some B') : B.caller.Notified ∧ B'.caller.Notified := by
  unfold clock at h
  split at h <;> cases h <;> split_ifs
  next hc _ => exact ⟨hc ▸ trivial, trivial⟩
  next hc _ => exact ⟨hc ▸ trivial, trivial⟩
  next hc _ => exact ⟨hc ▸ trivial, trivial⟩
  next hc _ => exact ⟨hc ▸ trivial, trivial⟩

end Batch

namespace PoolState

/-- The action is the wake-up of a call. -/
def Notifies (s : PoolState n) (a : Action n) : Prop :=
  ∃ b, a = .caller b ∧ (s.batches b).caller = .enqueuing ∧ (s.batches b).rest = []

/-! ### A wake-up that reaches a worker -/

/-- A job that was announced has a worker. -/
def Served (s : PoolState n) : Prop := ∀ job ∈ s.queue, (s.batches job.batch).caller.Notified → ∃ w, (s.workers w).Awake

theorem Served.of_workers {s s' : PoolState n} (h : s.Served) (hqueue : ∀ job ∈ s'.queue,
    (s'.batches job.batch).caller.Notified → job ∈ s.queue ∧ (s.batches job.batch).caller.Notified)
    (hworkers : ∀ w, (s.workers w).Awake → ∃ w', (s'.workers w').Awake) : s'.Served := by
  intro job hjob hnotified
  obtain ⟨hold, hold'⟩ := hqueue job hjob hnotified
  obtain ⟨w, hw⟩ := h job hold hold'
  exact hworkers w hw

/-- A step on a batch that is announced after it only if it was before. -/
theorem served_setBatch {s : PoolState n} {b : ℕ} {B : Batch} (h : s.Served)
    (hB : B.caller.Notified → (s.batches b).caller.Notified) :
    (s.setBatch b B).Served := by
  refine h.of_workers (fun job hjob hnotified => ⟨hjob, ?_⟩) fun w hw => ⟨w, hw⟩
  by_cases hb : job.batch = b
  · rw [hb, setBatch_self] at hnotified
    rw [hb]
    exact hB hnotified
  · rwa [setBatch_ne s B hb] at hnotified

/-- A worker that is awake afterwards. -/
theorem served_setWorker {s : PoolState n} {w : Fin n} {W : Worker} (h : s.Served) (hW : W.Awake ∨ ¬ (s.workers w).Awake) :
    (s.setWorker w W).Served := by
  refine h.of_workers (fun job hjob hnotified => ⟨hjob, hnotified⟩) fun w' hw' => ?_
  rcases hW with hW | hW
  · exact ⟨w, by simpa [setWorker] using hW⟩
  · have hne : w' ≠ w := by
      rintro rfl
      exact hW hw'
    exact ⟨w', by simpa [setWorker, hne] using hw'⟩

theorem served_moves {s s' : PoolState n} {a : Action n} (h : s.Served)
    (hcond : s.Notifies a → ∃ w, s.workers w ≠ .missed) (hm : Moves s a s') : s'.Served := by
  cases hm with
  | start hidle htasks => exact served_setBatch h fun hnever => hnever.elim
  | tipFailed hcaller hrest htip => exact served_setBatch h fun hnever => hnever.elim
  | @enqueued b t rest account hcaller hrest htip hroom =>
    -- The new job is not announced yet.
    refine h.of_workers (fun job hjob hnotified => ?_) fun w hw => ⟨w, hw⟩
    simp only [setQueue_batches] at hnotified
    by_cases hb : job.batch = b
    · rw [hb, setBatch_self] at hnotified
      simp [Caller.Notified, hcaller] at hnotified
    · rw [setBatch_ne s _ hb] at hnotified
      refine ⟨?_, hnotified⟩
      rcases List.mem_append.mp hjob with hold | hnew
      · exact hold
      · rw [List.mem_singleton.mp hnew] at hb
        exact absurd rfl hb
  | refused hcaller hrest htip hfull => exact served_setBatch h id
  | @notified b hcaller hrest =>
    intro job hjob hnotified
    obtain ⟨w, hw⟩ := hcond ⟨b, rfl, hcaller, hrest⟩
    refine ⟨w, ?_⟩
    simp only [notifyWaiters, wakeAll, setBatch_workers]
    revert hw
    rcases s.workers w with _ | _ | _ | _ | _ | _ | _ <;> simp [Worker.wake, Worker.Awake]
  | polled hpoll => exact served_setBatch h fun _ => (Batch.notified_poll hpoll).1
  | clocked hclock => exact served_setBatch h fun _ => (Batch.notified_clock hclock).1
  | @tookJob w job queue hworker hqueue =>
    refine h.of_workers (fun job' hjob hnotified => ⟨?_, hnotified⟩) fun w' hw' => ⟨w, ?_⟩
    · rw [hqueue]
      exact List.mem_cons_of_mem _ hjob
    · simp [setWorker, setQueue, Worker.Awake]
  | foundEmpty hworker hqueue =>
    intro job hjob
    rw [setWorker_queue, hqueue] at hjob
    cases hjob
  | waits hworker => exact served_setWorker h (.inr (by simp [hworker, Worker.Awake]))
  | answered hworker => exact served_setWorker h (.inl trivial)
  | pushed hworker => exact served_setWorker (served_setBatch h id) (.inl trivial)
  | flagged hworker => exact served_setWorker (served_setBatch h id) (.inl trivial)
  | counted hworker => exact served_setWorker (served_setBatch h id) (.inl trivial)

/-- **No job is left waiting with every worker asleep**, in every run in which, at every wake-up, one worker is not
between its look at the empty queue and its waiting. -/
theorem some_worker_awake {s : PoolState n} {as : List (Action n)} (hrun : Machine.run step init as = some s)
    (hcond : Machine.Along step (fun s a => s.Notifies a → ∃ w, s.workers w ≠ .missed) init as) {job : Job}
    (hjob : job ∈ s.queue) (hnotified : (s.batches job.batch).caller.Notified) : ∃ w, (s.workers w).Awake :=
  Machine.invariant_along (I := Served) (fun _ _ _ h hc hs => served_moves h hc (step_moves hs))
    (fun _ hjob => by cases hjob) hcond hrun job hjob hnotified

theorem some_worker_awake_announced : ∃ s : PoolState 1,
    Machine.run step init [.start 0 [rpcTask] false, .caller 0, .caller 0] = some s ∧ ∃ w, (s.workers w).Awake := by
  refine ⟨_, rfl, some_worker_awake
    (show Machine.run step init [.start 0 [rpcTask] false, .caller 0, .caller 0] = some _ from rfl) ?_
    (show Job.mk 0 rpcTask ∈ _ from List.mem_cons_self) trivial⟩
  refine ⟨fun _ => ⟨0, by simp [init]⟩, fun s₁ h₁ => ?_⟩
  cases h₁
  refine ⟨fun _ => ⟨0, by simp [init]⟩, fun s₂ h₂ => ?_⟩
  cases h₂
  refine ⟨fun _ => ⟨0, ?_⟩, fun _ _ => trivial⟩
  intro hmissed
  cases hmissed

/-! ### A wake-up that reaches no worker -/

/-- The calls that had begun in `s` have in `s'` what they had sent and counted, and the queue what it held. -/
structure Unserved (s s' : PoolState n) : Prop where
  waiting : ∀ w, s'.workers w = .waiting
  queue : s.queue <+: s'.queue
  calls : ∀ b, (s.batches b).caller ≠ .idle → (s'.batches b).caller ≠ .idle ∧
    (s'.batches b).finished = (s.batches b).finished ∧
    (s'.batches b).collector.completedCount = (s.batches b).collector.completedCount

theorem Unserved.setBatch {s s' : PoolState n} (h : Unserved s s') {b : ℕ} {B : Batch}
    (hB : (s'.batches b).caller ≠ .idle → B.caller ≠ .idle ∧ B.finished = (s'.batches b).finished ∧
      B.collector.completedCount = (s'.batches b).collector.completedCount) : Unserved s (s'.setBatch b B) where
  waiting := h.waiting
  queue := h.queue
  calls b' hb' := by
    obtain ⟨hcaller, hfinished, hcount⟩ := h.calls b' hb'
    by_cases hb : b' = b
    · subst hb
      rw [setBatch_self]
      obtain ⟨h₁, h₂, h₃⟩ := hB hcaller
      exact ⟨h₁, h₂.trans hfinished, h₃.trans hcount⟩
    · rw [setBatch_ne s' B hb]
      exact ⟨hcaller, hfinished, hcount⟩

theorem Unserved.of_sameAccount {s s' : PoolState n} (h : Unserved s s') {b : ℕ} {B : Batch}
    (hB : (s'.batches b).SameAccount B) : Unserved s (s'.setBatch b B) :=
  h.setBatch fun hcaller => ⟨fun hc => hcaller (hB.idle.mp hc), hB.finished, hB.completed⟩

theorem unserved_moves {s s' s'' : PoolState n} {a : Action n} (h : Unserved s s') (hquiet : ¬ s'.Notifies a)
    (hm : Moves s' a s'') : Unserved s s'' := by
  cases hm with
  | start hidle htasks => exact h.setBatch fun hcaller => absurd hidle hcaller
  | tipFailed hcaller hrest htip => exact h.of_sameAccount (Batch.sameAccount_goto (by simp [hcaller]) (by simp))
  | @enqueued b t rest account hcaller hrest htip hroom =>
    obtain ⟨hwaiting, hqueue, hcalls⟩ := h.setBatch (b := b) (B := { s'.batches b with rest := rest })
      fun hne => ⟨hne, rfl, rfl⟩
    exact ⟨hwaiting, hqueue.trans (List.prefix_append _ _), hcalls⟩
  | refused hcaller hrest htip hfull => exact h.setBatch fun hne => ⟨hne, rfl, rfl⟩
  | notified hcaller hrest => exact absurd ⟨_, rfl, hcaller, hrest⟩ hquiet
  | polled hpoll => exact h.of_sameAccount (Batch.sameAccount_poll hpoll)
  | clocked hclock => exact h.of_sameAccount (Batch.sameAccount_clock hclock)
  | tookJob hworker hqueue => exact absurd (hworker.symm.trans (h.waiting _)) (by simp)
  | foundEmpty hworker hqueue => exact absurd (hworker.symm.trans (h.waiting _)) (by simp)
  | waits hworker => exact absurd (hworker.symm.trans (h.waiting _)) (by simp)
  | answered hworker => exact absurd (hworker.symm.trans (h.waiting _)) (by simp)
  | pushed hworker => exact absurd (hworker.symm.trans (h.waiting _)) (by simp)
  | flagged hworker => exact absurd (hworker.symm.trans (h.waiting _)) (by simp)
  | counted hworker => exact absurd (hworker.symm.trans (h.waiting _)) (by simp)

/-- **When every worker waits, nothing is sent before the next wake-up.** Until then no job leaves the queue, and no call
that had begun sees another task sent or counted. -/
theorem parked_until_notified {s s' : PoolState n} {as : List (Action n)} (hwaiting : ∀ w, s.workers w = .waiting)
    (hquiet : Machine.Along step (fun s a => ¬ s.Notifies a) s as) (hrun : Machine.run step s as = some s') :
    (∀ w, s'.workers w = .waiting) ∧ s.queue <+: s'.queue ∧ ∀ b, (s.batches b).caller ≠ .idle →
      (s'.batches b).finished = (s.batches b).finished ∧
      (s'.batches b).collector.completedCount = (s.batches b).collector.completedCount := by
  have h : Unserved s s' := Machine.invariant_along (I := Unserved s)
    (fun _ _ _ h hc hs => unserved_moves h hc (step_moves hs))
    ⟨hwaiting, List.prefix_refl _, fun b hb => ⟨hb, rfl, rfl⟩⟩ hquiet hrun
  exact ⟨h.waiting, h.queue, fun b hb => (h.calls b hb).2⟩

/-- The worker looks at the empty queue, a call puts a job in and wakes nobody, and the worker waits. -/
def lostWakeUpRun : List (Action 1) := [.worker sender, .start 0 [rpcTask] false, .caller 0, .caller 0, .worker sender]

/-- The call then leaves by its clock, without a report, and its job stays in the queue. -/
theorem parked_until_notified_lostWakeUpRun : ∃ s s', Machine.run step init lostWakeUpRun = some s ∧
    Machine.run step s [.caller 0, .clock 0 true, .caller 0] = some s' ∧ (s'.batches 0).caller = .returned none ∧
    (s.batches 0).tasks = [rpcTask] ∧ s'.queue = [⟨0, rpcTask⟩] ∧ (s'.batches 0).finished = [] := by
  refine ⟨(Machine.run step init lostWakeUpRun).get rfl, _, rfl, rfl, rfl, rfl, rfl, ?_⟩
  refine ((parked_until_notified (s := (Machine.run step init lostWakeUpRun).get rfl) ?_ ?_
    (show Machine.run step _ [.caller 0, .clock 0 true, .caller 0] = some _ from rfl)).2.2 0 ?_).1
  · intro w
    rw [Subsingleton.elim w 0]
    rfl
  · refine ⟨?_, fun s₁ h₁ => ?_⟩
    · rintro ⟨b, hb, hc, -⟩
      cases hb
      cases hc
    cases h₁
    refine ⟨?_, fun s₂ h₂ => ?_⟩
    · rintro ⟨b, hb, -⟩
      cases hb
    cases h₂
    refine ⟨?_, fun _ _ => trivial⟩
    rintro ⟨b, hb, hc, -⟩
    cases hb
    cases hc
  · intro hc
    cases hc

/-! ### Calls that end early -/

/-- The tasks go into the queue in their order, and only those of channels with an account for their tips. -/
structure Ordered (B : Batch) : Prop where
  order : ∃ gone, B.tasks = gone ++ B.rest ∧ ∀ t ∈ gone, ∃ account, t.client.tipAccount = .ok account
  notified : B.caller.Notified → B.rest = []
  failed : ∀ e, B.caller = .failed e → ∃ t rest, B.rest = t :: rest ∧ t.client.tipAccount = .error e

theorem Ordered.of_notified {B B' : Batch} (h : Ordered B) (hsame : B.SameAccount B') (hB : B.caller.Notified)
    (hB' : B'.caller.Notified) : Ordered B' where
  order := by rw [hsame.tasks, hsame.rest]; exact h.order
  notified _ := by rw [hsame.rest]; exact h.notified hB
  failed e he := by rw [he] at hB'; exact hB'.elim

theorem Ordered.pushed {B B' : Batch} (h : Ordered B) {t : Task} {rest : List Task} {account : String}
    (hcaller : B.caller = .enqueuing) (hrest : B.rest = t :: rest) (htip : t.client.tipAccount = .ok account)
    (htasks : B'.tasks = B.tasks) (hcaller' : B'.caller = B.caller) (hrest' : B'.rest = rest) : Ordered B' where
  order := by
    obtain ⟨gone, htasks₀, hgone⟩ := h.order
    refine ⟨gone ++ [t], by rw [htasks, htasks₀, hrest, hrest', List.append_assoc, List.singleton_append], ?_⟩
    intro t' ht'
    rcases List.mem_append.mp ht' with hold | hnew
    · exact hgone t' hold
    · rw [List.mem_singleton.mp hnew]
      exact ⟨account, htip⟩
  notified hn := by
    rw [hcaller', hcaller] at hn
    exact hn.elim
  failed e he := by
    rw [hcaller', hcaller] at he
    cases he

theorem ordered_moves {s s' : PoolState n} {a : Action n} (h : ∀ b, Ordered (s.batches b)) (hm : Moves s a s') (b' : ℕ) :
    Ordered (s'.batches b') := by
  have hset : ∀ b B, Ordered B → Ordered ((s.setBatch b B).batches b') := by
    intro b B hB
    by_cases hb : b' = b
    · subst hb
      rwa [setBatch_self]
    · rw [setBatch_ne s B hb]
      exact h b'
  cases hm with
  | @start b tasks confirm hidle htasks =>
    exact hset b _ ⟨⟨[], rfl, fun t ht => by cases ht⟩, fun hn => hn.elim, fun e he => by cases he⟩
  | @tipFailed b t rest e hcaller hrest htip =>
    refine hset b _ ⟨(h b).order, fun hn => hn.elim, fun e' he => ?_⟩
    cases he
    exact ⟨t, rest, hrest, htip⟩
  | @enqueued b t rest account hcaller hrest htip hroom =>
    exact hset b _ ((h b).pushed hcaller hrest htip rfl rfl rfl)
  | @refused b t rest account hcaller hrest htip hfull =>
    exact hset b _ ((h b).pushed hcaller hrest htip rfl rfl rfl)
  | @notified b hcaller hrest =>
    refine hset b _ ⟨(h b).order, fun _ => hrest, fun e he => ?_⟩
    simp only [Batch.goto] at he
    split_ifs at he
  | @polled b B hpoll =>
    obtain ⟨hold, hnew⟩ := Batch.notified_poll hpoll
    exact hset b B ((h b).of_notified (Batch.sameAccount_poll hpoll) hold hnew)
  | @clocked b late B hclock =>
    obtain ⟨hold, hnew⟩ := Batch.notified_clock hclock
    exact hset b B ((h b).of_notified (Batch.sameAccount_clock hclock) hold hnew)
  | tookJob hworker hqueue => exact h b'
  | foundEmpty hworker hqueue => exact h b'
  | waits hworker => exact h b'
  | answered hworker => exact h b'
  | @pushed w job o hworker => exact hset job.batch _ ⟨(h job.batch).order, (h job.batch).notified, (h job.batch).failed⟩
  | @flagged w job o hworker => exact hset job.batch _ ⟨(h job.batch).order, (h job.batch).notified, (h job.batch).failed⟩
  | @counted w job o hworker => exact hset job.batch _ ⟨(h job.batch).order, (h job.batch).notified, (h job.batch).failed⟩

theorem ordered_idle : Ordered .idle :=
  ⟨⟨[], rfl, fun t ht => by cases ht⟩, fun hn => hn.elim, fun e he => by cases he⟩

theorem ordered_run {s : PoolState n} {as : List (Action n)} (hrun : Machine.run step init as = some s) (b : ℕ) :
    Ordered (s.batches b) :=
  Machine.invariant (I := fun s => ∀ b, Ordered (s.batches b)) (fun _ _ _ h hs b => ordered_moves h (step_moves hs) b)
    (fun _ => ordered_idle) hrun b

/-- **A call that ends for want of a tip account.** The tasks before the channel's are all on their way, each once, and
may be sent after the call has returned its error; no task from the channel's on is ever sent. -/
theorem failed_call_sends_prefix {s : PoolState n} {as : List (Action n)} (hrun : Machine.run step init as = some s) {b : ℕ}
    {e : Error} (hfailed : (s.batches b).caller = .failed e) :
    ∃ (before : List Task) (t : Task) (after : List Task), (s.batches b).tasks = before ++ t :: after ∧ t.client.tipAccount = .error e ∧
      ((s.batches b).dropped : Multiset Task) + s.queued b + s.held b
        + ((s.batches b).finished.map Prod.fst : List Task) = (before : Multiset Task) := by
  have hord := ordered_run hrun b
  have hcons := ((inv_run hrun).accounted b).conserved
  obtain ⟨gone, htasks, -⟩ := hord.order
  obtain ⟨t, rest, hrest, htip⟩ := hord.failed e hfailed
  refine ⟨gone, t, rest, htasks.trans (by rw [hrest]), htip, ?_⟩
  rw [htasks, ← Multiset.coe_add, add_comm (gone : Multiset Task)] at hcons
  refine add_left_cancel (a := ((s.batches b).rest : Multiset Task)) (Eq.trans ?_ hcons)
  abel

/-- The second channel has no account for its tip. The first task is sent after the call has returned the error. -/
def failedCallRun : List (Action 1) :=
  [.start 0 [rpcTask, { rpcTask with client := { rpcTask.client with tipAccount := .error (anyhow "no tip account") } }] false,
   .caller 0, .caller 0, .worker sender, .answer sender (.sent ["a"] (.ok ()) 1), .worker sender]

theorem failed_call_sends_prefix_failedCallRun : ∃ s, Machine.run step init failedCallRun = some s ∧
    (s.batches 0).caller = .failed (anyhow "no tip account") ∧
    (s.batches 0).finished = [(rpcTask, .sent ["a"] (.ok ()) 1)] ∧
    ∃ (before : List Task) (t : Task) (after : List Task), (s.batches 0).tasks = before ++ t :: after ∧
      t.client.tipAccount = .error (anyhow "no tip account") := by
  refine ⟨_, rfl, rfl, rfl, ?_⟩
  obtain ⟨before, t, after, htasks, htip, -⟩ :=
    failed_call_sends_prefix (show Machine.run step init failedCallRun = some _ from rfl) (b := 0) rfl
  exact ⟨before, t, after, htasks, htip⟩

/-! ### The pool and the network of a trade -/

end PoolState

/-- The error as the trade's model keeps it. -/
def SendError.toError : SendError → Error
  | .trade e => anyhow e.message
  | .other e => e

/-- What a call that does not wait for a success returns, once it has. -/
def Caller.result : Caller → Option (Result (Bool × List Signature × Option Error))
  | .failed e => some (.error (.err e))
  | .returned none => some (.ok (false, [], some (anyhow "No SWQOS result within 2s")))
  | .returned (some r) => some (.ok (r.success, r.signatures, r.error.map SendError.toError))
  | _ => none

theorem tipAccounts_ok {tasks : List Task} (h : ∀ t ∈ tasks, ∃ account, t.client.tipAccount = .ok account) :
    tipAccounts tasks = .ok () := by
  induction tasks with
  | nil => rfl
  | cons t ts ih =>
    obtain ⟨account, ht⟩ := h t List.mem_cons_self
    simp [tipAccounts, ht, orFail, ih fun t' ht' => h t' (List.mem_cons_of_mem _ ht')]

theorem tipAccounts_error {before after : List Task} {t : Task} {e : Error}
    (hbefore : ∀ t ∈ before, ∃ account, t.client.tipAccount = .ok account) (ht : t.client.tipAccount = .error e) :
    tipAccounts (before ++ t :: after) = .error (.err e) := by
  induction before with
  | nil => simp [tipAccounts, ht, orFail]
  | cons u us ih =>
    obtain ⟨account, hu⟩ := hbefore u List.mem_cons_self
    simp [tipAccounts, hu, orFail, ih fun t' ht' => hbefore t' (List.mem_cons_of_mem _ ht')]

namespace PoolState

/-- **The pool refines the network of a trade.** Whatever a call returns, in any run, the trade's model returns for a
network that says success only if a channel accepted one of the transactions, and names no more signatures than there
are tasks. -/
theorem executeParallel_of_run {s : PoolState n} {as : List (Action n)} (hrun : Machine.run step init as = some s) {b : ℕ}
    {params : SwapParams} {isBuy withTip : Bool}
    (htasks : submitTasks params isBuy withTip = .ok (s.batches b).tasks) (hconfirm : (s.batches b).confirm = false)
    {x : Result (Bool × List Signature × Option Error)} (hresult : (s.batches b).caller.result = some x) :
    ∃ net : Network, executeParallel net params isBuy withTip = x ∧
      ∀ ok signatures err, net.collect (s.batches b).tasks = some (ok, signatures, err) →
        signatures.length ≤ (s.batches b).tasks.length ∧
        (ok = true → ∃ f ∈ (s.batches b).finished, ∃ signatures doneUs, f.2 = .sent signatures (.ok ()) doneUs) := by
  have hinv := inv_run hrun
  have hord := ordered_run hrun b
  obtain ⟨gone, hgone, htips⟩ := hord.order
  have hexec : ∀ net : Network, executeParallel net params isBuy withTip =
      (tipAccounts (s.batches b).tasks >>= fun _ => .ok ((net.collect (s.batches b).tasks).getD
        (false, [], some (anyhow "No SWQOS result within 2s")))) := by
    intro net
    simp only [executeParallel, htasks, ok_bind]
    rfl
  rcases hcaller : (s.batches b).caller with _ | _ | e | _ | _ | _ | _ | _ | _ | _ | _ | _ | _ | r <;>
    simp only [hcaller, Caller.result, reduceCtorEq, Option.some.injEq] at hresult
  · -- A channel without an account: the model fails with the same error.
    subst hresult
    obtain ⟨t, rest, hrest, htip⟩ := hord.failed e hcaller
    refine ⟨⟨fun _ => none, fun _ => .ok ()⟩, ?_, fun _ _ _ h => by cases h⟩
    rw [hexec, hgone, hrest, tipAccounts_error htips htip]
    rfl
  · have hok : tipAccounts (s.batches b).tasks = .ok () := by
      rw [hgone, hord.notified (by rw [hcaller]; trivial), List.append_nil]
      exact tipAccounts_ok htips
    have hplace := (hinv.sound b).place
    simp only [Batch.Place, hcaller, hconfirm] at hplace
    obtain ⟨rfl, -⟩ := hplace
    have htaken := hinv.taken_eq b
    have hlen : (s.batches b).taken.length ≤ (s.batches b).tasks.length := by
      have hle := congrArg List.length htaken
      rw [List.length_map, List.length_take] at hle
      exact (Nat.le_of_eq hle).trans ((Nat.min_le_right _ _).trans (hinv.accounted b).finished_le)
    rcases hfirst : Report.first (s.batches b).taken with _ | report <;>
      simp only [hfirst, Option.some.injEq] at hresult <;> subst hresult
    · refine ⟨⟨fun _ => none, fun _ => .ok ()⟩, ?_, fun _ _ _ h => by cases h⟩
      rw [hexec, hok]
      rfl
    · refine ⟨⟨fun _ => some (report.success, report.signatures, report.error.map SendError.toError), fun _ => .ok ()⟩,
        ?_, ?_⟩
      · rw [hexec, hok]
        rfl
      · intro ok signatures err h
        cases h
        rw [Report.first] at hfirst
        split_ifs at hfirst
        cases hfirst
        refine ⟨by simpa [Report.ofResults] using hlen, fun hsuccess => ?_⟩
        simp only [Report.ofResults] at hsuccess
        rw [htaken, anySuccess_iff_sent] at hsuccess
        obtain ⟨f, hf, hsent⟩ := hsuccess
        exact ⟨f, List.mem_of_mem_take hf, hsent⟩

/-- A buy through the plain RPC. -/
def rpcParams : SwapParams where
  payer := default
  tradeType := .buy
  inputMint := wsolTokenAccount
  outputMint := default
  inputAmount := some 1000
  slippageBasisPoints := none
  recentBlockhash := none
  waitTxConfirmed := false
  protocolParams := ⟨default, default, wsolTokenAccount, default, default, 1, 1, default, default, default, default, false, false⟩
  openSeedOptimize := false
  swqosClients := [rpcTask.client]
  durableNonce := none
  withTip := true
  createInputMintAta := false
  closeInputMintAta := false
  createOutputMintAta := false
  closeOutputMintAta := false
  fixedOutputAmount := none
  gasFeeStrategy := GasFeeStrategy.new.setGlobalFeeStrategy 200000 200000 0 0 0 0
  checkMinTip := false
  useExactSolAmount := none

/-- Its one task is sent and reported. -/
def rpcRun : List (Action 1) :=
  [.start 0 [rpcTask] false, .caller 0, .caller 0, .worker sender, .answer sender (.sent ["a"] (.ok ()) 1), .worker sender, .worker sender,
   .worker sender, .caller 0, .caller 0, .caller 0]

theorem executeParallel_of_rpcRun : ∃ s, Machine.run step init rpcRun = some s ∧
    ∃ net : Network, executeParallel net rpcParams true true = .ok (true, ["a"], none) := by
  refine ⟨_, rfl, ?_⟩
  have htasks : submitTasks rpcParams true true = .ok [rpcTask] :=
    submitTasks_of_single rfl rfl rfl (.inl rfl)
  obtain ⟨net, hnet, -⟩ :=
    executeParallel_of_run (show Machine.run step init rpcRun = some _ from rfl) (b := 0) htasks rfl rfl
  exact ⟨net, hnet⟩

end PoolState

end PumpSwapBot.Sdk
