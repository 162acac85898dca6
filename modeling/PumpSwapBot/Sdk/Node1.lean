import PumpSwapBot.Sdk.Connections

/-!
# Node1's client

`swqos/node1_quic.rs`: a sender that finds the connection closed gives the lock back, connects, authenticates the connection and
takes the lock again to put it in. Which connections the server has authenticated is kept beside what the source has.

## What is proved

* `Node1.authenticated_of_run` — in every interleaving, the senders send over authenticated connections only.
* `Node1.many_open` — and after one closing they can have any number of them open.
-/

namespace PumpSwapBot.Sdk

open PumpSwapBot.Library

/-! ### The machine -/

/-- Where a sender of Node1's is. -/
inductive Node1Stage where
  | idle
  /-- Waiting for the lock. -/
  | lock
  /-- About to look whether the connection is closed. -/
  | check
  | connect
  /-- Authenticating over the connection it has made. -/
  | authenticate (id : ℕ)
  /-- Waiting for the lock again, to put the connection in. -/
  | relock (id : ℕ)
  /-- About to put it in. -/
  | store (id : ℕ)
  | send (id : ℕ)
  | done (ok : Bool)
  deriving DecidableEq

/-- What Node1's senders share. -/
structure Node1Link extends Link Node1Stage where
  /-- Which connections the server has authenticated (history). -/
  authenticated : ℕ → Bool

/-- The greatest size of a transaction. -/
def maxTxSize : ℕ := 1232

namespace Node1

/-- The client has just connected and been authenticated. -/
def init : Node1Link := ⟨Link.init .idle, fun id => decide (id = 0)⟩

/-- Change what is shared, but not who is authenticated. -/
def withLink (s : Node1Link) (l : Link Node1Stage) : Node1Link := { s with toLink := l }

/-- A sender goes on. -/
def next (s : Node1Link) (i : ℕ) (ok : Bool) : Option Node1Link :=
  match s.senders i with
  | .lock => if s.lock = none then some (withLink s (s.acquire i .check)) else none
  | .check =>
    match s.closeReason s.current with
    | none => some (withLink s (s.release i (.send s.current)))
    | some _ => some (withLink s (s.release i .connect))
  | .connect => some (withLink s (if ok then s.connect i .authenticate else s.setSender i (.done false)))
  | .authenticate id =>
    if ok then
      if s.IsOpen id then
        some { withLink s (s.setSender i (.relock id)) with authenticated := Function.update s.authenticated id true }
      else none
    else some (withLink s (s.setSender i (.done false)))
  | .relock id => if s.lock = none then some (withLink s (s.acquire i (.store id))) else none
  | .store id => some (withLink s ((s.store i id (.store id)).release i (.send id)))
  | .send id =>
    if ok then
      if s.IsOpen id then some (withLink s (s.setSender i (.done true))) else none
    else some (withLink s (s.setSender i (.done false)))
  | .idle | .done _ => none

/-- A sender is given up. -/
def cancel (s : Node1Link) (i : ℕ) : Option Node1Link :=
  match s.senders i with
  | .lock | .connect | .authenticate _ | .relock _ | .send _ => some (withLink s (s.setSender i (.done false)))
  | _ => none

/-- Where a call begins: what is too large is not sent. -/
def begin (size : ℕ) : Node1Stage := if maxTxSize < size then .done false else .lock

/-- One step of the machine. -/
def step (s : Node1Link) : LinkAction ℕ → Option Node1Link
  | .start i size =>
    match s.senders i with
    | .idle | .done _ => some (withLink s (s.setSender i (begin size)))
    | _ => none
  | .next i ok => next s i ok
  | .cancel i => cancel s i
  | .close id reason => (s.close id reason).map (withLink s)

end Node1

/-! ### Authentication -/

/-- The connection a sender has that it takes to be authenticated. -/
def Node1Stage.connection : Node1Stage → Option ℕ
  | relock id | store id | send id => some id
  | _ => none

namespace Node1

variable {s s' : Node1Link} {i : ℕ} {ok : Bool}

/-- The client's connection is authenticated, and so is each one a sender is going to put in or to send over. -/
structure Inv (s : Node1Link) : Prop where
  current : s.authenticated s.current = true
  senders : ∀ i id, (s.senders i).connection = some id → s.authenticated id = true

theorem inv_init : Inv init where
  current := rfl
  senders _ _ h := by cases h

/-- A sender goes somewhere with an authenticated connection, if with any. -/
theorem Inv.move {l : Link Node1Stage} {x : Node1Stage} (h : Inv s) (hcurrent : s.authenticated l.current = true)
    (hsenders : l.senders = Function.update s.senders i x) (hx : ∀ id, x.connection = some id → s.authenticated id = true) :
    Inv (withLink s l) where
  current := hcurrent
  senders := by
    show ∀ j id, (l.senders j).connection = some id → s.authenticated id = true
    rw [hsenders]
    exact (Function.forall_update_iff s.senders
      fun _ y => ∀ id, y.connection = some id → s.authenticated id = true).mpr ⟨hx, fun j _ => h.senders j⟩

/-- The server authenticates a connection. -/
theorem Inv.authenticate (h : Inv s) (id : ℕ) : Inv { s with authenticated := Function.update s.authenticated id true } := by
  have hmono : ∀ {a}, s.authenticated a = true → Function.update s.authenticated id true a = true := by
    intro a ha
    by_cases haid : a = id
    · rw [haid, Function.update_self]
    · rw [Function.update_of_ne haid, ha]
  exact ⟨hmono h.current, fun j a ha => hmono (h.senders j a ha)⟩

theorem inv_next (h : Inv s) (hnext : next s i ok = some s') : Inv s' := by
  have hconnection := h.senders i
  unfold next at hnext
  split at hnext
  next =>
    split_ifs at hnext
    cases hnext
    exact h.move h.current rfl fun _ hx => by cases hx
  next =>
    split at hnext <;> cases hnext
    · refine h.move h.current rfl fun id hx => ?_
      cases hx
      exact h.current
    · exact h.move h.current rfl fun _ hx => by cases hx
  next =>
    cases hnext
    split_ifs <;> exact h.move h.current rfl fun _ hx => by cases hx
  next id heq =>
    split_ifs at hnext <;> cases hnext
    · refine (h.authenticate id).move (i := i) (x := .relock id) ?_ rfl fun a ha => ?_
      · exact (h.authenticate id).current
      · cases ha
        exact Function.update_self ..
    · exact h.move h.current rfl fun _ hx => by cases hx
  next id heq =>
    rw [heq] at hconnection
    split_ifs at hnext
    cases hnext
    exact h.move h.current rfl hconnection
  next id heq =>
    rw [heq] at hconnection
    cases hnext
    have hid := hconnection id rfl
    exact h.move (i := i) (x := .send id) hid (by simp [Link.store, Link.release, Link.setSender]) hconnection
  next =>
    split_ifs at hnext <;> cases hnext <;> exact h.move h.current rfl fun _ hx => by cases hx
  next => cases hnext
  next => cases hnext

theorem inv_step {a : LinkAction ℕ} (h : Inv s) (hstep : step s a = some s') : Inv s' := by
  cases a with
  | start i size =>
    have hbegin : ∀ id, (begin size).connection = some id → s.authenticated id = true := by
      intro id hid
      unfold begin at hid
      split_ifs at hid <;> cases hid
    simp only [step] at hstep
    split at hstep <;> cases hstep <;> exact h.move h.current rfl hbegin
  | next i ok => exact inv_next h hstep
  | cancel i =>
    simp only [step, cancel] at hstep
    split at hstep <;> cases hstep <;> exact h.move h.current rfl fun _ hx => by cases hx
  | close id reason =>
    simp only [step, Link.close] at hstep
    split_ifs at hstep <;> cases hstep
    exact ⟨h.current, h.senders⟩

/-- **Authenticated connections.** In every interleaving, a sender of Node1's sends over an authenticated connection. -/
theorem authenticated_of_run {as : List (LinkAction ℕ)} (hrun : Machine.run step init as = some s) {id : ℕ}
    (hsend : s.senders i = .send id) : s.authenticated id = true := by
  have hinv : Inv s := Machine.invariant (fun _ _ _ h hs => inv_step h hs) inv_init hrun
  exact hinv.senders i id (by rw [hsend]; rfl)

/-! ### Many connections -/

/-- The first connection was closed; `n` senders have made connections of their own, and the first `k` of these have put theirs
in. -/
def crowd (reason : CloseReason) (n k : ℕ) : Node1Link where
  current := k
  opened := n + 1
  closeReason id := if id = 0 then some reason else none
  lock := none
  senders i := if i < k then .send (i + 1) else if i < n then .relock (i + 1) else .idle
  closings := 1
  authenticated id := decide (id ≤ n)

variable {reason : CloseReason} {n k : ℕ}

theorem run_close : Machine.run step init [.close 0 reason] = some (crowd reason 0 0) := by
  have hreason : Function.update (fun _ => none) 0 (some reason) = fun id => if id = 0 then some reason else none := by
    funext id
    exact Function.update_apply ..
  simp only [Machine.run, step, Link.close]
  rw [if_pos (by decide)]
  simp [crowd, withLink, init, Link.init, hreason]

/-- Another sender finds the connection closed, and makes one. -/
theorem run_join : Machine.run step (crowd reason n 0) [.start n 0, .next n true, .next n true, .next n true, .next n true] =
    some (crowd reason (n + 1) 0) := by
  have hsenders : Function.update (fun i => if i < n then Node1Stage.relock (i + 1) else .idle) n (.relock (n + 1)) =
      fun i => if i < n + 1 then .relock (i + 1) else .idle := by
    funext i
    rw [Function.update_apply]
    split_ifs <;> first | omega | simp_all
  have hauthenticated : Function.update (fun id => decide (id ≤ n)) (n + 1) true = fun id => decide (id ≤ n + 1) := by
    funext id
    rw [Function.update_apply]
    split_ifs with hid
    · simp [hid]
    · exact decide_eq_decide.mpr (by omega)
  simp [Machine.run, step, next, begin, crowd, withLink, Link.setSender, Link.acquire, Link.release, Link.connect,
    Link.IsOpen, maxTxSize, hsenders, hauthenticated]

/-- The next sender puts its connection in. -/
theorem run_put (hk : k < n) : Machine.run step (crowd reason n k) [.next k true, .next k true] =
    some (crowd reason n (k + 1)) := by
  have hsenders : Function.update
      (fun i => if i < k then Node1Stage.send (i + 1) else if i < n then .relock (i + 1) else .idle) k (.send (k + 1)) =
        fun i => if i < k + 1 then .send (i + 1) else if i < n then .relock (i + 1) else .idle := by
    funext i
    rw [Function.update_apply]
    split_ifs <;> first | omega | simp_all
  simp [Machine.run, step, next, crowd, withLink, Link.setSender, Link.acquire, Link.release, Link.store, hk, hsenders]

theorem run_joins (reason : CloseReason) (n : ℕ) : ∃ as, Machine.run step init as = some (crowd reason n 0) := by
  induction n with
  | zero => exact ⟨_, run_close⟩
  | succ n ih =>
    obtain ⟨as, has⟩ := ih
    exact ⟨_, Machine.run_trans has run_join⟩

theorem run_puts (reason : CloseReason) (hk : k ≤ n) : ∃ as, Machine.run step (crowd reason n 0) as = some (crowd reason n k) := by
  induction k with
  | zero => exact ⟨[], rfl⟩
  | succ k ih =>
    obtain ⟨as, has⟩ := ih (Nat.le_of_succ_le hk)
    exact ⟨_, Machine.run_trans has (run_put hk)⟩

/-- **Many connections.** One closing, for whatever reason, can leave Node1's client with any number of connections: there is a
run in which `n` senders send at the same time, each over an open authenticated connection of its own. -/
theorem many_open (n : ℕ) (reason : CloseReason) : ∃ as s, Machine.run step init as = some s ∧ s.closings = 1 ∧
    ∀ i < n, s.senders i = .send (i + 1) ∧ s.IsOpen (i + 1) ∧ s.authenticated (i + 1) = true := by
  obtain ⟨as, has⟩ := run_joins reason n
  obtain ⟨as', has'⟩ := run_puts reason (Nat.le_refl n)
  refine ⟨as ++ as', crowd reason n n, Machine.run_trans has has', rfl, fun i hi => ⟨?_, ⟨?_, ?_⟩, ?_⟩⟩
  · exact if_pos hi
  · exact Nat.succ_lt_succ hi
  · show (if i + 1 = 0 then some reason else none) = none
    exact if_neg (Nat.succ_ne_zero i)
  · exact decide_eq_true hi

end Node1

end PumpSwapBot.Sdk
