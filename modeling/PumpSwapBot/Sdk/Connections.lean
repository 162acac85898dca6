import PumpSwapBot.Library.Machine
import PumpSwapBot.Library.Mutex

/-!
# Connections that senders share

The QUIC clients (`swqos/speedlanding.rs`, `swqos/astralane_quic.rs`, `swqos/node1_quic.rs`) send over a connection that their
senders share. When it is closed, a sender makes a new one. The client has a lock for this: Speedlanding's and Astralane's
senders have the lock while they connect, Node1's give it back before and take it again to put the connection in.

## The model

Connections are numbered as they are made. A sender goes from one access of what is shared, or one `await`, to the next; the
outcome of an `await` is part of the action (`next`), a timeout being a failure. A connection may be closed at any time, by
either side or because nobody refers to it any more (`close`), and a sender may be given up at an `await` (`cancel`). Nothing is
sent over a closed connection. The number of closings is kept beside what the source has.

This module has Speedlanding's client; `Sdk.Astralane` and `Sdk.Node1` have the others.

## What is proved

* `Guarded.single` — a client that connects under its lock, and only after it has seen there that the connection is closed, has
  at most one open connection.
* `Speedlanding.single_of_run` — so Speedlanding's has in every interleaving, and no more connections have been made than were
  closed, and one.
-/

namespace PumpSwapBot.Sdk

open PumpSwapBot.Library

/-- Why a connection is closed. -/
inductive CloseReason where
  /-- The server closed it, with a code. -/
  | applicationClosed (code : ℕ)
  | other
  deriving DecidableEq

/-- What the senders of a client share, and where they are. -/
structure Link (σ : Type) where
  /-- The connection of the client. -/
  current : ℕ
  /-- How many there have been. -/
  opened : ℕ
  closeReason : ℕ → Option CloseReason
  /-- Who has the lock. -/
  lock : Option ℕ
  senders : ℕ → σ
  /-- How many have been closed (history). -/
  closings : ℕ

/-- What happens next. -/
inductive LinkAction (κ : Type) where
  | start (i : ℕ) (call : κ)
  /-- A sender goes on; what it waited for has come about, or it has failed. -/
  | next (i : ℕ) (ok : Bool)
  | cancel (i : ℕ)
  | close (id : ℕ) (reason : CloseReason)

namespace Link

variable {σ : Type}

/-- The client has just connected, and nobody sends. -/
def init (idle : σ) : Link σ := ⟨0, 1, fun _ => none, none, fun _ => idle, 0⟩

/-- The connection has been made and is not closed. -/
def IsOpen (s : Link σ) (id : ℕ) : Prop := id < s.opened ∧ s.closeReason id = none

instance (s : Link σ) (id : ℕ) : Decidable (s.IsOpen id) := inferInstanceAs (Decidable (_ ∧ _))

/-- Put a sender somewhere. -/
def setSender (s : Link σ) (i : ℕ) (x : σ) : Link σ := { s with senders := Function.update s.senders i x }

@[simp] theorem setSender_self {s : Link σ} {i : ℕ} {x : σ} : (s.setSender i x).senders i = x := Function.update_self ..

theorem setSender_of_ne {s : Link σ} {i j : ℕ} {x : σ} (h : j ≠ i) : (s.setSender i x).senders j = s.senders j :=
  Function.update_of_ne h ..

/-- A sender takes the lock. -/
def acquire (s : Link σ) (i : ℕ) (x : σ) : Link σ := { s.setSender i x with lock := some i }

/-- A sender gives the lock back. -/
def release (s : Link σ) (i : ℕ) (x : σ) : Link σ := { s.setSender i x with lock := none }

/-- A sender has made a connection. -/
def connect (s : Link σ) (i : ℕ) (x : ℕ → σ) : Link σ := { s.setSender i (x s.opened) with opened := s.opened + 1 }

/-- A sender makes a connection the client's. -/
def store (s : Link σ) (i id : ℕ) (x : σ) : Link σ := { s.setSender i x with current := id }

/-- A connection is closed; one that is closed already stays as it is. -/
def close (s : Link σ) (id : ℕ) (reason : CloseReason) : Option (Link σ) :=
  if s.IsOpen id then
    some { s with closeReason := Function.update s.closeReason id (some reason), closings := s.closings + 1 }
  else none

end Link

/-! ### A client that connects under its lock -/

/-- What a sender has. -/
inductive Guard where
  | nothing
  | lock
  /-- The lock, while the connection is closed. -/
  | connecting
  /-- The lock, and a new connection. -/
  | made (id : ℕ)

/-- The sender replaces the connection. -/
def Guard.Replaces : Guard → Prop
  | connecting | made _ => True
  | _ => False

theorem Guard.ne_nothing {g : Guard} (h : g.Replaces) : g ≠ nothing := by
  rintro rfl
  exact h

namespace Link

variable {σ : Type} {guard : σ → Guard} {accepts : σ → CloseReason → Prop} {s s' : Link σ} {i a b : ℕ} {x : σ}

/-- What holds of a client that connects under its lock, and only when the connection is closed for a reason that the sender
accepts. -/
structure Guarded (guard : σ → Guard) (accepts : σ → CloseReason → Prop) (s : Link σ) : Prop where
  owned : Mutex.Owned (fun x => guard x ≠ .nothing) s.lock s.senders
  closed : ∀ i, (guard (s.senders i)).Replaces → ∃ r, s.closeReason s.current = some r ∧ accepts (s.senders i) r
  known : ∀ id, s.IsOpen id → id = s.current ∨ ∃ i, guard (s.senders i) = .made id
  fresh : ∀ id, s.opened ≤ id → s.closeReason id = none
  opened : s.opened ≤ s.closings + 1
  replaced : (∀ id, ¬ s.IsOpen id) → s.opened ≤ s.closings

theorem guarded_init {idle : σ} (hidle : guard idle = .nothing) : Guarded guard accepts (init idle) where
  owned := .free fun _ h => h hidle
  closed _ h := (Guard.ne_nothing h hidle).elim
  known _ h := .inl (Nat.lt_one_iff.mp h.1)
  fresh _ _ := rfl
  opened := Nat.le_refl 1
  replaced h := (h 0 ⟨Nat.one_pos, rfl⟩).elim

/-- While a sender replaces the connection, none is open but one it has made. -/
theorem Guarded.made_of_replaces (h : Guarded guard accepts s) (hi : (guard (s.senders i)).Replaces) (ha : s.IsOpen a) :
    guard (s.senders i) = .made a := by
  obtain rfl | ⟨j, hj⟩ := h.known a ha
  · obtain ⟨r, hr, -⟩ := h.closed i hi
    rw [ha.2] at hr
    cases hr
  · have hne : guard (s.senders j) ≠ .nothing := by
      rw [hj]
      exact Guard.noConfusion
    obtain rfl : j = i := h.owned.exclusive hne (Guard.ne_nothing hi)
    exact hj

/-- **At most one connection is open.** -/
theorem Guarded.single (h : Guarded guard accepts s) (ha : s.IsOpen a) (hb : s.IsOpen b) : a = b := by
  have hmade : ∀ {i id id'}, guard (s.senders i) = .made id → s.IsOpen id' → id = id' := by
    intro i id id' hi hid
    have hi' := h.made_of_replaces (i := i) (by rw [hi]; trivial) hid
    rw [hi] at hi'
    exact Guard.made.inj hi'
  obtain rfl | ⟨i, hi⟩ := h.known a ha
  · obtain rfl | ⟨i, hi⟩ := h.known b hb
    · rfl
    · exact (hmade hi ha).symm
  · exact hmade hi hb

/-- A sender without a new connection goes somewhere, and the lock with it. -/
theorem Guarded.move {lock : Option ℕ} (h : Guarded guard accepts s)
    (howned : Mutex.Owned (fun x => guard x ≠ .nothing) lock (Function.update s.senders i x))
    (hclosed : (guard x).Replaces → ∃ r, s.closeReason s.current = some r ∧ accepts x r)
    (hmade : ∀ id, guard (s.senders i) ≠ .made id) : Guarded guard accepts { s.setSender i x with lock := lock } where
  owned := howned
  closed := (Function.forall_update_iff s.senders
    fun _ y => (guard y).Replaces → ∃ r, s.closeReason s.current = some r ∧ accepts y r).mpr
      ⟨hclosed, fun j _ => h.closed j⟩
  known id hid := (h.known id hid).imp_right fun ⟨j, hj⟩ => by
    have hji : j ≠ i := by
      rintro rfl
      exact hmade id hj
    exact ⟨j, (congrArg guard (setSender_of_ne hji)).trans hj⟩
  fresh := h.fresh
  opened := h.opened
  replaced := h.replaced

/-- A sender goes on without the lock. -/
theorem Guarded.pass (h : Guarded guard accepts s) (hi : guard (s.senders i) = .nothing) (hx : guard x = .nothing) :
    Guarded guard accepts (s.setSender i x) :=
  h.move (h.owned.stay (by rw [hi, hx])) (fun hr => (Guard.ne_nothing hr hx).elim) (by simp [hi])

/-- A sender with the lock finds the connection closed. -/
theorem Guarded.replace {r : CloseReason} (h : Guarded guard accepts s) (hi : guard (s.senders i) = .lock)
    (hx : guard x = .connecting) (hr : s.closeReason s.current = some r) (haccepts : accepts x r) :
    Guarded guard accepts (s.setSender i x) :=
  h.move (h.owned.stay (by simp [hi, hx])) (fun _ => ⟨r, hr, haccepts⟩) (by simp [hi])

theorem Guarded.acquire (h : Guarded guard accepts s) (hfree : s.lock = none) (hi : guard (s.senders i) = .nothing)
    (hx : guard x = .lock) : Guarded guard accepts (s.acquire i x) := by
  have howned := h.owned
  rw [hfree] at howned
  exact h.move (howned.acquire (by simp [hx])) (fun hr => by rw [hx] at hr; exact hr.elim) (by simp [hi])

theorem Guarded.release (h : Guarded guard accepts s) (hi : guard (s.senders i) = .lock ∨ guard (s.senders i) = .connecting)
    (hx : guard x = .nothing) : Guarded guard accepts (s.release i x) := by
  obtain hi | hi := hi <;>
    exact h.move (h.owned.release (by simp [hi]) fun hne => hne hx) (fun hr => (Guard.ne_nothing hr hx).elim) (by simp [hi])

/-- A sender makes a connection. -/
theorem Guarded.connect {x : ℕ → σ} (h : Guarded guard accepts s) (hi : guard (s.senders i) = .connecting)
    (hx : ∀ id, guard (x id) = .made id) (haccepts : ∀ r, accepts (s.senders i) r → accepts (x s.opened) r) :
    Guarded guard accepts (s.connect i x) := by
  have hreplaces : (guard (s.senders i)).Replaces := by
    rw [hi]
    trivial
  have hnone : ∀ id, ¬ s.IsOpen id := by
    intro id hid
    have hmade := h.made_of_replaces hreplaces hid
    rw [hi] at hmade
    cases hmade
  have hopen : (s.connect i x).IsOpen s.opened := ⟨Nat.lt_succ_self _, h.fresh _ le_rfl⟩
  refine
    { owned := h.owned.stay (by simp [hx, hi])
      closed := ?_
      known := fun id hid => .inr ⟨i, ?_⟩
      fresh := fun id hid => h.fresh id (Nat.le_of_succ_le hid)
      opened := Nat.succ_le_succ (h.replaced hnone)
      replaced := fun hn => (hn _ hopen).elim }
  · refine (Function.forall_update_iff s.senders
      fun _ y => (guard y).Replaces → ∃ r, s.closeReason s.current = some r ∧ accepts y r).mpr
        ⟨fun _ => ?_, fun j _ => h.closed j⟩
    obtain ⟨r, hr, hacc⟩ := h.closed i hreplaces
    exact ⟨r, hr, haccepts r hacc⟩
  · -- None was open before.
    have hid' : id = s.opened := by
      rcases Nat.lt_succ_iff_lt_or_eq.mp hid.1 with hlt | heq
      · exact (hnone id ⟨hlt, hid.2⟩).elim
      · exact heq
    rw [hid', ← hx s.opened]
    exact congrArg guard setSender_self

/-- A sender makes its connection the client's. -/
theorem Guarded.store {id : ℕ} (h : Guarded guard accepts s) (hi : guard (s.senders i) = .made id) (hx : guard x = .lock) :
    Guarded guard accepts (s.store i id x) := by
  have hreplaces : (guard (s.senders i)).Replaces := by
    rw [hi]
    trivial
  refine
    { owned := h.owned.stay (by simp [hx, hi])
      closed := fun j hj => ?_
      known := fun a ha => .inl ?_
      fresh := h.fresh
      opened := h.opened
      replaced := h.replaced }
  · change (guard ((s.setSender i x).senders j)).Replaces at hj
    by_cases hji : j = i
    · subst hji
      rw [setSender_self, hx] at hj
      exact hj.elim
    · rw [setSender_of_ne hji] at hj
      exact (hji (h.owned.exclusive (Guard.ne_nothing hj) (Guard.ne_nothing hreplaces))).elim
  · have hmade := h.made_of_replaces hreplaces ha
    rw [hi] at hmade
    exact (Guard.made.inj hmade).symm

theorem Guarded.close {id : ℕ} {reason : CloseReason} (h : Guarded guard accepts s) (hclose : s.close id reason = some s') :
    Guarded guard accepts s' := by
  unfold Link.close at hclose
  split_ifs at hclose with hopen
  cases hclose
  have hother : ∀ {a}, Function.update s.closeReason id (some reason) a = none → s.closeReason a = none := by
    intro a ha
    by_cases haid : a = id
    · subst haid
      rw [Function.update_self] at ha
      cases ha
    · rwa [Function.update_of_ne haid] at ha
  exact
    { owned := h.owned
      closed := fun j hj => by
        obtain ⟨r, hr, hacc⟩ := h.closed j hj
        refine ⟨r, ?_, hacc⟩
        have hne : s.current ≠ id := by
          rintro rfl
          rw [hopen.2] at hr
          cases hr
        show Function.update s.closeReason id (some reason) s.current = some r
        rw [Function.update_of_ne hne, hr]
      known := fun a ha => h.known a ⟨ha.1, hother ha.2⟩
      fresh := fun a ha => by
        show Function.update s.closeReason id (some reason) a = none
        rw [Function.update_of_ne (Nat.lt_of_lt_of_le hopen.1 ha).ne', h.fresh a ha]
      opened := Nat.le_succ_of_le h.opened
      replaced := fun _ => h.opened }

end Link

/-! ### Speedlanding -/

/-- Where a sender of Speedlanding's is. -/
inductive SpeedlandingStage where
  | idle
  /-- Waiting for the lock, for the first or the second attempt. -/
  | lock (retry : Bool)
  /-- About to look whether the connection is closed. -/
  | check (retry : Bool)
  /-- Waiting for the lock again. -/
  | relock (retry : Bool)
  /-- About to look again. -/
  | recheck (retry : Bool)
  | connect (retry : Bool)
  /-- About to put in the connection it has made. -/
  | store (retry : Bool) (id : ℕ)
  /-- About to load it. -/
  | load (retry : Bool)
  | send (retry : Bool) (id : ℕ)
  | done (ok : Bool)
  deriving DecidableEq

namespace Speedlanding

/-- A sender goes on. -/
def next (s : Link SpeedlandingStage) (i : ℕ) (ok : Bool) : Option (Link SpeedlandingStage) :=
  match s.senders i with
  | .lock retry => if s.lock = none then some (s.acquire i (.check retry)) else none
  | .check retry =>
    match s.closeReason s.current with
    | none => some (s.release i (.send retry s.current))
    | some _ => some (s.release i (.relock retry))
  | .relock retry => if s.lock = none then some (s.acquire i (.recheck retry)) else none
  | .recheck retry =>
    match s.closeReason s.current with
    | none => some (s.release i (.send retry s.current))
    | some _ => some (s.setSender i (.connect retry))
  | .connect retry => if ok then some (s.connect i (.store retry)) else some (s.release i (.done false))
  | .store retry id => some (s.store i id (.load retry))
  | .load retry => some (s.release i (.send retry s.current))
  | .send retry id =>
    if ok then
      if s.IsOpen id then some (s.setSender i (.done true)) else none
    else some (s.setSender i (if retry then .done false else .lock true))
  | .idle | .done _ => none

/-- A sender is given up. -/
def cancel (s : Link SpeedlandingStage) (i : ℕ) : Option (Link SpeedlandingStage) :=
  match s.senders i with
  | .lock _ | .relock _ | .send _ _ => some (s.setSender i (.done false))
  | .connect _ => some (s.release i (.done false))
  | _ => none

/-- One step of the machine. -/
def step (s : Link SpeedlandingStage) : LinkAction Unit → Option (Link SpeedlandingStage)
  | .start i _ =>
    match s.senders i with
    | .idle | .done _ => some (s.setSender i (.lock false))
    | _ => none
  | .next i ok => next s i ok
  | .cancel i => cancel s i
  | .close id reason => s.close id reason

end Speedlanding

/-! ### Speedlanding's invariant -/

/-- What a sender has at a stage. -/
def SpeedlandingStage.guard : SpeedlandingStage → Guard
  | idle | lock _ | relock _ | send _ _ | done _ => .nothing
  | check _ | recheck _ | load _ => .lock
  | connect _ => .connecting
  | store _ id => .made id

namespace Speedlanding

variable {s s' : Link SpeedlandingStage} {i : ℕ} {ok : Bool}

/-- Speedlanding's client connects under its lock, for any reason. -/
abbrev Inv (s : Link SpeedlandingStage) : Prop := s.Guarded SpeedlandingStage.guard fun _ _ => True

theorem inv_next (h : Inv s) (hnext : next s i ok = some s') : Inv s' := by
  unfold next at hnext
  split at hnext
  next heq =>
    split_ifs at hnext with hfree
    cases hnext
    exact h.acquire hfree (by rw [heq]; rfl) rfl
  next heq =>
    split at hnext <;> cases hnext <;> exact h.release (by rw [heq]; exact .inl rfl) rfl
  next heq =>
    split_ifs at hnext with hfree
    cases hnext
    exact h.acquire hfree (by rw [heq]; rfl) rfl
  next heq =>
    split at hnext
    next =>
      cases hnext
      exact h.release (by rw [heq]; exact .inl rfl) rfl
    next r hr =>
      cases hnext
      exact h.replace (by rw [heq]; rfl) rfl hr trivial
  next heq =>
    split_ifs at hnext <;> cases hnext
    · exact h.connect (by rw [heq]; rfl) (fun _ => rfl) fun _ _ => trivial
    · exact h.release (by rw [heq]; exact .inr rfl) rfl
  next heq =>
    cases hnext
    exact h.store (by rw [heq]; rfl) rfl
  next heq =>
    cases hnext
    exact h.release (by rw [heq]; exact .inl rfl) rfl
  next heq =>
    split_ifs at hnext <;> cases hnext <;> exact h.pass (by rw [heq]; rfl) rfl
  next => cases hnext
  next => cases hnext

theorem inv_step {a : LinkAction Unit} (h : Inv s) (hstep : step s a = some s') : Inv s' := by
  cases a with
  | start i _ =>
    simp only [step] at hstep
    split at hstep
    next heq =>
      cases hstep
      exact h.pass (by rw [heq]; rfl) rfl
    next heq =>
      cases hstep
      exact h.pass (by rw [heq]; rfl) rfl
    next => cases hstep
  | next i ok => exact inv_next h hstep
  | cancel i =>
    simp only [step, cancel] at hstep
    split at hstep <;> cases hstep
    case h_4 heq => exact h.release (by rw [heq]; exact .inr rfl) rfl
    all_goals
      rename_i heq
      exact h.pass (by rw [heq]; rfl) rfl
  | close id reason => exact h.close hstep

/-- **One connection.** In every interleaving of Speedlanding's senders, closings and failures, at most one connection is open,
and no more connections have been made than were closed, and the first. -/
theorem single_of_run {as : List (LinkAction Unit)} (hrun : Machine.run step (Link.init .idle) as = some s) :
    (∀ a b, s.IsOpen a → s.IsOpen b → a = b) ∧ s.opened ≤ s.closings + 1 := by
  have hinv : Inv s := Machine.invariant (fun _ _ _ h hs => inv_step h hs) (Link.guarded_init rfl) hrun
  exact ⟨fun _ _ ha hb => hinv.single ha hb, hinv.opened⟩

end Speedlanding

section Sample

/-- The first of two senders of Speedlanding's that find the connection closed makes another one. -/
def oneConnects : List (LinkAction Unit) :=
  [.start 0 (), .start 1 (), .close 0 .other, .next 0 true, .next 0 true, .next 1 true, .next 1 true, .next 0 true, .next 0 true,
    .next 0 true, .next 0 true, .next 0 true, .next 1 true, .next 1 true]

theorem Speedlanding.single_of_run_oneConnects : ∃ s, Machine.run Speedlanding.step (Link.init .idle) oneConnects = some s ∧
    s.senders 0 = .send false 1 ∧ s.senders 1 = .send false 1 ∧ ∀ a, s.IsOpen a → a = 1 := by
  have hsome : (Machine.run Speedlanding.step (Link.init .idle) oneConnects).map (fun s =>
      (s.senders 0, s.senders 1, decide (s.IsOpen 1))) = some (.send false 1, .send false 1, true) := by decide +kernel
  obtain ⟨s, hrun, hs⟩ := Option.map_eq_some_iff.mp hsome
  simp only [Prod.mk.injEq, decide_eq_true_eq] at hs
  obtain ⟨h0, h1, hopen⟩ := hs
  exact ⟨s, hrun, h0, h1, fun a ha => (Speedlanding.single_of_run hrun).1 a 1 ha hopen⟩

end Sample

end PumpSwapBot.Sdk
