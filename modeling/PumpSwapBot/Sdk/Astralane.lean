import PumpSwapBot.Sdk.Connections

/-!
# Astralane's client

`swqos/astralane_quic.rs`: the senders of a connection that is replaced under the lock, unless the server closed it with a
code. A reconnection that tries several addresses is one `await` here.

## What is proved

* `Astralane.one_open_of_run` — in every interleaving at most one connection is open.
* `Astralane.rejected_forever` — but one that was closed with a code is never replaced, and nothing is sent any more.
-/

namespace PumpSwapBot.Sdk

open PumpSwapBot.Library

/-! ### The machine -/

/-- What Astralane's client is asked for. -/
inductive AstralaneCall where
  /-- To send so many bytes. -/
  | sendTransaction (size : ℕ)
  | reconnect
  deriving DecidableEq

/-- Where a sender of Astralane's is. -/
inductive AstralaneStage where
  | idle
  /-- Waiting for the lock. -/
  | lock (call : AstralaneCall)
  /-- About to look whether the connection is closed. -/
  | check (call : AstralaneCall)
  | connect (call : AstralaneCall)
  /-- About to put in the connection it has made. -/
  | store (call : AstralaneCall) (id : ℕ)
  /-- About to take the connection. -/
  | load (call : AstralaneCall)
  | send (id : ℕ)
  | done (ok : Bool)
  deriving DecidableEq

/-- The greatest size of a transaction. -/
def maxTransactionSize : ℕ := 1232

namespace Astralane

/-- A sender that has the connection gives the lock back. -/
def leave (s : Link AstralaneStage) (i : ℕ) : AstralaneCall → Link AstralaneStage
  | .sendTransaction _ => s.release i (.send s.current)
  | .reconnect => s.release i (.done true)

/-- A sender goes on. -/
def next (s : Link AstralaneStage) (i : ℕ) (ok : Bool) : Option (Link AstralaneStage) :=
  match s.senders i with
  | .lock call => if s.lock = none then some (s.acquire i (.check call)) else none
  | .check call =>
    match s.closeReason s.current with
    | none => some (leave s i call)
    | some (.applicationClosed code) =>
      match call with
      -- `error_code::OK` is 0.
      | .sendTransaction _ => if code ≠ 0 then some (s.release i (.done false)) else some (s.setSender i (.connect call))
      | .reconnect => some (s.setSender i (.connect call))
    | some .other => some (s.setSender i (.connect call))
  | .connect call => if ok then some (s.connect i (.store call)) else some (s.release i (.done false))
  | .store call id => some (s.store i id (.load call))
  | .load call => some (leave s i call)
  | .send id =>
    if ok then
      if s.IsOpen id then some (s.setSender i (.done true)) else none
    else some (s.setSender i (.done false))
  | .idle | .done _ => none

/-- A sender is given up. -/
def cancel (s : Link AstralaneStage) (i : ℕ) : Option (Link AstralaneStage) :=
  match s.senders i with
  | .lock _ | .send _ => some (s.setSender i (.done false))
  | .connect _ => some (s.release i (.done false))
  | _ => none

/-- Where a call begins: what is too large is not sent. -/
def begin : AstralaneCall → AstralaneStage
  | .sendTransaction size => if maxTransactionSize < size then .done false else .lock (.sendTransaction size)
  | .reconnect => .lock .reconnect

/-- One step of the machine. -/
def step (s : Link AstralaneStage) : LinkAction AstralaneCall → Option (Link AstralaneStage)
  | .start i call =>
    match s.senders i with
    | .idle | .done _ => some (s.setSender i (begin call))
    | _ => none
  | .next i ok => next s i ok
  | .cancel i => cancel s i
  | .close id reason => s.close id reason

end Astralane

/-! ### The invariant -/

/-- What a sender has at a stage. -/
def AstralaneStage.guard : AstralaneStage → Guard
  | idle | lock _ | send _ | done _ => .nothing
  | check _ | load _ => .lock
  | connect _ => .connecting
  | store _ id => .made id

/-- The reason is a refusal: the server closed the connection with a code. -/
def CloseReason.Refused : CloseReason → Prop
  | applicationClosed code => code ≠ 0
  | other => False

/-- A sender does not replace a connection that was refused. -/
def AstralaneStage.Accepts : AstralaneStage → CloseReason → Prop
  | connect (.sendTransaction _), r | store (.sendTransaction _) _, r => ¬ r.Refused
  | _, _ => True

namespace Astralane

variable {s s' : Link AstralaneStage} {i : ℕ} {ok : Bool}

/-- Astralane's client connects under its lock. -/
abbrev Inv (s : Link AstralaneStage) : Prop := s.Guarded AstralaneStage.guard AstralaneStage.Accepts

theorem inv_leave (h : Inv s) (hi : (s.senders i).guard = .lock) (call : AstralaneCall) : Inv (leave s i call) := by
  cases call <;> exact h.release (.inl hi) rfl

theorem inv_next (h : Inv s) (hnext : next s i ok = some s') : Inv s' := by
  unfold next at hnext
  split at hnext
  next heq =>
    split_ifs at hnext with hfree
    cases hnext
    exact h.acquire hfree (by rw [heq]; rfl) rfl
  next call heq =>
    have hlock : (s.senders i).guard = .lock := by rw [heq]; rfl
    split at hnext
    next =>
      cases hnext
      exact inv_leave h hlock call
    next code hr =>
      cases call with
      | sendTransaction size =>
        simp only at hnext
        split_ifs at hnext with hcode <;> cases hnext
        · exact h.release (.inl hlock) rfl
        · exact h.replace hlock rfl hr hcode
      | reconnect =>
        cases hnext
        exact h.replace hlock rfl hr trivial
    next hr =>
      cases hnext
      refine h.replace hlock rfl hr ?_
      cases call
      · exact id
      · trivial
  next call heq =>
    split_ifs at hnext <;> cases hnext
    · refine h.connect (by rw [heq]; rfl) (fun _ => rfl) fun r hr => ?_
      rw [heq] at hr
      cases call <;> exact hr
    · exact h.release (by rw [heq]; exact .inr rfl) rfl
  next heq =>
    cases hnext
    exact h.store (by rw [heq]; rfl) rfl
  next call heq =>
    cases hnext
    exact inv_leave h (by rw [heq]; rfl) call
  next heq =>
    split_ifs at hnext <;> cases hnext <;> exact h.pass (by rw [heq]; rfl) rfl
  next => cases hnext
  next => cases hnext

theorem guard_begin (call : AstralaneCall) : (begin call).guard = .nothing := by
  cases call with
  | sendTransaction size =>
    simp only [begin]
    split_ifs <;> rfl
  | reconnect => rfl

theorem inv_step {a : LinkAction AstralaneCall} (h : Inv s) (hstep : step s a = some s') : Inv s' := by
  cases a with
  | start i call =>
    simp only [step] at hstep
    split at hstep
    next heq =>
      cases hstep
      exact h.pass (by rw [heq]; rfl) (guard_begin call)
    next heq =>
      cases hstep
      exact h.pass (by rw [heq]; rfl) (guard_begin call)
    next => cases hstep
  | next i ok => exact inv_next h hstep
  | cancel i =>
    simp only [step, cancel] at hstep
    split at hstep <;> cases hstep
    case h_3 heq => exact h.release (by rw [heq]; exact .inr rfl) rfl
    all_goals
      rename_i heq
      exact h.pass (by rw [heq]; rfl) rfl
  | close id reason => exact h.close hstep

theorem inv_of_run {as : List (LinkAction AstralaneCall)} (hrun : Machine.run step (Link.init .idle) as = some s) : Inv s :=
  Machine.invariant (fun _ _ _ h hs => inv_step h hs) (Link.guarded_init rfl) hrun

/-- **One connection.** What `Speedlanding.single_of_run` says holds of Astralane's senders too. -/
theorem one_open_of_run {as : List (LinkAction AstralaneCall)} (hrun : Machine.run step (Link.init .idle) as = some s) :
    (∀ a b, s.IsOpen a → s.IsOpen b → a = b) ∧ s.opened ≤ s.closings + 1 :=
  ⟨fun _ _ ha hb => (inv_of_run hrun).single ha hb, (inv_of_run hrun).opened⟩

/-! ### Refusals -/

end Astralane

/-- The call a sender is busy with, until it sends. -/
def AstralaneStage.call : AstralaneStage → Option AstralaneCall
  | lock call | check call | connect call | store call _ | load call => some call
  | _ => none

namespace Astralane

/-- The client's connection was refused and is the one of `s₀`; no sender was asked to replace it, and none has sent since. -/
structure Rejected (s₀ s : Link AstralaneStage) : Prop where
  refused : ∃ r, s.closeReason s.current = some r ∧ r.Refused
  current : s.current = s₀.current
  opened : s.opened = s₀.opened
  senders : ∀ i, (s.senders i).call ≠ some .reconnect ∧ (s.senders i = .done true → s₀.senders i = .done true)

variable {s₀ : Link AstralaneStage}

theorem Rejected.move {lock : Option ℕ} {x : AstralaneStage} (h : Rejected s₀ s) (hcall : x.call ≠ some .reconnect)
    (hdone : x ≠ .done true) : Rejected s₀ { s.setSender i x with lock := lock } where
  refused := h.refused
  current := h.current
  opened := h.opened
  senders := (Function.forall_update_iff s.senders
    fun j y => y.call ≠ some .reconnect ∧ (y = .done true → s₀.senders j = .done true)).mpr
      ⟨⟨hcall, fun hx => (hdone hx).elim⟩, fun j _ => h.senders j⟩

/-- Nobody replaces the connection. -/
theorem Rejected.not_replaces (hinv : Inv s) (h : Rejected s₀ s) (i : ℕ) : ¬ (s.senders i).guard.Replaces := by
  intro hreplaces
  obtain ⟨r, hr, haccepts⟩ := hinv.closed i hreplaces
  obtain ⟨r', hr', hrefused⟩ := h.refused
  obtain rfl : r = r' := Option.some.inj (hr.symm.trans hr')
  have hcall := (h.senders i).1
  cases hx : s.senders i <;> rw [hx] at hreplaces haccepts hcall
  case connect call | store call _ =>
    cases call with
    | sendTransaction size => exact haccepts hrefused
    | reconnect => exact hcall rfl
  all_goals exact hreplaces

/-- No connection is open. -/
theorem Rejected.not_open (hinv : Inv s) (h : Rejected s₀ s) (id : ℕ) : ¬ s.IsOpen id := by
  intro hid
  obtain rfl | ⟨i, hi⟩ := hinv.known id hid
  · obtain ⟨r, hr, -⟩ := h.refused
    rw [hid.2] at hr
    cases hr
  · exact h.not_replaces hinv i (by rw [hi]; trivial)

theorem rejected_next (hinv : Inv s) (h : Rejected s₀ s) (hnext : next s i ok = some s') : Rejected s₀ s' := by
  have hcall := (h.senders i).1
  have hreplaces := h.not_replaces hinv i
  unfold next at hnext
  split at hnext
  next call heq =>
    split_ifs at hnext
    cases hnext
    rw [heq] at hcall
    exact h.move hcall AstralaneStage.noConfusion
  next call heq =>
    rw [heq] at hcall
    obtain ⟨r, hr, hrefused⟩ := h.refused
    cases call with
    | sendTransaction size =>
      cases r with
      | applicationClosed code =>
        simp only [hr] at hnext
        rw [if_pos (show code ≠ 0 from hrefused)] at hnext
        cases hnext
        exact h.move (by simp [AstralaneStage.call]) (by simp)
      | other => exact hrefused.elim
    | reconnect => exact (hcall rfl).elim
  next heq =>
    rw [heq] at hreplaces
    exact (hreplaces trivial).elim
  next heq =>
    rw [heq] at hreplaces
    exact (hreplaces trivial).elim
  next call heq =>
    rw [heq] at hcall
    cases hnext
    cases call with
    | sendTransaction size => exact h.move (by simp [AstralaneStage.call]) AstralaneStage.noConfusion
    | reconnect => exact (hcall rfl).elim
  next id heq =>
    split_ifs at hnext with hok hopen
    · exact (h.not_open hinv id hopen).elim
    · cases hnext
      exact h.move (by simp [AstralaneStage.call]) (by simp)
  next => cases hnext
  next => cases hnext

theorem rejected_step {a : LinkAction AstralaneCall} (hinv : Inv s) (h : Rejected s₀ s) (ha : ∀ i, a ≠ .start i .reconnect)
    (hstep : step s a = some s') : Rejected s₀ s' := by
  cases a with
  | start i call =>
    have hbegin : (begin call).call ≠ some .reconnect ∧ begin call ≠ .done true := by
      cases call with
      | sendTransaction size =>
        simp only [begin]
        split_ifs <;> simp [AstralaneStage.call]
      | reconnect => exact (ha i rfl).elim
    simp only [step] at hstep
    split at hstep <;> cases hstep <;> exact h.move hbegin.1 hbegin.2
  | next i ok => exact rejected_next hinv h hstep
  | cancel i =>
    simp only [step, cancel] at hstep
    split at hstep <;> cases hstep <;> exact h.move (by simp [AstralaneStage.call]) (by simp)
  | close id reason =>
    simp only [step, Link.close] at hstep
    split_ifs at hstep with hopen
    exact (h.not_open hinv id hopen).elim

/-- **A refusal is for ever.** When the server has closed the client's connection with a code, the connection stays the client's
whatever the senders do, no other is made, and no sender sends any more, unless it is asked to reconnect. -/
theorem rejected_forever {as as' : List (LinkAction AstralaneCall)} {code : ℕ}
    (hrun : Machine.run step (Link.init .idle) as = some s)
    (hclosed : s.closeReason s.current = some (.applicationClosed code)) (hcode : code ≠ 0)
    (hcall : ∀ i, (s.senders i).call ≠ some .reconnect) (hrun' : Machine.run step s as' = some s')
    (hnever : ∀ i, LinkAction.start i .reconnect ∉ as') :
    s'.current = s.current ∧ s'.opened = s.opened ∧ ∀ i, s'.senders i = .done true → s.senders i = .done true := by
  have hrejected : Rejected s s := ⟨⟨_, hclosed, hcode⟩, rfl, rfl, fun i => ⟨hcall i, id⟩⟩
  have hasked : Machine.Along step (fun _ a => ∀ i, a ≠ LinkAction.start i .reconnect) s as' :=
    Machine.along_of_forall (fun a ha _ i hai => hnever i (by rwa [← hai])) s
  obtain ⟨-, hend⟩ := Machine.invariant_along (I := fun u => Inv u ∧ Rejected s u)
    (fun _ _ _ h ha hs => ⟨inv_step h.1 hs, rejected_step h.1 h.2 ha hs⟩) ⟨inv_of_run hrun, hrejected⟩ hasked hrun'
  exact ⟨hend.current, hend.opened, fun i => (hend.senders i).2⟩

end Astralane

section Sample

/-- A sender of Astralane's reconnects when the connection is lost. -/
def lost : List (LinkAction AstralaneCall) :=
  [.close 0 .other, .start 0 (.sendTransaction 1232), .next 0 true, .next 0 true, .next 0 true, .next 0 true, .next 0 true]

theorem Astralane.one_open_of_run_lost : ∃ s, Machine.run Astralane.step (Link.init .idle) lost = some s ∧
    s.senders 0 = .send 1 ∧ ∀ a, s.IsOpen a → a = 1 := by
  have hsome : (Machine.run Astralane.step (Link.init .idle) lost).map (fun s => (s.senders 0, decide (s.IsOpen 1))) =
      some (.send 1, true) := by decide +kernel
  obtain ⟨s, hrun, hs⟩ := Option.map_eq_some_iff.mp hsome
  simp only [Prod.mk.injEq, decide_eq_true_eq] at hs
  exact ⟨s, hrun, hs.1, fun a ha => (Astralane.one_open_of_run hrun).1 a 1 ha hs.2⟩

/-- The server closes the connection, because it has too many of this client's. -/
def tooMany : List (LinkAction AstralaneCall) := [.close 0 (.applicationClosed 2)]

/-- A sender comes. -/
def laterSend : List (LinkAction AstralaneCall) := [.start 0 (.sendTransaction 1232), .next 0 true, .next 0 true]

/-- Then the client has this. -/
def refused : Link AstralaneStage :=
  { Link.init .idle with closeReason := Function.update (fun _ => none) 0 (some (.applicationClosed 2)), closings := 1 }

theorem Astralane.rejected_forever_tooMany : ∃ s, Machine.run Astralane.step (Link.init .idle) tooMany = some refused ∧
    Machine.run Astralane.step refused laterSend = some s ∧ s.opened = 1 ∧ s.senders 0 ≠ .done true := by
  have hclose : Machine.run Astralane.step (Link.init .idle) tooMany = some refused := rfl
  have hrefused : refused.closeReason refused.current = some (.applicationClosed 2) := rfl
  have hsome : (Machine.run Astralane.step refused laterSend).isSome := rfl
  obtain ⟨s, hrun⟩ := Option.isSome_iff_exists.mp hsome
  obtain ⟨-, hopened, hdone⟩ := Astralane.rejected_forever hclose hrefused (by decide) (by simp [refused, Link.init, AstralaneStage.call])
    hrun (by simp [laterSend])
  exact ⟨s, hclose, hrun, hopened, fun h => AstralaneStage.noConfusion (hdone 0 h)⟩

end Sample

end PumpSwapBot.Sdk
