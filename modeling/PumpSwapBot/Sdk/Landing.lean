import PumpSwapBot.Sdk.Transaction
import PumpSwapBot.Sdk.Wakeups

/-!
# A buy lands at most once

`execute_parallel` sends one trade through several channels, as several transactions with different fees, and any of
them may reach the chain. What keeps a buy from being made several times is one guard of
`trading/core/async_executor.rs`: more than one transaction needs a durable nonce.

## The model

* The jobs of a call share one context (`SwqosSharedContext`); each builds its transaction from it and from its own
  fees, as in `Sdk.Transaction`. Which of them is sent, when and how often is left open.
* The chain is what Solana documents of it. A transaction whose first instruction advances a nonce needs the value the
  account holds, and whether it succeeds or not, the account then holds a value it never held before; any other one
  needs the hash of a recent block and must not have been processed yet. What others do, transactions with the
  same nonce included, are steps of the same machine.
* A nonce account is not closed and opened again.

## What is proved

* `buy_lands_once` — in every history of the chain, at most one of the transactions of a buy is processed, once.
* `lands_once_iff` — sells have no such guard: without a nonce, two different transactions of one sell can both be
  processed.
-/

namespace PumpSwapBot.Sdk

open PumpSwapBot.Library

/-! ### The transactions of a call -/

/-- What the jobs of a call share. -/
structure SwqosSharedContext where
  payer : Pubkey
  instructions : List Instruction
  recentBlockhash : Option Hash
  durableNonce : Option DurableNonceInfo
  middlewareManager : Option (List InstructionMiddleware)
  protocolName : String
  isBuy : Bool
  withTip : Bool

/-- The account a job's tip goes to; a text that is no address counts as the address of zeros. -/
def Task.tipAccount (t : Task) : Result Pubkey := do
  let s ← orFail t.client.tipAccount
  return (Pubkey.fromStr s).getD .default

namespace SwqosSharedContext

/-- The context of a trade. -/
def ofParams (params : SwapParams) (instructions : List Instruction) (middlewareManager : Option (List InstructionMiddleware))
    (protocolName : String) (isBuy withTip : Bool) : SwqosSharedContext where
  payer := params.payer
  instructions
  recentBlockhash := params.recentBlockhash
  durableNonce := params.durableNonce
  middlewareManager
  protocolName
  isBuy
  withTip

variable (shared : SwqosSharedContext)

/-- What a job builds. -/
def request (t : Task) (tipAccount : Pubkey) : BuildRequest where
  payer := shared.payer
  unitLimit := t.config.2.2.cuLimit
  unitPrice := t.config.2.2.cuPrice
  businessInstructions := shared.instructions
  recentBlockhash := shared.recentBlockhash
  middlewareManager := shared.middlewareManager
  protocolName := shared.protocolName
  isBuy := shared.isBuy
  withTip := t.client.swqosType ≠ .default
  tipAccount
  tipAmount := if shared.withTip then t.config.2.2.tip else 0
  durableNonce := shared.durableNonce

/-- The transaction of a job. -/
def transaction (sign : Message → Signature) (t : Task) : Result Transaction := do
  let tipAccount ← t.tipAccount
  buildTransaction sign (shared.request t tipAccount)

/-- The transactions of a call. -/
def transactions (sign : Message → Signature) (tasks : List Task) : List Transaction :=
  tasks.filterMap fun t => (shared.transaction sign t).toOption

end SwqosSharedContext

/-! ### The chain -/

/-- The nonce account a transaction of these instructions advances first. -/
def nonceAccountOf : List Instruction → Option Pubkey
  | [] => none
  | i :: _ => if i.programId = systemProgram ∧ i.data.take 4 = leBytes 4 4 then i.accounts.head?.map (·.pubkey) else none

/-- What the chain knows. -/
structure Chain where
  /-- The values each nonce account has held, the present one first. -/
  held : Pubkey → List Hash
  /-- None of them twice. -/
  nodup : ∀ a, (held a).Nodup
  /-- The hashes of recent blocks. -/
  recent : List Hash
  /-- The transactions processed, the last one first. -/
  processed : List Transaction

/-- What happens on the chain. -/
inductive ChainAction where
  /-- A transaction is processed; a nonce it advances gets the value `next`. -/
  | process (t : Transaction) (next : Hash)
  /-- A nonce is advanced in some other way. -/
  | advance (a : Pubkey) (next : Hash)
  /-- Other blocks are the recent ones now. -/
  | blocks (recent : List Hash)

namespace Chain

/-- Give a nonce account a value it has not held. -/
def advanceNonce (c : Chain) (a : Pubkey) (next : Hash) (h : next ∉ c.held a) : Chain :=
  { c with
    held := Function.update c.held a (next :: c.held a)
    nodup := by
      intro a'
      by_cases ha : a' = a
      · subst ha
        rw [Function.update_self]
        exact List.nodup_cons.mpr ⟨h, c.nodup a'⟩
      · rw [Function.update_of_ne ha]
        exact c.nodup a' }

/-- One step of the chain. -/
def step (c : Chain) : ChainAction → Option Chain
  | .process t next =>
    match nonceAccountOf t.message.instructions with
    | some a =>
      if h : (c.held a).head? = some t.message.recentBlockhash ∧ next ∉ c.held a then
        some { c.advanceNonce a next h.2 with processed := t :: c.processed }
      else none
    | none =>
      if t.message.recentBlockhash ∈ c.recent ∧ t ∉ c.processed then some { c with processed := t :: c.processed }
      else none
  | .advance a next => if h : next ∉ c.held a then some (c.advanceNonce a next h) else none
  | .blocks recent => some { c with recent }

/-- The account has held the value and holds another one now. -/
def Spent (c : Chain) (a : Pubkey) (v : Hash) : Prop := v ∈ (c.held a).tail

/-- Everything one step can do to a nonce account and to what is processed. -/
theorem step_cases {c c' : Chain} {x : ChainAction} (h : step c x = some c') :
    (∃ t a next, nonceAccountOf t.message.instructions = some a ∧ (c.held a).head? = some t.message.recentBlockhash ∧
        c'.held = Function.update c.held a (next :: c.held a) ∧ c'.processed = t :: c.processed) ∨
      (∃ t, nonceAccountOf t.message.instructions = none ∧ t ∉ c.processed ∧ c'.held = c.held ∧
        c'.processed = t :: c.processed) ∨
      (∃ a next, c'.held = Function.update c.held a (next :: c.held a) ∧ c'.processed = c.processed) ∨
      c'.held = c.held ∧ c'.processed = c.processed := by
  cases x with
  | process t next =>
    simp only [step] at h
    split at h
    next a ha =>
      split at h
      next hvalue =>
        cases h
        exact .inl ⟨t, a, next, ha, hvalue.1, rfl, rfl⟩
      next => cases h
    next ha =>
      split at h
      next hnew =>
        cases h
        exact .inr (.inl ⟨t, ha, hnew.2, rfl, rfl⟩)
      next => cases h
  | advance a next =>
    simp only [step] at h
    split at h
    next =>
      cases h
      exact .inr (.inr (.inl ⟨a, next, rfl, rfl⟩))
    next => cases h
  | blocks recent =>
    cases h
    exact .inr (.inr (.inr ⟨rfl, rfl⟩))

/-- A value spent stays spent. -/
theorem Spent.of_update {c c' : Chain} {a b : Pubkey} {v next : Hash} (h : c.Spent a v)
    (hheld : c'.held = Function.update c.held b (next :: c.held b)) : c'.Spent a v := by
  unfold Spent at *
  rw [hheld]
  by_cases ha : a = b
  · subst ha
    rw [Function.update_self]
    exact List.mem_of_mem_tail h
  · rwa [Function.update_of_ne ha]

/-- The value an account holds is not spent, and is when the account holds the next one. -/
theorem spent_of_head {c : Chain} {a : Pubkey} {v : Hash} (h : (c.held a).head? = some v) : ¬ c.Spent a v ∧ v ∈ c.held a := by
  have hnodup := c.nodup a
  unfold Spent
  rcases hheld : c.held a with _ | ⟨w, ws⟩ <;> rw [hheld] at h hnodup <;> cases h
  exact ⟨(List.nodup_cons.mp hnodup).1, List.mem_cons_self⟩

end Chain

/-! ### Landing once -/

section Once

variable {S : List Transaction} {a : Pubkey} {v : Hash}

/-- How many of the transactions have been processed. -/
def Chain.landed (c : Chain) (S : List Transaction) : ℕ := c.processed.countP (· ∈ S)

theorem Chain.landed_process {c c' : Chain} {t : Transaction} (h : c'.processed = t :: c.processed) :
    c'.landed S = c.landed S + if t ∈ S then 1 else 0 := by
  simp [Chain.landed, h, List.countP_cons]

theorem Chain.landed_eq_zero {c : Chain} (h : ∀ t ∈ S, t ∉ c.processed) : c.landed S = 0 :=
  List.countP_eq_zero.mpr fun t ht hmem => h t (of_decide_eq_true hmem) ht

/-- Transactions with one value of one nonce: at most one is processed, and then the value is spent. -/
def Chain.NonceOnce (S : List Transaction) (a : Pubkey) (v : Hash) (c : Chain) : Prop :=
  c.landed S ≤ 1 ∧ (0 < c.landed S → c.Spent a v)

theorem Chain.nonceOnce_step (hS : ∀ t ∈ S, nonceAccountOf t.message.instructions = some a ∧ t.message.recentBlockhash = v)
    {c c' : Chain} {x : ChainAction} (h : c.NonceOnce S a v) (hstep : Chain.step c x = some c') : c'.NonceOnce S a v := by
  obtain ⟨hone, hspent⟩ := h
  obtain ⟨t, b, next, hb, hvalue, hheld, hprocessed⟩ | ⟨t, hb, -, hheld, hprocessed⟩ | ⟨b, next, hheld, hprocessed⟩ |
    ⟨hheld, hprocessed⟩ := Chain.step_cases hstep
  · by_cases ht : t ∈ S
    · -- The first of them: the value is the one the account holds, so none was processed before.
      obtain ⟨hnonce, hhash⟩ := hS t ht
      obtain rfl : a = b := Option.some.inj (hnonce.symm.trans hb)
      rw [hhash] at hvalue
      obtain ⟨hno, hmem⟩ := Chain.spent_of_head hvalue
      have hzero : c.landed S = 0 := by
        by_contra hpos
        exact hno (hspent (Nat.pos_of_ne_zero hpos))
      have hlanded : c'.landed S = 1 := by rw [Chain.landed_process hprocessed, hzero, if_pos ht]
      refine ⟨hlanded.le, fun _ => ?_⟩
      rw [Chain.Spent, hheld, Function.update_self]
      exact hmem
    · have hlanded : c'.landed S = c.landed S := by rw [Chain.landed_process hprocessed, if_neg ht, Nat.add_zero]
      rw [Chain.NonceOnce, hlanded]
      exact ⟨hone, fun hpos => (hspent hpos).of_update hheld⟩
  · have ht : t ∉ S := by
      intro ht
      rw [(hS t ht).1] at hb
      cases hb
    have hlanded : c'.landed S = c.landed S := by rw [Chain.landed_process hprocessed, if_neg ht, Nat.add_zero]
    rw [Chain.NonceOnce, hlanded, Chain.Spent, hheld]
    exact ⟨hone, hspent⟩
  · rw [Chain.NonceOnce, Chain.landed, hprocessed]
    exact ⟨hone, fun hpos => (hspent hpos).of_update hheld⟩
  · rw [Chain.NonceOnce, Chain.landed, hprocessed, Chain.Spent, hheld]
    exact ⟨hone, hspent⟩

/-- A transaction without a nonce is processed at most once. -/
theorem Chain.landed_singleton_step {t : Transaction} (ht : nonceAccountOf t.message.instructions = none) {c c' : Chain}
    {x : ChainAction} (h : c.landed [t] ≤ 1) (hstep : Chain.step c x = some c') : c'.landed [t] ≤ 1 := by
  have hother : ∀ u, u ≠ t → c'.processed = u :: c.processed → c'.landed [t] ≤ 1 := by
    intro u hu hprocessed
    rw [Chain.landed_process hprocessed, if_neg (by rwa [List.mem_singleton]), Nat.add_zero]
    exact h
  obtain ⟨u, b, next, hb, -, -, hprocessed⟩ | ⟨u, hb, hnew, -, hprocessed⟩ | ⟨b, next, -, hprocessed⟩ |
    ⟨-, hprocessed⟩ := Chain.step_cases hstep
  · refine hother u ?_ hprocessed
    rintro rfl
    rw [ht] at hb
    cases hb
  · by_cases hu : u = t
    · subst hu
      have hzero : c.landed [u] = 0 := Chain.landed_eq_zero fun w hw => by rwa [List.mem_singleton.mp hw]
      rw [Chain.landed_process hprocessed, hzero, if_pos (List.mem_singleton_self u)]
    · exact hother u hu hprocessed
  · rwa [Chain.landed, hprocessed]
  · rwa [Chain.landed, hprocessed]

/-- Transactions with one value of one nonce land at most once, all of them together. -/
theorem Chain.landed_of_nonce (hS : ∀ t ∈ S, nonceAccountOf t.message.instructions = some a ∧ t.message.recentBlockhash = v)
    {c c' : Chain} {xs : List ChainAction} (hnew : ∀ t ∈ S, t ∉ c.processed) (hrun : Machine.run Chain.step c xs = some c') :
    c'.landed S ≤ 1 := by
  have hinit : c.NonceOnce S a v := by
    rw [Chain.NonceOnce, Chain.landed_eq_zero hnew]
    exact ⟨Nat.zero_le _, fun h => absurd h (lt_irrefl 0)⟩
  exact (Machine.invariant (fun _ _ _ h hs => Chain.nonceOnce_step hS h hs) hinit hrun).1

/-- A single transaction lands at most once. -/
theorem Chain.landed_of_single {t : Transaction} {c c' : Chain} {xs : List ChainAction} (hnew : t ∉ c.processed)
    (hrun : Machine.run Chain.step c xs = some c') : c'.landed [t] ≤ 1 := by
  have hnew' : ∀ u ∈ [t], u ∉ c.processed := by
    intro u hu
    rwa [List.mem_singleton.mp hu]
  rcases hnonce : nonceAccountOf t.message.instructions with _ | a
  · exact Machine.invariant (fun _ _ _ h hs => Chain.landed_singleton_step hnonce h hs)
      (by rw [Chain.landed_eq_zero hnew']; exact Nat.zero_le 1) hrun
  · exact Chain.landed_of_nonce (fun u hu => by rw [List.mem_singleton.mp hu]; exact ⟨hnonce, rfl⟩) hnew' hrun

end Once

/-! ### What the transactions of a call have in common -/

theorem nonceAccountOf_congr {is is' : List Instruction} (h : is.head? = is'.head?) : nonceAccountOf is = nonceAccountOf is' := by
  rcases is with _ | ⟨i, is⟩ <;> rcases is' with _ | ⟨i', is'⟩ <;> cases h <;> rfl

@[simp] theorem nonceAccountOf_advance (account authorized : Pubkey) (is : List Instruction) :
    nonceAccountOf (advanceNonceAccount account authorized :: is) = some account := rfl

theorem nonceAccountOf_cons_of_ne {i : Instruction} (h : i.programId = systemProgram → i.data.take 4 ≠ leBytes 4 4)
    (is : List Instruction) : nonceAccountOf (i :: is) = none :=
  if_neg fun hi => h hi.1 hi.2

/-- Neither a tip nor the compute budget advances a nonce. -/
theorem nonceAccountOf_tip (source target : Pubkey) (lamports : UInt64) (is : List Instruction) :
    nonceAccountOf (systemTransfer source target lamports :: is) = none := by
  refine nonceAccountOf_cons_of_ne (fun _ => ?_) is
  rw [systemTransfer, List.take_left' (length_leBytes 4 2)]
  decide

theorem nonceAccountOf_computeBudget (unitPrice : UInt64) (unitLimit : UInt32) (is : List Instruction) :
    nonceAccountOf (computeBudgetInstructions unitPrice unitLimit ++ is) = nonceAccountOf is ∨
      nonceAccountOf (computeBudgetInstructions unitPrice unitLimit ++ is) = none := by
  have hprogram : computeBudgetProgram ≠ systemProgram := by decide +kernel
  unfold computeBudgetInstructions
  split_ifs
  · exact .inr (nonceAccountOf_cons_of_ne (fun h => absurd h hprogram) _)
  · exact .inr (nonceAccountOf_cons_of_ne (fun h => absurd h hprogram) _)
  · exact .inr (nonceAccountOf_cons_of_ne (fun h => absurd h hprogram) _)
  · exact .inl rfl

/-- Each middleware leaves the first instruction in its place. -/
def KeepsFirst (shared : SwqosSharedContext) : Prop :=
  ∀ ms, shared.middlewareManager = some ms → ∀ m ∈ ms, ∀ is out,
    m.processFullInstructions is shared.protocolName shared.isBuy = .ok out → out.head? = is.head?

/-- The built-in middleware does. -/
theorem keepsFirst_logging {shared : SwqosSharedContext} (h : shared.middlewareManager = some [loggingMiddleware]) :
    KeepsFirst shared := by
  intro ms hms m hm is out hout
  rw [h, Option.some.injEq] at hms
  subst hms
  rw [List.mem_singleton.mp hm] at hout
  cases hout
  rfl

section Transactions

variable {shared : SwqosSharedContext} {sign : Message → Signature} {t : Task} {tx : Transaction}

/-- What a transaction of the call is made of. -/
theorem transaction_cases (hkeeps : KeepsFirst shared) (h : shared.transaction sign t = .ok tx) :
    tx.signature = sign tx.message ∧ getTransactionBlockhash shared.recentBlockhash shared.durableNonce = .ok tx.message.recentBlockhash ∧
      ∃ tipAccount leading, (shared.request t tipAccount).leading = .ok leading ∧ tx.message.instructions.head? =
        (leading ++ computeBudgetInstructions t.config.2.2.cuPrice t.config.2.2.cuLimit ++ shared.instructions).head? := by
  obtain ⟨tipAccount, -, hbuild⟩ := bind_eq_ok.mp h
  have hmessage : (shared.request t tipAccount).message = .ok tx.message ∧ tx.signature = sign tx.message := by
    unfold buildTransaction at hbuild
    rcases hm : (shared.request t tipAccount).message with e | message <;> rw [hm] at hbuild <;> cases hbuild
    exact ⟨rfl, rfl⟩
  obtain ⟨leading, hleading, hassemble⟩ := bind_eq_ok.mp hmessage.1
  obtain ⟨blockhash, hblockhash, hfull⟩ := bind_eq_ok.mp hassemble
  rcases hms : shared.middlewareManager with _ | ms <;> simp only [SwqosSharedContext.request, hms] at hfull
  · have htx := Except.ok.inj hfull
    refine ⟨hmessage.2, ?_, tipAccount, leading, hleading, ?_⟩
    · rw [← htx]
      exact hblockhash
    · rw [← htx]
  · obtain ⟨full, hmiddlewares, hfull⟩ := bind_eq_ok.mp hfull
    have htx := Except.ok.inj hfull
    refine ⟨hmessage.2, ?_, tipAccount, leading, hleading, ?_⟩
    · rw [← htx]
      exact hblockhash
    · rw [← htx]
      exact applyMiddlewares_of_keeps (K := fun is out => out.head? = is.head?) (fun _ => rfl)
        (fun _ _ _ h₁ h₂ => h₂.trans h₁) (hkeeps ms hms) (orFail_eq_ok.mp hmiddlewares)

/-- With a nonce, a transaction advances its account and has its value for a hash. -/
theorem transaction_of_nonce {nonce : DurableNonceInfo} (hkeeps : KeepsFirst shared) (hnonce : shared.durableNonce = some nonce)
    (h : shared.transaction sign t = .ok tx) :
    ∃ account, nonce.nonceAccount = some account ∧ nonceAccountOf tx.message.instructions = some account ∧
      nonce.currentNonce = some tx.message.recentBlockhash := by
  obtain ⟨-, hhash, tipAccount, leading, hleading, hhead⟩ := transaction_cases hkeeps h
  rw [hnonce] at hhash
  have hadd : ∃ account rest, nonce.nonceAccount = some account ∧ leading = advanceNonceAccount account shared.payer :: rest := by
    obtain ⟨add, hadd, hrest⟩ := bind_eq_ok.mp hleading
    rcases haccount : nonce.nonceAccount with _ | account
    · simp only [SwqosSharedContext.request, hnonce, addNonceInstruction, haccount] at hadd
      cases hadd
    · simp only [SwqosSharedContext.request, hnonce, addNonceInstruction, haccount] at hadd
      cases hadd
      exact ⟨account, _, rfl, (Except.ok.inj hrest).symm⟩
  obtain ⟨account, rest, haccount, rfl⟩ := hadd
  refine ⟨account, haccount, ?_, okOr_eq_ok.mp hhash⟩
  rw [nonceAccountOf_congr hhead]
  rfl

/-- Without one, it advances no nonce, unless the trade itself begins so, and has the recent hash. -/
theorem transaction_of_no_nonce (hkeeps : KeepsFirst shared) (hnonce : shared.durableNonce = none)
    (hfirst : nonceAccountOf shared.instructions = none) (h : shared.transaction sign t = .ok tx) :
    nonceAccountOf tx.message.instructions = none ∧ shared.recentBlockhash = some tx.message.recentBlockhash := by
  obtain ⟨-, hhash, tipAccount, leading, hleading, hhead⟩ := transaction_cases hkeeps h
  rw [hnonce] at hhash
  refine ⟨?_, okOr_eq_ok.mp hhash⟩
  rw [nonceAccountOf_congr hhead]
  obtain ⟨add, hadd, hrest⟩ := bind_eq_ok.mp hleading
  simp only [SwqosSharedContext.request, hnonce, addNonceInstruction] at hadd
  cases hadd
  rw [← Except.ok.inj hrest, List.nil_append]
  split_ifs
  · exact nonceAccountOf_tip ..
  · rw [List.nil_append]
    rcases nonceAccountOf_computeBudget t.config.2.2.cuPrice t.config.2.2.cuLimit shared.instructions with hb | hb
    · rw [hb, hfirst]
    · exact hb

theorem mem_transactions {tasks : List Task} :
    tx ∈ shared.transactions sign tasks ↔ ∃ t ∈ tasks, shared.transaction sign t = .ok tx := by
  have htoOption : ∀ r : Result Transaction, r.toOption = some tx ↔ r = .ok tx := by
    rintro (e | u) <;> simp [Except.toOption]
  simp [SwqosSharedContext.transactions, List.mem_filterMap, htoOption]

end Transactions

/-! ### At most once -/

section AtMostOnce

variable {shared : SwqosSharedContext} {sign : Message → Signature} {tasks : List Task} {c c' : Chain} {xs : List ChainAction}

/-- With a nonce, or as one transaction, a call lands at most once. -/
theorem landed_le_one (hkeeps : KeepsFirst shared) (hguard : shared.durableNonce ≠ none ∨
      ∀ tx ∈ shared.transactions sign tasks, ∀ tx' ∈ shared.transactions sign tasks, tx = tx')
    (hnew : ∀ tx ∈ shared.transactions sign tasks, tx ∉ c.processed) (hrun : Machine.run Chain.step c xs = some c') :
    c'.landed (shared.transactions sign tasks) ≤ 1 := by
  by_cases hempty : ∀ tx, tx ∉ shared.transactions sign tasks
  · rw [Chain.landed_eq_zero fun tx htx => absurd htx (hempty tx)]
    exact Nat.zero_le 1
  obtain ⟨tx, htx⟩ := not_forall_not.mp hempty
  rcases hnonce : shared.durableNonce with _ | nonce
  · have hone := hguard.resolve_left fun h => h hnonce
    have hsame : c'.landed (shared.transactions sign tasks) = c'.landed [tx] := by
      have hmem : ∀ u, u ∈ shared.transactions sign tasks ↔ u ∈ [tx] := by
        intro u
        rw [List.mem_singleton]
        constructor
        · exact fun hu => hone u hu tx htx
        · rintro rfl
          exact htx
      simp only [Chain.landed, hmem]
    rw [hsame]
    exact Chain.landed_of_single (hnew tx htx) hrun
  · obtain ⟨t, -, ht⟩ := mem_transactions.mp htx
    obtain ⟨account, haccount, -, hvalue⟩ := transaction_of_nonce hkeeps hnonce ht
    refine Chain.landed_of_nonce (a := account) (v := tx.message.recentBlockhash) (fun u hu => ?_) hnew hrun
    obtain ⟨t', -, ht'⟩ := mem_transactions.mp hu
    obtain ⟨account', haccount', hfirst, hvalue'⟩ := transaction_of_nonce hkeeps hnonce ht'
    rw [haccount, Option.some.injEq] at haccount'
    rw [hvalue, Option.some.injEq] at hvalue'
    exact ⟨haccount' ▸ hfirst, hvalue'.symm⟩

/-- **A buy lands at most once**, in every history of the chain, however many channels it is sent through. -/
theorem buy_lands_once {params : SwapParams} {instructions : List Instruction}
    {middlewareManager : Option (List InstructionMiddleware)} {protocolName : String} {withTip : Bool}
    (htasks : submitTasks params true withTip = .ok tasks)
    (hshared : shared = .ofParams params instructions middlewareManager protocolName true withTip) (hkeeps : KeepsFirst shared)
    (hnew : ∀ tx ∈ shared.transactions sign tasks, tx ∉ c.processed) (hrun : Machine.run Chain.step c xs = some c') :
    c'.landed (shared.transactions sign tasks) ≤ 1 := by
  refine landed_le_one hkeeps ?_ hnew hrun
  by_cases hnonce : shared.durableNonce = none
  · right
    -- The guard: without a nonce there is only one task.
    obtain ⟨_, -, h⟩ := bind_eq_ok.mp htasks
    obtain ⟨_, -, h⟩ := bind_eq_ok.mp h
    obtain ⟨_, -, h⟩ := bind_eq_ok.mp h
    obtain ⟨_, hguard, h⟩ := bind_eq_ok.mp h
    rw [Except.ok.inj h, bailIf_eq_ok] at hguard
    have hlength : tasks.length ≤ 1 := by
      by_contra hmany
      refine hguard ⟨rfl, Nat.lt_of_not_le hmany, ?_⟩
      rw [hshared] at hnonce
      exact hnonce
    have hone := (List.length_filterMap_le (fun t => (shared.transaction sign t).toOption) tasks).trans hlength
    intro tx htx tx' htx'
    rcases hall : shared.transactions sign tasks with _ | ⟨u, _ | ⟨u', us⟩⟩ <;> rw [hall] at htx htx'
    · cases htx
    · rw [List.mem_singleton.mp htx, List.mem_singleton.mp htx']
    · rw [SwqosSharedContext.transactions] at hall
      rw [hall] at hone
      simp at hone
  · exact .inl hnonce

/-- **When a trade lands at most once.** A call lands at most once in every history of the chain exactly if it has a nonce or
its transactions are all the same: sells through several channels, which need no nonce, may land several times. -/
theorem lands_once_iff (hkeeps : KeepsFirst shared) (hfirst : nonceAccountOf shared.instructions = none) :
    (∀ c c' xs, (∀ tx ∈ shared.transactions sign tasks, tx ∉ c.processed) → Machine.run Chain.step c xs = some c' →
        c'.landed (shared.transactions sign tasks) ≤ 1) ↔
      shared.durableNonce ≠ none ∨
        ∀ tx ∈ shared.transactions sign tasks, ∀ tx' ∈ shared.transactions sign tasks, tx = tx' := by
  constructor
  · intro honce
    by_contra hguard
    simp only [not_or, not_not, not_forall] at hguard
    obtain ⟨hnonce, tx, htx, tx', htx', hne⟩ := hguard
    -- Two of them, one after the other, on a chain that knows their hash.
    obtain ⟨t, -, ht⟩ := mem_transactions.mp htx
    obtain ⟨t', -, ht'⟩ := mem_transactions.mp htx'
    obtain ⟨hno, hhash⟩ := transaction_of_no_nonce hkeeps hnonce hfirst ht
    obtain ⟨hno', hhash'⟩ := transaction_of_no_nonce hkeeps hnonce hfirst ht'
    rw [hhash, Option.some.injEq] at hhash'
    let c₀ : Chain := ⟨fun _ => [], fun _ => List.nodup_nil, [tx.message.recentBlockhash], []⟩
    have hrun : Machine.run Chain.step c₀ [.process tx [], .process tx' []] = some { c₀ with processed := [tx', tx] } := by
      simp [Machine.run, Chain.step, hno, hno', c₀, ← hhash', Ne.symm hne]
    have htwo := honce c₀ _ _ (fun _ _ => List.not_mem_nil) hrun
    simp [Chain.landed, htx, htx'] at htwo
  · exact fun hguard c c' xs hnew hrun => landed_le_one hkeeps hguard hnew hrun

end AtMostOnce

section Sample

/-- A buy through the plain RPC and through Jito, with a nonce. -/
def nonceParams : SwapParams :=
  { PoolState.rpcParams with
    swqosClients := [PoolState.rpcTask.client, { swqosType := .jito, minTipSol := SwqosType.minTipSol .jito, tipAccount := .ok "" }]
    durableNonce := some ⟨some .default, some [7]⟩
    gasFeeStrategy := GasFeeStrategy.new.setGlobalFeeStrategy 200000 200000 0 0 (1 / 1000) 0 }

/-- What its two jobs share. -/
def nonceContext : SwqosSharedContext := .ofParams nonceParams [⟨ammProgram, [], [1]⟩] (some [loggingMiddleware]) "PumpSwap" true true

/-- The transactions of the two jobs. -/
def nonceTransactions : List Transaction :=
  nonceContext.transactions (fun m => toString m.instructions.length) (submitTasks nonceParams true true).toOption.toList.flatten

/-- A chain on which the account holds the nonce. -/
def nonceChain : Chain := ⟨fun _ => [[7]], fun _ => List.nodup_singleton _, [], []⟩

/-- The second transaction is processed, then the nonce is advanced once more. -/
def nonceHistory : List ChainAction := (nonceTransactions.drop 1).map (.process · [8]) ++ [.advance .default [9]]

theorem buy_lands_once_nonceHistory : ∃ c', Machine.run Chain.step nonceChain nonceHistory = some c' ∧
    c'.landed nonceTransactions ≤ 1 := by
  obtain ⟨c', hrun⟩ := Option.isSome_iff_exists.mp
    (show (Machine.run Chain.step nonceChain nonceHistory).isSome = true by decide +kernel)
  have htasks : submitTasks nonceParams true true = .ok (submitTasks nonceParams true true).toOption.toList.flatten := rfl
  exact ⟨c', hrun, buy_lands_once htasks rfl (keepsFirst_logging rfl) (fun _ _ => List.not_mem_nil) hrun⟩

theorem lands_once_iff_nonceContext : nonceContext.durableNonce ≠ none ∨
    ∀ tx ∈ nonceTransactions, ∀ tx' ∈ nonceTransactions, tx = tx' :=
  (lands_once_iff (keepsFirst_logging rfl) (by decide +kernel)).mp fun _ _ _ hnew hrun =>
    landed_le_one (keepsFirst_logging rfl) (.inl (Option.some_ne_none _)) hnew hrun

end Sample

end PumpSwapBot.Sdk
