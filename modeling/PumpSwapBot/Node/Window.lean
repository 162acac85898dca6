import PumpSwapBot.Node.Subscription
import Mathlib.Data.List.DropRight

/-!
# The window of processed signatures

The subscriber of the Node bot keeps the signatures it has processed in a set, and drops the oldest ones when there are
too many (`markSignatureProcessed` of `grpcSubscriber.ts`). A signature that was dropped can be inserted again; one that
is marked while it is in the set stays where it is.

## What is proved

* `IsWindow.mark` — what one call keeps: the set is the end of the list of insertions, at least half as long as the set
  may grow once that was exceeded.
* `marked_window` — so after every sequence of calls the set is the last insertions, and how many.
* `run_processedSignatures` — the set of a subscription is the one that marking its emissions gives.
-/

namespace PumpSwapBot.Node

/-- Whether a signature is in the set. -/
def isSignatureProcessed (processed : List String) (signature : String) : Bool := signature ∈ processed

/-- The set after some calls of `markSignatureProcessed`. -/
def marked (signatures : List String) : List String := signatures.foldl markSignatureProcessed []

/-- A call for a signature that is not in the set is an insertion. -/
def insertedBy (processed : List String) (signature : String) : List String :=
  if signature ∈ processed then [] else [signature]

/-- The insertions among some calls, oldest first, from a set on. -/
def insertionsFrom (processed : List String) : List String → List String
  | [] => []
  | signature :: signatures =>
    insertedBy processed signature ++ insertionsFrom (markSignatureProcessed processed signature) signatures

/-- The insertions among some calls, oldest first. -/
def insertions (signatures : List String) : List String := insertionsFrom [] signatures

/-- What is known of the set, for the insertions that led to it. -/
structure IsWindow (inserted processed : List String) : Prop where
  nodup : processed.Nodup
  /-- It is the last insertions. -/
  last : processed <:+ inserted
  /-- Up to the greatest number these are all. -/
  all : inserted.length ≤ maxProcessedSignatures → processed = inserted
  half : maxProcessedSignatures < inserted.length → maxProcessedSignatures / 2 ≤ processed.length
  bound : processed.length ≤ maxProcessedSignatures

section Calls

variable {inserted processed : List String} {signature : String}

theorem filter_notMem_take {l : List String} (h : l.Nodup) (n : ℕ) : l.filter (fun x => x ∉ l.take n) = l.drop n := by
  have hsplit := List.take_append_drop n l
  have hdisjoint : List.Disjoint (l.take n) (l.drop n) := by
    rw [← hsplit] at h
    exact List.disjoint_of_nodup_append h
  conv_lhs => rw [← hsplit]
  rw [List.filter_append, hsplit, List.filter_eq_nil_iff.mpr (by simp), List.nil_append, List.filter_eq_self]
  intro x hx
  exact decide_eq_true fun hmem => hdisjoint hmem hx

/-- A signature that is in the set leaves it as it is. -/
theorem markSignatureProcessed_of_mem (h : IsWindow inserted processed) (hmem : signature ∈ processed) :
    markSignatureProcessed processed signature = processed := by
  have hnone : toRemove processed = [] := if_neg (not_lt.mpr h.bound)
  rw [markSignatureProcessed, addSignature, if_pos hmem]
  simp [hnone]

/-- A new signature goes to the end. -/
theorem markSignatureProcessed_of_room (hmem : signature ∉ processed)
    (hroom : processed.length < maxProcessedSignatures) :
    markSignatureProcessed processed signature = processed ++ [signature] := by
  have hnone : toRemove (processed ++ [signature]) = [] := by
    refine if_neg (not_lt.mpr ?_)
    rw [List.length_append, List.length_singleton]
    exact hroom
  rw [markSignatureProcessed, addSignature, if_neg hmem]
  simp [hnone]

/-- If there are too many then, the newest half stays. -/
theorem markSignatureProcessed_of_full (h : processed.Nodup) (hmem : signature ∉ processed)
    (hfull : processed.length = maxProcessedSignatures) :
    markSignatureProcessed processed signature =
      (processed ++ [signature]).drop (maxProcessedSignatures + 1 - maxProcessedSignatures / 2) := by
  have hnodup : (processed ++ [signature]).Nodup := by simpa using h.concat hmem
  have hlength : (processed ++ [signature]).length = maxProcessedSignatures + 1 := by
    rw [List.length_append, List.length_singleton, hfull]
  have hremove : toRemove (processed ++ [signature]) =
      (processed ++ [signature]).take (maxProcessedSignatures + 1 - maxProcessedSignatures / 2) := by
    rw [toRemove, hlength, if_pos (Nat.lt_succ_self _)]
  rw [markSignatureProcessed, addSignature, if_neg hmem, hremove]
  exact filter_notMem_take hnodup _

/-- **What one call keeps.** -/
theorem IsWindow.mark (h : IsWindow inserted processed) (signature : String) :
    IsWindow (inserted ++ insertedBy processed signature) (markSignatureProcessed processed signature) := by
  by_cases hmem : signature ∈ processed
  · rw [markSignatureProcessed_of_mem h hmem, insertedBy, if_pos hmem, List.append_nil]
    exact h
  rw [insertedBy, if_neg hmem]
  have hnodup : (processed ++ [signature]).Nodup := by simpa using h.nodup.concat hmem
  have hlast : processed ++ [signature] <:+ inserted ++ [signature] := by
    obtain ⟨before, hbefore⟩ := h.last
    exact ⟨before, by rw [← List.append_assoc, hbefore]⟩
  have hlength : (inserted ++ [signature]).length = inserted.length + 1 := by simp
  rcases h.bound.lt_or_eq with hroom | hfull
  · rw [markSignatureProcessed_of_room hmem hroom]
    refine ⟨hnodup, hlast, fun hle => ?_, fun hgt => ?_, ?_⟩
    · rw [h.all (by omega)]
    · -- there were too many before, or there would be room for none now
      have hmore : maxProcessedSignatures < inserted.length := by
        by_contra hnot
        have hall := congrArg List.length (h.all (not_lt.mp hnot))
        omega
      rw [List.length_append, List.length_singleton]
      exact (h.half hmore).trans (Nat.le_succ _)
    · rw [List.length_append, List.length_singleton]
      exact hroom
  · rw [markSignatureProcessed_of_full h.nodup hmem hfull]
    have hkept : ((processed ++ [signature]).drop (maxProcessedSignatures + 1 - maxProcessedSignatures / 2)).length =
        maxProcessedSignatures / 2 := by
      rw [List.length_drop, List.length_append, List.length_singleton, hfull]
      omega
    have hle := h.last.length_le
    refine ⟨hnodup.sublist (List.drop_sublist _ _), (List.drop_suffix _ _).trans hlast, fun hle' => ?_, fun _ => ?_, ?_⟩
    · omega
    · exact hkept.ge
    · rw [hkept]
      exact Nat.div_le_self _ _

theorem isWindow_foldl (h : IsWindow inserted processed) (signatures : List String) :
    IsWindow (inserted ++ insertionsFrom processed signatures) (signatures.foldl markSignatureProcessed processed) := by
  induction signatures generalizing inserted processed with
  | nil =>
    rw [insertionsFrom, List.append_nil]
    exact h
  | cons signature signatures ih =>
    rw [insertionsFrom, ← List.append_assoc]
    exact ih (h.mark signature)

/-- **The set is a window on the insertions**, after every sequence of calls. -/
theorem isWindow_marked (signatures : List String) : IsWindow (insertions signatures) (marked signatures) := by
  have hempty : IsWindow [] [] :=
    ⟨List.nodup_nil, List.suffix_refl _, fun _ => rfl, fun h => absurd h (Nat.not_lt_zero _), Nat.zero_le _⟩
  exact isWindow_foldl hempty signatures

/-- **Which signatures are retained.** After every sequence of calls these are the last `k` insertions: all of them while
they are at most `maxProcessedSignatures`, and then between half of it and all of it. So there are never more, and each of
the last half is in the set. -/
theorem marked_window (signatures : List String) :
    (∃ k ≤ (insertions signatures).length, marked signatures = (insertions signatures).rtake k ∧
      ((insertions signatures).length ≤ maxProcessedSignatures → k = (insertions signatures).length) ∧
      (maxProcessedSignatures < (insertions signatures).length →
        maxProcessedSignatures / 2 ≤ k ∧ k ≤ maxProcessedSignatures)) ∧
    (marked signatures).length ≤ maxProcessedSignatures ∧
    ∀ signature ∈ (insertions signatures).rtake (maxProcessedSignatures / 2),
      isSignatureProcessed (marked signatures) signature = true := by
  have hwindow := isWindow_marked signatures
  have hrtake : marked signatures = (insertions signatures).rtake (marked signatures).length :=
    List.suffix_iff_eq_drop.mp hwindow.last
  refine ⟨⟨(marked signatures).length, hwindow.last.length_le, hrtake, fun hle => ?_, fun hgt => ?_⟩, hwindow.bound, ?_⟩
  · rw [hwindow.all hle]
  · exact ⟨hwindow.half hgt, hwindow.bound⟩
  · intro signature hmem
    refine decide_eq_true ?_
    by_cases hle : (insertions signatures).length ≤ maxProcessedSignatures
    · rw [hwindow.all hle]
      exact List.mem_of_mem_drop hmem
    · -- the last half is a part of what is retained
      have hhalf := hwindow.half (not_le.mp hle)
      rw [hrtake, List.rtake]
      rw [List.rtake] at hmem
      exact List.drop_subset_drop_left _ (by omega) hmem

end Calls

/-! ### The window of a subscription -/

/-- The signatures that were emitted, oldest first. -/
def emissions (history : List Happening) : List String :=
  history.filterMap fun
    | .emitted signature => some signature
    | .dropped _ => none

namespace Subscription

variable {number : Library.Rounding 53} {stringify : TokenTradeRecord → String} {maxTradesPerToken : ℤ} {hasRedis : Bool}

/-- An event emits nothing and leaves the set, or emits a signature and marks it. -/
theorem step_processedSignatures (st : Subscription) (e : Event) :
    (st.step number stringify maxTradesPerToken hasRedis e).processedSignatures = st.processedSignatures ∧
        (st.step number stringify maxTradesPerToken hasRedis e).history = st.history ∨
      ∃ signature, (st.step number stringify maxTradesPerToken hasRedis e).processedSignatures =
          markSignatureProcessed st.processedSignatures signature ∧
        emissions (st.step number stringify maxTradesPerToken hasRedis e).history = emissions st.history ++ [signature] := by
  cases e with
  | transaction i reply =>
    rw [step, onTransaction]
    split
    · split
      · rename_i update _
        refine Or.inr ⟨update.signature, rfl, ?_⟩
        simp [emitUpdate, emissions, List.filterMap_append, List.filterMap_map]
      · exact Or.inl ⟨rfl, rfl⟩
    · exact Or.inl ⟨rfl, rfl⟩
  | logs signature err =>
    rw [step, onLogs]
    split_ifs <;> exact Or.inl ⟨rfl, rfl⟩
  | sismember i =>
    rw [step, onSismember]
    split
    · split <;> exact Or.inl ⟨rfl, rfl⟩
    · exact Or.inl ⟨rfl, rfl⟩
  | command i =>
    rw [step, onCommand]
    split
    · split <;> exact Or.inl ⟨rfl, rfl⟩
    · exact Or.inl ⟨rfl, rfl⟩
  | reply i =>
    rw [step, onReply]
    split
    · exact Or.inl ⟨rfl, rfl⟩
    · split_ifs <;> exact Or.inl ⟨rfl, rfl⟩
    · exact Or.inl ⟨rfl, rfl⟩
  | lost i =>
    rw [step, onLost]
    split <;> exact Or.inl ⟨rfl, rfl⟩
  | unsubscribe => exact Or.inl ⟨rfl, rfl⟩

/-- **The set of a subscription** is what marking its emissions gives, in every state of every run. -/
theorem run_processedSignatures (redis : Library.KeyValue.Store) (events : List Event) :
    ((start redis).run number stringify maxTradesPerToken hasRedis events).processedSignatures =
      marked (emissions ((start redis).run number stringify maxTradesPerToken hasRedis events).history) := by
  induction events using List.reverseRecOn with
  | nil => rfl
  | append_singleton events e ih =>
    have hrun : (start redis).run number stringify maxTradesPerToken hasRedis (events ++ [e]) =
        ((start redis).run number stringify maxTradesPerToken hasRedis events).step number stringify maxTradesPerToken hasRedis e := by
      simp [run]
    rw [hrun]
    rcases step_processedSignatures ((start redis).run number stringify maxTradesPerToken hasRedis events) e
      with ⟨hset, hhistory⟩ | ⟨signature, hset, hhistory⟩
    · rw [hset, hhistory, ih]
    · rw [hset, hhistory, ih, marked, marked, List.foldl_append, List.foldl_cons, List.foldl_nil]

end Subscription

end PumpSwapBot.Node
