import Mathlib.Data.List.Basic
import Mathlib.Data.List.Nodup
import Mathlib.Data.List.Perm.Basic

/-!
# Maps that keep the order of their keys

The `Map` of JavaScript: a key that is set for the first time goes to the end, one that is set again
stays where it is, and the values are listed in that order.

## What is proved

* `get?_set_self`, `get?_set_of_ne`, `get?_delete_self`, `get?_delete_of_ne` — what the operations do to a key.
* `values_set_of_none`, `map_values_set`, `perm_values_delete` — what they do to the values.
* `ofValues_values` — a map whose values know their keys is given by its values.
-/

namespace PumpSwapBot.Library

/-- A map with its entries in order. -/
structure OrderedMap (κ ν : Type) where
  entries : List (κ × ν)
  /-- No key occurs twice. -/
  nodup : (entries.map Prod.fst).Nodup

namespace OrderedMap

variable {κ ν β : Type}

@[ext] theorem ext_entries {m m' : OrderedMap κ ν} (h : m.entries = m'.entries) : m = m' := by
  cases m
  cases m'
  cases h
  rfl

/-- The map without entries. -/
def empty : OrderedMap κ ν := ⟨[], List.nodup_nil⟩

/-- The values in order. -/
def values (m : OrderedMap κ ν) : List ν := m.entries.map Prod.snd

variable [DecidableEq κ]

/-- Put a value at a key, where it is or else at the end. -/
def setEntries (k : κ) (v : ν) : List (κ × ν) → List (κ × ν)
  | [] => [(k, v)]
  | e :: es => if e.1 = k then (k, v) :: es else e :: setEntries k v es

theorem keys_setEntries (k : κ) (v : ν) (es : List (κ × ν)) :
    (setEntries k v es).map Prod.fst = if k ∈ es.map Prod.fst then es.map Prod.fst else es.map Prod.fst ++ [k] := by
  induction es with
  | nil => simp [setEntries]
  | cons e es ih =>
    by_cases he : e.1 = k
    · simp [setEntries, he]
    · simp only [setEntries, he, if_false, List.map_cons, ih, List.mem_cons, Ne.symm he, false_or]
      split_ifs <;> simp

/-- The value at a key. -/
def get? (m : OrderedMap κ ν) (k : κ) : Option ν := m.entries.lookup k

/-- Whether there is a value at a key. -/
def has (m : OrderedMap κ ν) (k : κ) : Bool := (m.get? k).isSome

/-- Put a value at a key. -/
def set (m : OrderedMap κ ν) (k : κ) (v : ν) : OrderedMap κ ν where
  entries := setEntries k v m.entries
  nodup := by
    rw [keys_setEntries]
    split_ifs with h
    · exact m.nodup
    · exact List.nodup_append.mpr ⟨m.nodup, List.nodup_singleton k, fun a ha b hb hab => h (by simp_all)⟩

/-- Remove a key. -/
def delete (m : OrderedMap κ ν) (k : κ) : OrderedMap κ ν where
  entries := m.entries.filter fun e => e.1 ≠ k
  nodup := m.nodup.sublist (List.Sublist.map _ List.filter_sublist)

/-- The map of some values that know their keys, put one after the other. -/
def ofValues (key : ν → κ) (vs : List ν) : OrderedMap κ ν := vs.foldl (fun m v => m.set (key v) v) empty

variable {m : OrderedMap κ ν} {k k' : κ} {v v' : ν}

theorem entries_set (m : OrderedMap κ ν) (k : κ) (v : ν) : (m.set k v).entries = setEntries k v m.entries := rfl

/-! ### Keys -/

theorem lookup_setEntries_self (k : κ) (v : ν) (es : List (κ × ν)) : (setEntries k v es).lookup k = some v := by
  induction es with
  | nil => simp [setEntries]
  | cons e es ih =>
    by_cases he : e.1 = k
    · simp [setEntries, he]
    · rw [setEntries, if_neg he, List.lookup_cons, ih, beq_false_of_ne (Ne.symm he)]

theorem lookup_setEntries_of_ne (h : k' ≠ k) (v : ν) (es : List (κ × ν)) :
    (setEntries k v es).lookup k' = es.lookup k' := by
  induction es with
  | nil => simp [setEntries, List.lookup_cons, beq_false_of_ne h]
  | cons e es ih =>
    by_cases he : e.1 = k
    · rw [setEntries, if_pos he, List.lookup_cons, List.lookup_cons, he, beq_false_of_ne h]
    · rw [setEntries, if_neg he, List.lookup_cons, List.lookup_cons, ih]

@[simp] theorem get?_set_self (m : OrderedMap κ ν) (k : κ) (v : ν) : (m.set k v).get? k = some v :=
  lookup_setEntries_self k v m.entries

theorem get?_set_of_ne (h : k' ≠ k) (v : ν) : (m.set k v).get? k' = m.get? k' :=
  lookup_setEntries_of_ne h v m.entries

@[simp] theorem get?_delete_self (m : OrderedMap κ ν) (k : κ) : (m.delete k).get? k = none := by
  rw [get?, delete, List.lookup_eq_none_iff]
  intro e he
  exact bne_iff_ne.mpr (Ne.symm (of_decide_eq_true (List.mem_filter.mp he).2))

theorem get?_delete_of_ne (h : k' ≠ k) : (m.delete k).get? k' = m.get? k' := by
  unfold get? delete
  dsimp only
  induction m.entries with
  | nil => rfl
  | cons e es ih =>
    by_cases he : e.1 = k
    · rw [List.filter_cons_of_neg (by simp [he]), ih, List.lookup_cons, he, beq_false_of_ne h]
    · rw [List.filter_cons_of_pos (by simp [he]), List.lookup_cons, List.lookup_cons, ih]

/-! ### Values -/

theorem setEntries_of_lookup_none {es : List (κ × ν)} (h : es.lookup k = none) (v : ν) :
    setEntries k v es = es ++ [(k, v)] := by
  induction es with
  | nil => rfl
  | cons e es ih =>
    rw [List.lookup_cons] at h
    have hne : e.1 ≠ k := by
      rintro rfl
      simp at h
    rw [beq_false_of_ne hne.symm] at h
    rw [setEntries, if_neg hne, ih h, List.cons_append]

theorem map_setEntries {es : List (κ × ν)} {f : ν → β} (h : es.lookup k = some v') (hf : f v = f v') :
    (setEntries k v es).map (fun e => f e.2) = es.map fun e => f e.2 := by
  induction es with
  | nil => cases h
  | cons e es ih =>
    rw [List.lookup_cons] at h
    by_cases he : e.1 = k
    · subst he
      rw [beq_self_eq_true] at h
      cases h
      rw [setEntries, if_pos rfl, List.map_cons, List.map_cons, hf]
    · rw [beq_false_of_ne (Ne.symm he)] at h
      rw [setEntries, if_neg he, List.map_cons, List.map_cons, ih h]

theorem mem_setEntries {es : List (κ × ν)} {e : κ × ν} (h : e ∈ setEntries k v es) : e = (k, v) ∨ e ∈ es := by
  induction es with
  | nil => exact Or.inl (List.mem_singleton.mp h)
  | cons e' es ih =>
    rw [setEntries] at h
    split_ifs at h
    · rcases List.mem_cons.mp h with h | h
      · exact Or.inl h
      · exact Or.inr (List.mem_cons_of_mem _ h)
    · rcases List.mem_cons.mp h with h | h
      · exact Or.inr (h ▸ List.mem_cons_self)
      · exact (ih h).imp_right (List.mem_cons_of_mem _)

theorem mem_of_get? (h : m.get? k = some v) : (k, v) ∈ m.entries := by
  obtain ⟨before, after, heq, -⟩ := List.lookup_eq_some_iff.mp h
  rw [heq]
  simp

theorem get?_of_mem (h : (k, v) ∈ m.entries) : m.get? k = some v := by
  obtain ⟨es, hnodup⟩ := m
  simp only [get?]
  dsimp only at h ⊢
  induction es with
  | nil => cases h
  | cons e es ih =>
    rw [List.map_cons, List.nodup_cons] at hnodup
    rw [List.lookup_cons]
    rcases List.mem_cons.mp h with rfl | h
    · rw [beq_self_eq_true]
    · have hne : k ≠ e.1 := by
        rintro rfl
        exact hnodup.1 (List.mem_map.mpr ⟨_, h, rfl⟩)
      rw [beq_false_of_ne hne]
      exact ih hnodup.2 h

/-- A new key goes to the end. -/
theorem values_set_of_none (h : m.get? k = none) (v : ν) : (m.set k v).values = m.values ++ [v] := by
  rw [values, entries_set, setEntries_of_lookup_none h, List.map_append]
  rfl

/-- What a key that is set again has in common with its old value, the values have in common. -/
theorem map_values_set {f : ν → β} (h : m.get? k = some v') (hf : f v = f v') :
    (m.set k v).values.map f = m.values.map f := by
  rw [values, values, List.map_map, List.map_map]
  exact map_setEntries h hf

theorem perm_values_delete (h : m.get? k = some v) : m.values.Perm (v :: (m.delete k).values) := by
  obtain ⟨es, hnodup⟩ := m
  simp only [get?] at h
  unfold values delete
  dsimp only at h ⊢
  induction es with
  | nil => cases h
  | cons e es ih =>
    rw [List.map_cons, List.nodup_cons] at hnodup
    rw [List.lookup_cons] at h
    by_cases he : e.1 = k
    · subst he
      rw [beq_self_eq_true] at h
      cases h
      have hall : es.filter (fun e' => e'.1 ≠ e.1) = es := by
        refine List.filter_eq_self.mpr fun e' he' => decide_eq_true ?_
        exact fun heq => hnodup.1 (heq ▸ List.mem_map_of_mem he')
      rw [List.filter_cons_of_neg (by simp), hall, List.map_cons]
    · rw [beq_false_of_ne (Ne.symm he)] at h
      rw [List.filter_cons_of_pos (by simp [he]), List.map_cons, List.map_cons]
      exact ((ih hnodup.2 h).cons e.2).trans (List.Perm.swap _ _ _)

theorem mem_of_mem_ofValues {key : ν → κ} {vs : List ν} {e : κ × ν} (h : e ∈ (ofValues key vs).entries) : e.2 ∈ vs := by
  have hfold : ∀ (vs : List ν) (acc : OrderedMap κ ν), e ∈ (vs.foldl (fun m v => m.set (key v) v) acc).entries →
      e ∈ acc.entries ∨ e.2 ∈ vs := by
    intro vs
    induction vs with
    | nil => exact fun acc he => Or.inl he
    | cons v vs ih =>
      intro acc he
      rcases ih _ he with he | he
      · rw [entries_set] at he
        rcases mem_setEntries he with rfl | he
        · exact Or.inr List.mem_cons_self
        · exact Or.inl he
      · exact Or.inr (List.mem_cons_of_mem _ he)
  rcases hfold vs empty h with h | h
  · cases h
  · exact h

/-- A map whose values know their keys is given by its values. -/
theorem ofValues_values {key : ν → κ} (h : ∀ e ∈ m.entries, key e.2 = e.1) : ofValues key m.values = m := by
  -- The entries are put one after the other, each with a key that is not there yet.
  have hfold : ∀ (es : List (κ × ν)) (acc : OrderedMap κ ν), (∀ e ∈ es, key e.2 = e.1) →
      ((acc.entries ++ es).map Prod.fst).Nodup →
      ((es.map Prod.snd).foldl (fun m v => m.set (key v) v) acc).entries = acc.entries ++ es := by
    intro es
    induction es with
    | nil =>
      intro acc _ _
      simp
    | cons e es ih =>
      intro acc hkeys hnodup
      rw [List.forall_mem_cons] at hkeys
      have hnone : acc.entries.lookup (key e.2) = none := by
        rw [hkeys.1, List.lookup_eq_none_iff]
        intro e' he'
        refine bne_iff_ne.mpr fun heq => ?_
        rw [List.map_append, List.nodup_append] at hnodup
        exact hnodup.2.2 _ (List.mem_map_of_mem he') _ (List.mem_map_of_mem List.mem_cons_self) heq.symm
      have hset : (acc.set (key e.2) e.2).entries = acc.entries ++ [e] := by
        rw [entries_set, setEntries_of_lookup_none hnone, hkeys.1]
      rw [List.map_cons, List.foldl_cons, ih _ hkeys.2 (by rw [hset]; simpa using hnodup), hset, List.append_assoc,
        List.singleton_append]
  refine ext_entries ?_
  rw [ofValues, values, hfold m.entries empty h (by simpa [empty] using m.nodup)]
  rfl

end OrderedMap

end PumpSwapBot.Library
