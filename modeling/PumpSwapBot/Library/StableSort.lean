import Mathlib.Data.List.Sort

/-!
# Sorting by a key

A list sorted by a key, the greatest first, where items with the same key keep their order.

## What is proved

* `head?_sortDown`, `getLast?_sortDown` — which items the sorted list begins and ends with, in terms of
  the list that is sorted (`IsFirst`, `IsLast`). There is one of each in a list that is not empty.
* `sortDown_eq_self` — a list that is in order already stays as it is, whatever its ties.
* `filter_sortDown` — items may be left out before or after.
-/

namespace PumpSwapBot.Library

section SortDown

variable {α β κ : Type} [LinearOrder κ] (key : α → κ)

/-- The items with the greatest keys first, and those with the same key in the order they have. -/
def sortDown (l : List α) : List α := l.insertionSort fun a b => key b ≤ key a

/-- An item with the greatest key, and of those the first. -/
def IsFirst (l : List α) (a : α) : Prop :=
  ∃ before after, l = before ++ a :: after ∧ (∀ x ∈ before, key x < key a) ∧ ∀ x ∈ after, key x ≤ key a

/-- An item with the least key, and of those the last. -/
def IsLast (l : List α) (a : α) : Prop :=
  ∃ before after, l = before ++ a :: after ∧ (∀ x ∈ before, key a ≤ key x) ∧ ∀ x ∈ after, key a < key x

variable {key} {l : List α} {a b : α}

theorem IsFirst.mem (h : IsFirst key l a) : a ∈ l := by
  obtain ⟨before, after, rfl, -, -⟩ := h
  simp

theorem IsLast.mem (h : IsLast key l a) : a ∈ l := by
  obtain ⟨before, after, rfl, -, -⟩ := h
  simp

theorem IsFirst.le (h : IsFirst key l a) (hb : b ∈ l) : key b ≤ key a := by
  obtain ⟨before, after, rfl, hbefore, hafter⟩ := h
  rw [List.mem_append, List.mem_cons] at hb
  rcases hb with hb | rfl | hb
  · exact (hbefore b hb).le
  · exact le_rfl
  · exact hafter b hb

theorem IsLast.le (h : IsLast key l a) (hb : b ∈ l) : key a ≤ key b := by
  obtain ⟨before, after, rfl, hbefore, hafter⟩ := h
  rw [List.mem_append, List.mem_cons] at hb
  rcases hb with hb | rfl | hb
  · exact hbefore b hb
  · exact le_rfl
  · exact (hafter b hb).le

/-- An item in front is first if no other has a greater key. -/
theorem isFirst_cons_self (h : ∀ x ∈ l, key x ≤ key a) : IsFirst key (a :: l) a :=
  ⟨[], l, rfl, by simp, h⟩

theorem IsFirst.cons (h : IsFirst key l b) (hlt : key a < key b) : IsFirst key (a :: l) b := by
  obtain ⟨before, after, rfl, hbefore, hafter⟩ := h
  exact ⟨a :: before, after, rfl, List.forall_mem_cons.mpr ⟨hlt, hbefore⟩, hafter⟩

/-- An item in front is last if all others have greater keys. -/
theorem isLast_cons_self (h : ∀ x ∈ l, key a < key x) : IsLast key (a :: l) a :=
  ⟨[], l, rfl, by simp, h⟩

theorem IsLast.cons (h : IsLast key l b) (hle : key b ≤ key a) : IsLast key (a :: l) b := by
  obtain ⟨before, after, rfl, hbefore, hafter⟩ := h
  exact ⟨a :: before, after, rfl, List.forall_mem_cons.mpr ⟨hle, hbefore⟩, hafter⟩

theorem IsFirst.eq (ha : IsFirst key l a) (hb : IsFirst key l b) : a = b := by
  obtain ⟨before, after, rfl, hbefore, hafter⟩ := ha
  obtain ⟨before', after', heq, hbefore', hafter'⟩ := hb
  rw [List.append_eq_append_iff] at heq
  -- Whichever of the two comes earlier has a key both smaller than the other's and not smaller.
  rcases heq with ⟨mid, rfl, hmid⟩ | ⟨mid, rfl, hmid⟩ <;> rcases mid with _ | ⟨c, mid⟩
  · simp only [List.nil_append, List.cons.injEq] at hmid
    exact hmid.1
  · simp only [List.cons_append, List.cons.injEq] at hmid
    obtain ⟨rfl, rfl⟩ := hmid
    exact absurd (hafter b (by simp)) (not_le.mpr (hbefore' a (by simp)))
  · simp only [List.nil_append, List.cons.injEq] at hmid
    exact hmid.1.symm
  · simp only [List.cons_append, List.cons.injEq] at hmid
    obtain ⟨rfl, rfl⟩ := hmid
    exact absurd (hafter' a (by simp)) (not_le.mpr (hbefore b (by simp)))

/-- What is last is first in the reversed list and the reversed order. -/
theorem isLast_iff : IsLast key l a ↔ IsFirst (OrderDual.toDual ∘ key) l.reverse a := by
  constructor
  · rintro ⟨before, after, rfl, hbefore, hafter⟩
    refine ⟨after.reverse, before.reverse, by simp, ?_, ?_⟩
    · simpa using hafter
    · simpa using hbefore
  · rintro ⟨before, after, heq, hbefore, hafter⟩
    refine ⟨after.reverse, before.reverse, by rw [← List.reverse_inj, heq]; simp, ?_, ?_⟩
    · simpa using hafter
    · simpa using hbefore

theorem IsLast.eq (ha : IsLast key l a) (hb : IsLast key l b) : a = b :=
  (isLast_iff.mp ha).eq (isLast_iff.mp hb)

theorem mem_sortDown : a ∈ sortDown key l ↔ a ∈ l := List.mem_insertionSort _

theorem length_sortDown (key : α → κ) (l : List α) : (sortDown key l).length = l.length :=
  List.length_insertionSort _ _

/-- The sorted list begins with the item that is first. -/
theorem isFirst_of_head? (h : (sortDown key l).head? = some b) : IsFirst key l b := by
  induction l generalizing b with
  | nil => cases h
  | cons a l ih =>
    simp only [sortDown] at h
    rw [List.insertionSort_cons] at h
    rcases hs : sortDown key l with _ | ⟨c, s⟩
    · have hnil : l = [] := List.eq_nil_of_length_eq_zero (by rw [← length_sortDown key l, hs]; rfl)
      subst hnil
      cases h
      exact isFirst_cons_self (by simp)
    · have hc : IsFirst key l c := ih (by rw [hs]; rfl)
      simp only [sortDown] at hs
      rw [hs, List.orderedInsert] at h
      split_ifs at h with hle
      · cases h
        exact isFirst_cons_self fun x hx => (hc.le hx).trans hle
      · cases h
        exact hc.cons (not_le.mp hle)

theorem head?_sortDown : (sortDown key l).head? = some b ↔ IsFirst key l b := by
  refine ⟨isFirst_of_head?, fun h => ?_⟩
  rcases hs : (sortDown key l).head? with _ | c
  · rw [List.head?_eq_none_iff] at hs
    have hmem : b ∈ sortDown key l := mem_sortDown.mpr h.mem
    rw [hs] at hmem
    cases hmem
  · rw [h.eq (isFirst_of_head? hs)]

/-- Where an insertion leaves the end of a list that is in order. -/
theorem getLast?_orderedInsert (hsorted : l.Pairwise fun x y => key y ≤ key x) (hlast : l.getLast? = some b) :
    (l.orderedInsert (fun x y => key y ≤ key x) a).getLast? = some (if key a < key b then a else b) := by
  induction l with
  | nil => cases hlast
  | cons c l ih =>
    rw [List.pairwise_cons] at hsorted
    rw [List.orderedInsert]
    split_ifs with hca hab hab
    · have hbc : key b ≤ key c := by
        rcases List.mem_cons.mp (List.mem_of_getLast? hlast) with rfl | hmem
        · exact le_rfl
        · exact hsorted.1 b hmem
      exact absurd (hab.trans_le hbc) (not_lt.mpr hca)
    · rw [List.getLast?_cons_cons, hlast]
    all_goals
      rcases l with _ | ⟨d, l⟩
      · cases hlast
        simp_all
      · rw [List.getLast?_cons_cons] at hlast
        rw [List.getLast?_cons, ih hsorted.2 hlast]
        simp [hab]

/-- The sorted list ends with the item that is last. -/
theorem isLast_of_getLast? (h : (sortDown key l).getLast? = some b) : IsLast key l b := by
  induction l generalizing b with
  | nil => cases h
  | cons a l ih =>
    rcases hs : (sortDown key l).getLast? with _ | c
    · have hnil : l = [] := by
        rw [List.getLast?_eq_none_iff] at hs
        exact List.eq_nil_of_length_eq_zero (by rw [← length_sortDown key l, hs]; rfl)
      subst hnil
      cases h
      exact isLast_cons_self (by simp)
    · have hsorted : (sortDown key l).Pairwise fun x y => key y ≤ key x := List.pairwise_insertionSort _ l
      have hc := ih hs
      have hinsert : (sortDown key (a :: l)).getLast? = some (if key a < key c then a else c) :=
        getLast?_orderedInsert hsorted hs
      rw [hinsert] at h
      split_ifs at h with hlt
      · cases h
        exact isLast_cons_self fun x hx => hlt.trans_le (hc.le hx)
      · cases h
        exact hc.cons (not_lt.mp hlt)

theorem getLast?_sortDown : (sortDown key l).getLast? = some b ↔ IsLast key l b := by
  refine ⟨isLast_of_getLast?, fun h => ?_⟩
  rcases hs : (sortDown key l).getLast? with _ | c
  · rw [List.getLast?_eq_none_iff] at hs
    have hmem : b ∈ sortDown key l := mem_sortDown.mpr h.mem
    rw [hs] at hmem
    cases hmem
  · rw [h.eq (isLast_of_getLast? hs)]

theorem exists_isFirst (key : α → κ) (h : l ≠ []) : ∃ a, IsFirst key l a := by
  rcases hs : (sortDown key l).head? with _ | a
  · rw [List.head?_eq_none_iff] at hs
    refine absurd (List.eq_nil_of_length_eq_zero ?_) h
    rw [← length_sortDown key l, hs, List.length_nil]
  · exact ⟨a, isFirst_of_head? hs⟩

theorem exists_isLast (key : α → κ) (h : l ≠ []) : ∃ a, IsLast key l a := by
  obtain ⟨a, ha⟩ := exists_isFirst (OrderDual.toDual ∘ key) (List.reverse_ne_nil_iff.mpr h)
  exact ⟨a, isLast_iff.mpr ha⟩

/-- In a list of at least two distinct items the first is not the last. -/
theorem IsFirst.ne_isLast (ha : IsFirst key l a) (hb : IsLast key l b) (hnodup : l.Nodup) (hlength : 2 ≤ l.length) :
    a ≠ b := by
  have hperm : (sortDown key l).Perm l := List.perm_insertionSort _ l
  have hhead := head?_sortDown.mpr ha
  have hlast := getLast?_sortDown.mpr hb
  have hlen := length_sortDown key l
  have hdistinct := hperm.nodup_iff.mpr hnodup
  generalize sortDown key l = s at hhead hlast hlen hdistinct
  rcases s with _ | ⟨c, _ | ⟨d, s⟩⟩
  · cases hhead
  · simp only [List.length_singleton] at hlen
    omega
  · cases hhead
    rw [List.getLast?_cons_cons] at hlast
    rintro rfl
    exact (List.nodup_cons.mp hdistinct).1 (List.mem_of_getLast? hlast)

theorem IsFirst.map {key' : β → κ} {f : α → β} (hf : ∀ x, key' (f x) = key x) (h : IsFirst key l a) :
    IsFirst key' (l.map f) (f a) := by
  obtain ⟨before, after, rfl, hbefore, hafter⟩ := h
  refine ⟨before.map f, after.map f, by simp, ?_, ?_⟩
  · simpa [hf] using hbefore
  · simpa [hf] using hafter

theorem IsLast.map {key' : β → κ} {f : α → β} (hf : ∀ x, key' (f x) = key x) (h : IsLast key l a) :
    IsLast key' (l.map f) (f a) := by
  obtain ⟨before, after, rfl, hbefore, hafter⟩ := h
  refine ⟨before.map f, after.map f, by simp, ?_, ?_⟩
  · simpa [hf] using hbefore
  · simpa [hf] using hafter

/-- A list that is in order stays as it is. -/
theorem sortDown_eq_self (h : l.Pairwise fun x y => key y ≤ key x) : sortDown key l = l := h.insertionSort_eq

/-- Where no two items have the same key, the order before does not matter. -/
theorem sortDown_eq_of_perm {l' : List α} (hnodup : (l.map key).Nodup) (h : l.Perm l') : sortDown key l = sortDown key l' := by
  have : Std.Total fun a b : α => key b ≤ key a := ⟨fun a b => le_total (key b) (key a)⟩
  have : IsTrans α fun a b => key b ≤ key a := ⟨fun a b c hab hbc => hbc.trans hab⟩
  have hperm : (sortDown key l).Perm (sortDown key l') :=
    (List.perm_insertionSort _ l).trans (h.trans (List.perm_insertionSort _ l').symm)
  refine hperm.eq_of_pairwise ?_ (List.pairwise_insertionSort _ l) (List.pairwise_insertionSort _ l')
  intro a b ha hb hba hab
  exact List.inj_on_of_nodup_map hnodup (mem_sortDown.mp ha) (h.mem_iff.mpr (mem_sortDown.mp hb)) (le_antisymm hab hba)

/-- Sorting goes by the keys alone. -/
theorem map_sortDown {key' : β → κ} (f : α → β) (h : ∀ x, key' (f x) = key x) (l : List α) :
    (sortDown key l).map f = sortDown key' (l.map f) := by
  refine List.map_insertionSort _ _ f l fun x _ y _ => ?_
  rw [h x, h y]

/-- Leaving out items before or after an insertion comes to the same. -/
theorem filter_orderedInsert (P : α → Bool) (hsorted : l.Pairwise fun x y => key y ≤ key x) :
    (l.orderedInsert (fun x y => key y ≤ key x) a).filter P =
      if P a then (l.filter P).orderedInsert (fun x y => key y ≤ key x) a else l.filter P := by
  induction l with
  | nil => by_cases ha : P a <;> simp [ha]
  | cons c l ih =>
    rw [List.pairwise_cons] at hsorted
    by_cases hca : key c ≤ key a
    · -- The item goes in front of all others, and of those that stay.
      have hfront : ((c :: l).filter P).orderedInsert (fun x y => key y ≤ key x) a = a :: (c :: l).filter P := by
        rcases hs : (c :: l).filter P with _ | ⟨d, s⟩
        · rfl
        · have hd : d ∈ (c :: l).filter P := by
            rw [hs]
            exact List.mem_cons_self
          refine List.orderedInsert_cons_of_le _ _ ?_
          rcases List.mem_cons.mp (List.mem_of_mem_filter hd) with rfl | hmem
          · exact hca
          · exact (hsorted.1 d hmem).trans hca
      rw [hfront, List.orderedInsert_cons, if_pos hca, List.filter_cons]
    · rw [List.orderedInsert, if_neg hca, List.filter_cons, List.filter_cons, ih hsorted.2]
      by_cases hc : P c <;> by_cases ha : P a <;> simp [hc, ha, hca]

/-- Leaving out items before or after sorting comes to the same. -/
theorem filter_sortDown (P : α → Bool) (l : List α) : (sortDown key l).filter P = sortDown key (l.filter P) := by
  induction l with
  | nil => rfl
  | cons a l ih =>
    simp only [sortDown] at ih ⊢
    rw [List.insertionSort_cons, filter_orderedInsert P (List.pairwise_insertionSort _ l), ih, List.filter_cons]
    split_ifs <;> rfl

end SortDown

end PumpSwapBot.Library
