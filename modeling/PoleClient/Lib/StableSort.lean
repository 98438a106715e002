import Mathlib.Data.List.Forall2
import Mathlib.Data.List.Sort

/-! # Stable orders

A list in the order of its keys, in which what has the same key stands as it
stood before. There is one such order, and an insertion sort makes it. Lists that are
related place by place stay so when they are sorted by what the relation keeps.
-/

namespace Lib

variable {α : Type} {key : α → Nat} {input output : List α}

structure StablyOrdered (key : α → Nat) (input output : List α) : Prop where
  perm : output.Perm input
  ordered : output.Pairwise fun a b => key a ≤ key b
  stable : ∀ k, output.filter (fun a => key a = k) = input.filter fun a => key a = k

/-- Ordered lists are equal if their parts of each key are. -/
theorem eq_of_ordered {first second : List α} (hfirst : first.Pairwise fun a b => key a ≤ key b)
    (hsecond : second.Pairwise fun a b => key a ≤ key b)
    (h : ∀ k, first.filter (fun a => key a = k) = second.filter fun a => key a = k) :
    first = second := by
  induction first generalizing second with
  | nil =>
      cases second with
      | nil => rfl
      | cons b second =>
          have hb := h (key b)
          simp at hb
  | cons a first ih =>
      cases second with
      | nil =>
          have ha := h (key a)
          simp at ha
      | cons b second =>
          rw [List.pairwise_cons] at hfirst hsecond
          -- each head is in the other list, so that neither key is below the other
          have hle : ∀ {c d : α} {l : List α}, (∀ x ∈ l, key d ≤ key x) →
              c ∈ (d :: l).filter (fun x => key x = key c) → key d ≤ key c := by
            intro c d l hl hc
            rcases List.mem_cons.mp (List.mem_of_mem_filter hc) with rfl | hc
            · exact Nat.le_refl _
            · exact hl c hc
          have hba : key b ≤ key a := hle hsecond.1 (by rw [← h]; simp)
          have hab : key a ≤ key b := hle hfirst.1 (by rw [h]; simp)
          have hkey : key a = key b := by omega
          have hheads := h (key a)
          rw [List.filter_cons_of_pos (by simp), List.filter_cons_of_pos (by simp [hkey])] at hheads
          obtain ⟨rfl, -⟩ := List.cons.inj hheads
          congr 1
          apply ih hfirst.2 hsecond.2
          intro k
          have hk := h k
          by_cases hak : key a = k
          · rw [List.filter_cons_of_pos (by simp [hak]),
              List.filter_cons_of_pos (by simp [hak])] at hk
            exact (List.cons.inj hk).2
          · rwa [List.filter_cons_of_neg (by simp [hak]),
              List.filter_cons_of_neg (by simp [hak])] at hk

theorem StablyOrdered.unique {other : List α} (h : StablyOrdered key input output)
    (hother : StablyOrdered key input other) : output = other :=
  eq_of_ordered h.ordered hother.ordered fun k => (h.stable k).trans (hother.stable k).symm

theorem StablyOrdered.filter (h : StablyOrdered key input output) (p : α → Bool) :
    StablyOrdered key (input.filter p) (output.filter p) where
  perm := h.perm.filter p
  ordered := h.ordered.filter p
  stable := by
    intro k
    rw [List.filter_comm, h.stable k, List.filter_comm]

theorem stablyOrdered_insertionSort (r : α → α → Prop) [DecidableRel r]
    (hr : ∀ a b, r a b ↔ key a ≤ key b) (input : List α) :
    StablyOrdered key input (input.insertionSort r) := by
  have total : Std.Total r := ⟨fun a b => by rw [hr, hr]; omega⟩
  have trans : IsTrans α r := ⟨fun a b c hab hbc => by rw [hr] at *; omega⟩
  have hperm := List.perm_insertionSort r input
  refine ⟨hperm, (List.pairwise_insertionSort r input).imp fun h => (hr _ _).mp h, ?_⟩
  intro k
  -- what has one key is ordered already, and so stays a part of the list
  have hequal : (input.filter fun a => key a = k).Pairwise r := by
    apply List.pairwise_of_forall_mem_list
    intro a ha b hb
    rw [List.mem_filter, decide_eq_true_eq] at ha hb
    rw [hr]
    omega
  have hpart := (List.sublist_insertionSort hequal List.filter_sublist).filter
    fun a => decide (key a = k)
  rw [List.filter_filter] at hpart
  simp only [Bool.and_self] at hpart
  exact (hpart.eq_of_length (hperm.filter _).length_eq.symm).symm

/-! ## Related lists -/

section Related

variable {β : Type} {R : α → β → Prop} {r : α → α → Prop} {s : β → β → Prop}
  [DecidableRel r] [DecidableRel s]

theorem forall₂_orderedInsert (same : ∀ a b c d, R a b → R c d → (r a c ↔ s b d))
    {a : α} {b : β} (hab : R a b) {first : List α} {second : List β}
    (h : List.Forall₂ R first second) :
    List.Forall₂ R (first.orderedInsert r a) (second.orderedInsert s b) := by
  induction h with
  | nil => exact .cons hab .nil
  | @cons c d _ _ hcd htail ih =>
      have hiff := same a b c d hab hcd
      rw [List.orderedInsert_cons, List.orderedInsert_cons]
      by_cases hle : r a c
      · rw [if_pos hle, if_pos (hiff.mp hle)]
        exact .cons hab (.cons hcd htail)
      · rw [if_neg hle, if_neg (hle ∘ hiff.mpr)]
        exact .cons hcd ih

theorem forall₂_insertionSort (same : ∀ a b c d, R a b → R c d → (r a c ↔ s b d))
    {first : List α} {second : List β} (h : List.Forall₂ R first second) :
    List.Forall₂ R (first.insertionSort r) (second.insertionSort s) := by
  induction h with
  | nil => exact .nil
  | cons hab _ ih => exact forall₂_orderedInsert same hab ih

end Related

end Lib
