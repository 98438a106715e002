import Mathlib.Data.List.Destutter
import Mathlib.Data.List.Sort

/-! # Sorted vectors

A vector that is sorted and rid of equal neighbours is determined by its
elements, and a binary search finds exactly these.
-/

namespace Lib

variable {α : Type} [LinearOrder α] {l other : List α} {a x : α}

/-! ## Sorting -/

/-- Sorted, with one of each run of equal neighbours. -/
def sortDedup (l : List α) : List α :=
  (l.insertionSort (· ≤ ·)).destutter (· ≠ ·)

theorem sortDedup_eq_dedup (l : List α) :
    sortDedup l = (l.insertionSort (· ≤ ·)).dedup :=
  (List.pairwise_insertionSort (· ≤ ·) l).destutter_eq_dedup

@[simp] theorem mem_sortDedup : a ∈ sortDedup l ↔ a ∈ l := by
  rw [sortDedup_eq_dedup, List.mem_dedup, List.mem_insertionSort]

theorem pairwise_lt_sortDedup (l : List α) : (sortDedup l).Pairwise (· < ·) := by
  have hle : (sortDedup l).Pairwise (· ≤ ·) :=
    (List.pairwise_insertionSort (· ≤ ·) l).sublist (List.destutter_sublist _ _)
  have hne : (sortDedup l).Pairwise (· ≠ ·) := by
    rw [sortDedup_eq_dedup]
    exact List.nodup_dedup _
  exact hle.imp₂ (fun _ _ hle hne => lt_of_le_of_ne hle hne) hne

theorem sortDedup_congr (h : ∀ a, a ∈ l ↔ a ∈ other) : sortDedup l = sortDedup other := by
  apply (pairwise_lt_sortDedup l).eq_of_mem_iff (pairwise_lt_sortDedup other)
  intro a
  rw [mem_sortDedup, mem_sortDedup, h]

theorem sortDedup_eq_nil : sortDedup l = [] ↔ l = [] := by
  rw [List.eq_nil_iff_forall_not_mem, List.eq_nil_iff_forall_not_mem]
  simp only [mem_sortDedup]

/-! ## Searching -/

/-- The rounds of a binary search among `size` elements from `base` on. A round keeps the half
that can hold the last element not above `x`. -/
def searchRounds (l : List α) (x : α) : Nat → Nat → Nat → Nat
  | 0, base, _ => base
  | rounds + 1, base, size =>
      if size ≤ 1 then base
      else
        let mid := base + size / 2
        match l[mid]? with
        | none => base
        | some y => searchRounds l x rounds (if x < y then base else mid) (size - size / 2)

/-- The place of an element equal to `x`. -/
def binarySearch (l : List α) (x : α) : Option Nat :=
  if l.length = 0 then none
  else
    let base := searchRounds l x l.length 0 l.length
    if l[base]? = some x then some base else none

theorem getElem_le_getElem (sorted : l.Pairwise (· ≤ ·)) {i j : Nat} (hi : i < l.length)
    (hj : j < l.length) (h : i ≤ j) : l[i] ≤ l[j] :=
  sorted.rel_get_of_le (show (⟨i, hi⟩ : Fin l.length) ≤ ⟨j, hj⟩ from h)

theorem getElem?_searchRounds (sorted : l.Pairwise (· ≤ ·)) {rounds base size i : Nat}
    (enough : size ≤ rounds + 1) (bound : base + size ≤ l.length) (hbase : base ≤ i)
    (hi : i < base + size) (hx : l[i]? = some x) :
    l[searchRounds l x rounds base size]? = some x := by
  induction rounds generalizing base size i with
  | zero =>
      have hplace : i = base := by omega
      rw [searchRounds, ← hplace, hx]
  | succ rounds ih =>
      rw [searchRounds]
      by_cases hsmall : size ≤ 1
      · have hplace : i = base := by omega
        rw [if_pos hsmall, ← hplace, hx]
      · have hmid : base + size / 2 < l.length := by omega
        rw [if_neg hsmall]
        simp only [List.getElem?_eq_getElem hmid]
        obtain ⟨hlength, hget⟩ := List.getElem?_eq_some_iff.mp hx
        by_cases hlt : x < l[base + size / 2]
        · rw [if_pos hlt]
          -- the elements from the middle on are above
          have hbefore : i < base + size / 2 := by
            by_contra hafter
            have hle := getElem_le_getElem sorted hmid hlength (by omega)
            rw [hget] at hle
            exact absurd hlt (not_lt.mpr hle)
          exact ih (by omega) (by omega) hbase (by omega) hx
        · rw [if_neg hlt]
          by_cases hafter : base + size / 2 ≤ i
          · exact ih (by omega) (by omega) hafter (by omega) hx
          · -- between an element `x` and the middle, itself not above, all are `x`
            have hle := getElem_le_getElem sorted hlength hmid (by omega)
            rw [hget] at hle
            have hsame : l[base + size / 2] = x := le_antisymm (not_lt.mp hlt) hle
            exact ih (by omega) (by omega) le_rfl (by omega)
              (by rw [List.getElem?_eq_getElem hmid, hsame])

theorem isSome_binarySearch (sorted : l.Pairwise (· ≤ ·)) :
    (binarySearch l x).isSome = true ↔ x ∈ l := by
  unfold binarySearch
  constructor
  · intro h
    by_cases hempty : l.length = 0
    · rw [if_pos hempty] at h
      cases h
    · rw [if_neg hempty] at h
      by_cases hfound : l[searchRounds l x l.length 0 l.length]? = some x
      · exact List.mem_of_getElem? hfound
      · simp only [if_neg hfound] at h
        cases h
  · intro h
    obtain ⟨i, hi⟩ := List.mem_iff_getElem?.mp h
    obtain ⟨hlength, -⟩ := List.getElem?_eq_some_iff.mp hi
    rw [if_neg (by omega)]
    have hfound : l[searchRounds l x l.length 0 l.length]? = some x :=
      getElem?_searchRounds sorted (Nat.le_succ l.length) (by omega) (Nat.zero_le i) (by omega) hi
    simp only [hfound, if_true, Option.isSome_some]

end Lib
