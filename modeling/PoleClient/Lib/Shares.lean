import Mathlib.Algebra.GroupWithZero.Nat
import Mathlib.Order.Interval.Finset.Nat

/-! # Shares of a range

A list of shares cuts the range below its sum into half-open intervals, one for
each place of the list, as long as the share of the place.
-/

namespace Lib.Shares

def start (shares : List Nat) (place : Nat) : Nat := (shares.take place).sum

def Owns (shares : List Nat) (place value : Nat) : Prop :=
  start shares place ≤ value ∧ value < start shares (place + 1)

instance (shares : List Nat) (place value : Nat) : Decidable (Owns shares place value) :=
  inferInstanceAs (Decidable (_ ∧ _))

@[simp] theorem start_zero (shares : List Nat) : start shares 0 = 0 := rfl

@[simp] theorem start_cons_succ (share : Nat) (shares : List Nat) (place : Nat) :
    start (share :: shares) (place + 1) = share + start shares place := List.sum_cons

theorem start_succ {shares : List Nat} {place share : Nat} (h : shares[place]? = some share) :
    start shares (place + 1) = start shares place + share := by
  induction shares generalizing place with
  | nil => cases h
  | cons first shares ih =>
      cases place with
      | zero =>
          obtain rfl := Option.some.inj h
          simp
      | succ place =>
          rw [start_cons_succ, start_cons_succ, ih h, Nat.add_assoc]

theorem start_mono (shares : List Nat) {place other : Nat} (h : place ≤ other) :
    start shares place ≤ start shares other := by
  induction shares generalizing place other with
  | nil => simp [start]
  | cons share shares ih =>
      cases place with
      | zero => exact Nat.zero_le _
      | succ place =>
          obtain ⟨other, rfl⟩ := Nat.exists_eq_succ_of_ne_zero (by omega : other ≠ 0)
          rw [start_cons_succ, start_cons_succ]
          exact Nat.add_le_add_left (ih (by omega)) share

theorem owns_cons_succ_iff (share : Nat) (shares : List Nat) (place value : Nat) :
    Owns (share :: shares) (place + 1) value ↔
      share ≤ value ∧ Owns shares place (value - share) := by
  unfold Owns
  rw [start_cons_succ, start_cons_succ]
  omega

theorem owns_cons_zero_iff (share : Nat) (shares : List Nat) (value : Nat) :
    Owns (share :: shares) 0 value ↔ value < share := by
  unfold Owns
  simp

/-! ## A partition -/

theorem owner_unique {shares : List Nat} {place other value : Nat} (h : Owns shares place value)
    (hother : Owns shares other value) : place = other := by
  obtain ⟨hle, hlt⟩ := h
  obtain ⟨hleOther, hltOther⟩ := hother
  rcases Nat.lt_trichotomy place other with hbefore | heq | hafter
  · have hmono := start_mono shares (show place + 1 ≤ other by omega)
    omega
  · exact heq
  · have hmono := start_mono shares (show other + 1 ≤ place by omega)
    omega

theorem exists_owner {shares : List Nat} {value : Nat} (h : value < shares.sum) :
    ∃ place < shares.length, Owns shares place value := by
  induction shares generalizing value with
  | nil => cases h
  | cons share shares ih =>
      by_cases hfirst : value < share
      · exact ⟨0, Nat.succ_pos _, (owns_cons_zero_iff share shares value).mpr hfirst⟩
      · have hrest : value - share < shares.sum := by
          rw [List.sum_cons] at h
          omega
        obtain ⟨place, hplace, howns⟩ := ih hrest
        exact ⟨place + 1, Nat.succ_lt_succ hplace,
          (owns_cons_succ_iff share shares place value).mpr ⟨by omega, howns⟩⟩

theorem start_le_sum (shares : List Nat) (place : Nat) : start shares place ≤ shares.sum := by
  induction shares generalizing place with
  | nil => simp [start]
  | cons share shares ih =>
      cases place with
      | zero => exact Nat.zero_le _
      | succ place =>
          rw [start_cons_succ, List.sum_cons]
          exact Nat.add_le_add_left (ih place) share

/-- A place owns as many values as its share says. -/
theorem card_owned {shares : List Nat} {place share : Nat} (h : shares[place]? = some share) :
    ((Finset.range shares.sum).filter (Owns shares place)).card = share := by
  have hinterval : (Finset.range shares.sum).filter (Owns shares place) =
      Finset.Ico (start shares place) (start shares (place + 1)) := by
    ext value
    have hsum := start_le_sum shares (place + 1)
    simp only [Finset.mem_filter, Finset.mem_range, Finset.mem_Ico, Owns]
    omega
  rw [hinterval, Nat.card_Ico, start_succ h]
  omega

end Lib.Shares
