import Mathlib.Algebra.GroupWithZero.Nat
import Mathlib.Data.List.AList
import Mathlib.Data.List.Perm.Subperm

/-! # Finite tables with sums over their rows

A table is an association list with values of one type, and its rows are its
entries as pairs. Sums over the values change by exactly the value that is
inserted, erased or modified.
-/

namespace Lib

abbrev Table (κ α : Type) : Type := AList fun _ : κ => α

def Table.empty {κ α : Type} : Table κ α := ∅

end Lib

namespace AList

open Lib

variable {κ α : Type}

def rows (t : Table κ α) : List (κ × α) :=
  t.entries.map fun e => (e.1, e.2)

def sum (f : α → Nat) (t : Table κ α) : Nat :=
  (t.rows.map fun e => f e.2).sum

theorem mem_rows {t : Table κ α} {k : κ} {a : α} : (k, a) ∈ t.rows ↔ ⟨k, a⟩ ∈ t.entries := by
  unfold rows
  rw [List.mem_map]
  constructor
  · rintro ⟨e, he, heq⟩
    cases heq
    exact he
  · exact fun h => ⟨_, h, rfl⟩

theorem map_fst_rows (t : Table κ α) : t.rows.map Prod.fst = t.keys :=
  List.map_map

theorem fst_mem_keys {t : Table κ α} {e : κ × α} (h : e ∈ t.rows) : e.1 ∈ t.keys := by
  rw [← map_fst_rows]
  exact List.mem_map_of_mem h

theorem length_rows (t : Table κ α) : t.rows.length = t.keys.length := by
  rw [← map_fst_rows, List.length_map]

theorem nodup_fst_rows (t : Table κ α) : (t.rows.map Prod.fst).Nodup := by
  rw [map_fst_rows]
  exact t.keys_nodup

theorem nodup_rows (t : Table κ α) : t.rows.Nodup :=
  t.nodup_fst_rows.of_map

theorem sum_eq_zero {f : α → Nat} {t : Table κ α} (h : ∀ e ∈ t.rows, f e.2 = 0) :
    t.sum f = 0 := by
  unfold sum
  rw [List.map_congr_left h]
  simp

def modify [DecidableEq κ] (t : Table κ α) (k : κ) (f : α → α) : Table κ α where
  entries := t.entries.map (.map id fun key a => if key = k then f a else a)
  nodupKeys := t.nodupKeys.map₂ _

variable [DecidableEq κ]

/-! ## Rows -/

/-- Distinct keys make membership and lookup the same. -/
theorem lookup_eq_some_iff {t : Table κ α} {k : κ} {a : α} :
    t.lookup k = some a ↔ (k, a) ∈ t.rows := by
  rw [mem_rows, ← mem_lookup_iff, Option.mem_def]

theorem lookup_eq_find (t : Table κ α) (k : κ) :
    t.lookup k = (t.rows.find? fun e => e.1 = k).map Prod.snd := by
  unfold lookup rows
  induction t.entries with
  | nil => rfl
  | cons e entries ih =>
      rw [List.map_cons, List.find?_cons]
      by_cases hk : e.1 = k
      · subst hk
        rw [show e = ⟨e.1, e.2⟩ from rfl, List.dlookup_cons_eq]
        simp
      · simp [hk, ih, List.dlookup_cons_ne entries e (Ne.symm hk)]

/-- Among pairs with distinct keys the one of a key is the first of it. -/
theorem find_eq_some_iff {l : List (κ × α)} (nodup : (l.map Prod.fst).Nodup) {k : κ} {a : α} :
    (l.find? fun e => e.1 = k).map Prod.snd = some a ↔ (k, a) ∈ l := by
  have hkeys : (l.map Prod.toSigma).NodupKeys := by
    rw [List.NodupKeys, List.keys, List.map_map]
    exact nodup
  have hrows : rows ⟨l.map Prod.toSigma, hkeys⟩ = l := by
    rw [rows, List.map_map]
    exact List.map_id l
  have hlookup := lookup_eq_some_iff (t := ⟨l.map Prod.toSigma, hkeys⟩) (k := k) (a := a)
  rwa [lookup_eq_find, hrows] at hlookup

theorem mem_keys_iff {t : Table κ α} {k : κ} : k ∈ t.keys ↔ ∃ a, t.lookup k = some a := by
  rw [← mem_keys, ← lookup_isSome, Option.isSome_iff_exists]

theorem lookup_insert_ite (t : Table κ α) (k other : κ) (a : α) :
    (t.insert k a).lookup other = if other = k then some a else t.lookup other := by
  by_cases hk : other = k
  · rw [if_pos hk, hk, lookup_insert]
  · rw [if_neg hk, lookup_insert_ne hk]

theorem lookup_erase_ite (t : Table κ α) (k other : κ) :
    (t.erase k).lookup other = if other = k then none else t.lookup other := by
  by_cases hk : other = k
  · rw [if_pos hk, hk, lookup_erase]
  · rw [if_neg hk, lookup_erase_ne hk]

theorem mem_rows_erase {t : Table κ α} {k : κ} {e : κ × α} :
    e ∈ (t.erase k).rows ↔ e ∈ t.rows ∧ e.1 ≠ k := by
  rw [← lookup_eq_some_iff, ← lookup_eq_some_iff, lookup_erase_ite]
  by_cases hk : e.1 = k
  · simp [hk]
  · simp [hk]

theorem rows_insert (t : Table κ α) (k : κ) (a : α) :
    (t.insert k a).rows = (k, a) :: (t.erase k).rows := rfl

theorem mem_rows_insert {t : Table κ α} {k : κ} {a : α} {e : κ × α} :
    e ∈ (t.insert k a).rows ↔ e = (k, a) ∨ (e ∈ t.rows ∧ e.1 ≠ k) := by
  rw [rows_insert, List.mem_cons, mem_rows_erase]

theorem erase_of_lookup_none {t : Table κ α} {k : κ} (h : t.lookup k = none) : t.erase k = t :=
  ext (List.kerase_of_notMem_keys (lookup_eq_none.mp h))

theorem rows_insert_of_none {t : Table κ α} {k : κ} (a : α) (h : t.lookup k = none) :
    (t.insert k a).rows = (k, a) :: t.rows := by
  rw [rows_insert, erase_of_lookup_none h]

theorem keys_insert_of_none {t : Table κ α} {k : κ} (a : α) (h : t.lookup k = none) :
    (t.insert k a).keys = k :: t.keys := by
  rw [← map_fst_rows, rows_insert_of_none a h, List.map_cons, map_fst_rows]

@[simp] theorem keys_modify (t : Table κ α) (k : κ) (f : α → α) :
    (t.modify k f).keys = t.keys :=
  List.map₂_keys _ _

theorem lookup_modify (t : Table κ α) (k other : κ) (f : α → α) :
    (t.modify k f).lookup other =
      if other = k then (t.lookup k).map f else t.lookup other := by
  have hmap : (t.modify k f).lookup other =
      (t.lookup other).map fun a => if other = k then f a else a := List.dlookup_map₂ other
  rw [hmap]
  by_cases hk : other = k
  · subst hk
    simp
  · simp [hk]

theorem mem_rows_modify {t : Table κ α} {k : κ} {f : α → α} {e : κ × α}
    (h : e ∈ (t.modify k f).rows) :
    (e ∈ t.rows ∧ e.1 ≠ k) ∨ ∃ a, (k, a) ∈ t.rows ∧ e = (k, f a) := by
  rw [← lookup_eq_some_iff, lookup_modify] at h
  by_cases hk : e.1 = k
  · rw [if_pos hk] at h
    obtain ⟨a, ha, hvalue⟩ := Option.map_eq_some_iff.mp h
    exact .inr ⟨a, lookup_eq_some_iff.mp ha, Prod.ext hk hvalue.symm⟩
  · rw [if_neg hk] at h
    exact .inl ⟨lookup_eq_some_iff.mp h, hk⟩

/-! ## Equality up to the order of the rows -/

theorem perm_rows {t u : Table κ α} (h : ∀ k, t.lookup k = u.lookup k) :
    t.rows.Perm u.rows := by
  apply (List.perm_ext_iff_of_nodup t.nodup_rows u.nodup_rows).mpr
  intro e
  rw [← lookup_eq_some_iff, ← lookup_eq_some_iff, h]

/-- As many rows, and each of the first table's in the second. -/
def agrees [DecidableEq α] (t u : Table κ α) : Bool :=
  t.rows.length == u.rows.length && t.rows.all fun e => u.lookup e.1 == some e.2

theorem agrees_iff [DecidableEq α] {t u : Table κ α} :
    t.agrees u = true ↔ ∀ k, t.lookup k = u.lookup k := by
  unfold agrees
  rw [Bool.and_eq_true, beq_iff_eq, List.all_eq_true]
  constructor
  · rintro ⟨hlength, hall⟩ k
    have hsub : t.rows ⊆ u.rows :=
      fun e he => lookup_eq_some_iff.mp (by simpa using hall e he)
    have hperm : t.rows.Perm u.rows :=
      (List.subperm_of_subset t.nodup_rows hsub).perm_of_length_le (Nat.le_of_eq hlength.symm)
    apply Option.ext
    intro a
    rw [lookup_eq_some_iff, lookup_eq_some_iff]
    exact hperm.mem_iff
  · intro hlookup
    refine ⟨(perm_rows hlookup).length_eq, fun e he => ?_⟩
    rw [beq_iff_eq, ← hlookup, lookup_eq_some_iff]
    exact he

/-! ## Sums -/

theorem sum_insert_of_none {t : Table κ α} {k : κ} (f : α → Nat) (a : α)
    (h : t.lookup k = none) : (t.insert k a).sum f = f a + t.sum f := by
  rw [sum, rows_insert_of_none a h]
  rfl

theorem sum_eq_of_lookup {t u : Table κ α} (f : α → Nat) (h : ∀ k, t.lookup k = u.lookup k) :
    t.sum f = u.sum f :=
  ((perm_rows h).map _).sum_nat

/-- The sum of a table that is another one but for the value of a key. -/
theorem sum_eq_add_erase {t u : Table κ α} {k : κ} {a : α} (f : α → Nat)
    (h : u.lookup k = some a) (hother : ∀ other, other ≠ k → u.lookup other = t.lookup other) :
    u.sum f = f a + (t.erase k).sum f := by
  rw [← sum_insert_of_none f a (t.lookup_erase k)]
  apply sum_eq_of_lookup
  intro other
  rw [lookup_insert_ite, lookup_erase_ite]
  by_cases hk : other = k
  · rw [if_pos hk, hk, h]
  · rw [if_neg hk, if_neg hk, hother other hk]

theorem sum_erase_add {t : Table κ α} {k : κ} {a : α} (f : α → Nat)
    (h : t.lookup k = some a) : (t.erase k).sum f + f a = t.sum f := by
  rw [sum_eq_add_erase f h fun _ _ => rfl, Nat.add_comm]

theorem sum_modify_add {t : Table κ α} {k : κ} {a : α} (f : α → Nat) (g : α → α)
    (h : t.lookup k = some a) : (t.modify k g).sum f + f a = t.sum f + f (g a) := by
  have hvalue : (t.modify k g).lookup k = some (g a) := by
    rw [lookup_modify, if_pos rfl, h, Option.map_some]
  have hother : ∀ other, other ≠ k → (t.modify k g).lookup other = t.lookup other := by
    intro other hne
    rw [lookup_modify, if_neg hne]
  rw [sum_eq_add_erase f hvalue hother, ← sum_erase_add f h]
  omega

end AList
