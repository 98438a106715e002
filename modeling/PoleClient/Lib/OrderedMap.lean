import Mathlib.Order.Lattice

/-! # Maps with ordered keys

Entries in the order of their keys, each key once. An entry is found under its
own key by asking for the greatest key that is not above a bound.
-/

namespace Lib

variable {κ α : Type} [LinearOrder κ]

variable (κ α) in
structure OrderedMap where
  entries : List (κ × α)
  sorted : entries.Pairwise fun first second => first.1 < second.1

namespace OrderedMap

def empty : OrderedMap κ α := ⟨[], .nil⟩

/-! ## Insertion -/

def insertEntry (key : κ) (value : α) : List (κ × α) → List (κ × α)
  | [] => [(key, value)]
  | entry :: entries =>
      if key < entry.1 then (key, value) :: entry :: entries
      else if key = entry.1 then (key, value) :: entries
      else entry :: insertEntry key value entries

theorem mem_insertEntry {key : κ} {value : α} {entries : List (κ × α)} {e : κ × α}
    (h : e ∈ insertEntry key value entries) : e = (key, value) ∨ e ∈ entries := by
  induction entries with
  | nil => exact .inl (List.mem_singleton.mp h)
  | cons entry entries ih =>
      rw [insertEntry] at h
      split at h
      · exact List.mem_cons.mp h
      · split at h
        · rcases List.mem_cons.mp h with rfl | hrest
          · exact .inl rfl
          · exact .inr (List.mem_cons_of_mem entry hrest)
        · rcases List.mem_cons.mp h with rfl | hrest
          · exact .inr List.mem_cons_self
          · exact (ih hrest).imp_right (List.mem_cons_of_mem entry)

theorem sorted_insertEntry (key : κ) (value : α) {entries : List (κ × α)}
    (sorted : entries.Pairwise fun first second => first.1 < second.1) :
    (insertEntry key value entries).Pairwise fun first second => first.1 < second.1 := by
  induction entries with
  | nil => exact List.pairwise_singleton _ _
  | cons entry entries ih =>
      obtain ⟨hhead, htail⟩ := List.pairwise_cons.mp sorted
      rw [insertEntry]
      split
      · rename_i hlt
        refine List.pairwise_cons.mpr ⟨fun other hother => ?_, sorted⟩
        rcases List.mem_cons.mp hother with rfl | hrest
        · exact hlt
        · exact hlt.trans (hhead other hrest)
      · rename_i hnlt
        split
        · rename_i heq
          exact List.pairwise_cons.mpr ⟨fun other hother => heq ▸ hhead other hother, htail⟩
        · rename_i hne
          refine List.pairwise_cons.mpr ⟨fun other hother => ?_, ih htail⟩
          rcases mem_insertEntry hother with rfl | hrest
          · exact lt_of_le_of_ne (not_lt.mp hnlt) (Ne.symm hne)
          · exact hhead other hrest

/-- A key that is there already gets the new value. -/
def insert (map : OrderedMap κ α) (key : κ) (value : α) : OrderedMap κ α :=
  ⟨insertEntry key value map.entries, sorted_insertEntry key value map.sorted⟩

theorem mem_insert {map : OrderedMap κ α} {key : κ} {value : α} {e : κ × α}
    (h : e ∈ (map.insert key value).entries) : e = (key, value) ∨ e ∈ map.entries :=
  mem_insertEntry h

theorem mem_insertEntry_iff (key : κ) (value : α) {entries : List (κ × α)}
    (sorted : entries.Pairwise fun first second => first.1 < second.1) (e : κ × α) :
    e ∈ insertEntry key value entries ↔ e = (key, value) ∨ e.1 ≠ key ∧ e ∈ entries := by
  induction entries with
  | nil => simp [insertEntry]
  | cons entry entries ih =>
      obtain ⟨hhead, htail⟩ := List.pairwise_cons.mp sorted
      rw [insertEntry]
      split
      · rename_i hlt
        have hne : e ∈ entry :: entries → e.1 ≠ key := by
          intro he
          rcases List.mem_cons.mp he with rfl | hrest
          · exact hlt.ne'
          · exact (hlt.trans (hhead e hrest)).ne'
        rw [List.mem_cons, and_iff_right_of_imp hne]
      · split
        · rename_i heq
          have hfirst : e = entry → e.1 = key := fun he => by rw [he, heq]
          have hrest : e ∈ entries → e.1 ≠ key := fun he => heq ▸ (hhead e he).ne'
          grind
        · rename_i hne
          have hfirst : e = entry → e.1 ≠ key := fun he => by rw [he]; exact Ne.symm hne
          rw [List.mem_cons, List.mem_cons, ih htail]
          grind

theorem mem_insert_iff (map : OrderedMap κ α) (key : κ) (value : α) (e : κ × α) :
    e ∈ (map.insert key value).entries ↔ e = (key, value) ∨ e.1 ≠ key ∧ e ∈ map.entries :=
  mem_insertEntry_iff key value map.sorted e

theorem ext_of_mem {map other : OrderedMap κ α}
    (h : ∀ e, e ∈ map.entries ↔ e ∈ other.entries) : map = other := by
  have hnodup : ∀ m : OrderedMap κ α, m.entries.Nodup := fun m =>
    m.sorted.imp fun hlt heq => hlt.ne (congrArg Prod.fst heq)
  have hperm : map.entries.Perm other.entries :=
    (List.perm_ext_iff_of_nodup (hnodup map) (hnodup other)).mpr h
  have hentries : map.entries = other.entries := by
    apply hperm.eq_of_pairwise _ map.sorted other.sorted
    intro first second _ _ hlt hgt
    exact absurd (hlt.trans hgt) (lt_irrefl _)
  cases map
  cases other
  cases hentries
  rfl

/-! ## The greatest key below a bound -/

/-- The last entry of the range up to and with `key`. -/
def lastUpTo (map : OrderedMap κ α) (key : κ) : Option (κ × α) :=
  (map.entries.filter fun entry => entry.1 ≤ key).getLast?

theorem mem_of_lastUpTo {map : OrderedMap κ α} {key : κ} {e : κ × α}
    (h : map.lastUpTo key = some e) : e ∈ map.entries :=
  (List.mem_filter.mp (List.mem_of_getLast? h)).1

theorem lastUpTo_of_mem {map : OrderedMap κ α} {e : κ × α} (h : e ∈ map.entries) :
    map.lastUpTo e.1 = some e := by
  obtain ⟨before, after, hentries⟩ := List.append_of_mem h
  have hsorted := map.sorted
  rw [hentries] at hsorted
  obtain ⟨-, hrest, -⟩ := List.pairwise_append.mp hsorted
  have habove : after.filter (fun entry => decide (entry.1 ≤ e.1)) = [] := by
    rw [List.filter_eq_nil_iff]
    intro entry hentry
    simpa using (List.pairwise_cons.mp hrest).1 entry hentry
  rw [lastUpTo, hentries, List.filter_append, List.filter_cons_of_pos (by simp), habove,
    List.getLast?_append]
  rfl

theorem lastUpTo_eq_none_iff (map : OrderedMap κ α) (key : κ) :
    map.lastUpTo key = none ↔ ∀ e ∈ map.entries, key < e.1 := by
  rw [lastUpTo, List.getLast?_eq_none_iff, List.filter_eq_nil_iff]
  simp

theorem le_of_lastUpTo {map : OrderedMap κ α} {key : κ} {e : κ × α}
    (h : map.lastUpTo key = some e) : e.1 ≤ key := by
  simpa using (List.mem_filter.mp (List.mem_of_getLast? h)).2

/-- What is found has the greatest key that is not above the bound. -/
theorem le_of_mem_of_le {map : OrderedMap κ α} {key : κ} {e other : κ × α}
    (h : map.lastUpTo key = some e) (hother : other ∈ map.entries) (hle : other.1 ≤ key) :
    other.1 ≤ e.1 := by
  obtain ⟨before, hbefore⟩ := List.getLast?_eq_some_iff.mp h
  have hmem : other ∈ map.entries.filter fun entry => entry.1 ≤ key :=
    List.mem_filter.mpr ⟨hother, by simpa using hle⟩
  have hsorted := map.sorted.filter fun entry => decide (entry.1 ≤ key)
  rw [hbefore] at hmem hsorted
  rcases List.mem_append.mp hmem with hfirst | hlast
  · exact ((List.pairwise_append.mp hsorted).2.2 other hfirst e (List.mem_singleton_self e)).le
  · rw [List.mem_singleton.mp hlast]

theorem lastUpTo_of_greatest {map : OrderedMap κ α} {key : κ} {e : κ × α}
    (hmem : e ∈ map.entries) (hle : e.1 ≤ key)
    (hgreatest : ∀ other ∈ map.entries, other.1 ≤ key → other.1 ≤ e.1) :
    map.lastUpTo key = some e := by
  cases hfound : map.lastUpTo key with
  | none => exact absurd hle (not_le.mpr ((lastUpTo_eq_none_iff map key).mp hfound e hmem))
  | some found =>
      have hkey : found.1 = e.1 :=
        le_antisymm (hgreatest found (mem_of_lastUpTo hfound) (le_of_lastUpTo hfound))
          (le_of_mem_of_le hfound hmem hle)
      rw [← lastUpTo_of_mem hmem, ← hkey, lastUpTo_of_mem (mem_of_lastUpTo hfound)]

/-- An insertion changes what is found to the new entry, or not at all. -/
theorem lastUpTo_insert (map : OrderedMap κ α) (newKey : κ) (value : α) (key : κ) :
    (map.insert newKey value).lastUpTo key = map.lastUpTo key ∨
      (map.insert newKey value).lastUpTo key = some (newKey, value) := by
  cases hfound : (map.insert newKey value).lastUpTo key with
  | none =>
      left
      rw [lastUpTo_eq_none_iff] at hfound
      symm
      rw [lastUpTo_eq_none_iff]
      intro e he
      by_cases hkey : e.1 = newKey
      · rw [hkey]
        exact hfound (newKey, value) ((mem_insert_iff map newKey value _).mpr (.inl rfl))
      · exact hfound e ((mem_insert_iff map newKey value e).mpr (.inr ⟨hkey, he⟩))
  | some e =>
      rcases (mem_insert_iff map newKey value e).mp (mem_of_lastUpTo hfound) with rfl | ⟨hne, hold⟩
      · exact .inr rfl
      · left
        symm
        apply lastUpTo_of_greatest hold (le_of_lastUpTo hfound)
        intro other hother hle
        by_cases hkey : other.1 = newKey
        · have hnew := (mem_insert_iff map newKey value (newKey, value)).mpr (.inl rfl)
          rw [hkey]
          exact le_of_mem_of_le hfound hnew (hkey ▸ hle)
        · have hkept := (mem_insert_iff map newKey value other).mpr (.inr ⟨hkey, hother⟩)
          exact le_of_mem_of_le hfound hkept hle

end OrderedMap

end Lib
