import PoleClient.Lib.Table

/-! # Lists collected into tables

A list collected into a table keeps of each key the last element: the table and
the list of these elements hold the same.
-/

namespace Lib

variable {α β κ : Type} [DecidableEq κ]

/-- The elements that no later one of the same key supersedes. -/
def lastOfKeys (key : α → κ) : List α → List α
  | [] => []
  | a :: l => if key a ∈ l.map key then lastOfKeys key l else a :: lastOfKeys key l

section LastOfKeys

variable {key : α → κ} {l : List α}

theorem mem_of_mem_lastOfKeys {a : α} (h : a ∈ lastOfKeys key l) : a ∈ l := by
  induction l with
  | nil => cases h
  | cons b l ih =>
      rw [lastOfKeys] at h
      by_cases hlater : key b ∈ l.map key
      · rw [if_pos hlater] at h
        exact List.mem_cons_of_mem b (ih h)
      · rw [if_neg hlater] at h
        rcases List.mem_cons.mp h with rfl | h
        · exact List.mem_cons_self
        · exact List.mem_cons_of_mem b (ih h)

theorem nodup_map_lastOfKeys (key : α → κ) (l : List α) : ((lastOfKeys key l).map key).Nodup := by
  induction l with
  | nil => exact List.nodup_nil
  | cons b l ih =>
      rw [lastOfKeys]
      by_cases hlater : key b ∈ l.map key
      · rwa [if_pos hlater]
      · rw [if_neg hlater, List.map_cons, List.nodup_cons]
        refine ⟨?_, ih⟩
        intro h
        obtain ⟨a, ha, hkey⟩ := List.mem_map.mp h
        exact hlater (hkey ▸ List.mem_map_of_mem (mem_of_mem_lastOfKeys ha))

theorem lastOfKeys_eq_self (h : (l.map key).Nodup) : lastOfKeys key l = l := by
  induction l with
  | nil => rfl
  | cons b l ih =>
      rw [List.map_cons, List.nodup_cons] at h
      rw [lastOfKeys, if_neg h.1, ih h.2]

theorem eq_of_mem_lastOfKeys {a b : α} (ha : a ∈ lastOfKeys key l) (hb : b ∈ lastOfKeys key l)
    (h : key a = key b) : a = b :=
  List.inj_on_of_nodup_map (nodup_map_lastOfKeys key l) ha hb h

end LastOfKeys

namespace Table

variable (key : α → κ) (value : α → β)

def collect (l : List α) : Table κ β :=
  l.foldl (fun t a => t.insert (key a) (value a)) .empty

theorem lookup_foldl_insert (l : List α) (t : Table κ β) (k : κ) (b : β) :
    (l.foldl (fun t a => t.insert (key a) (value a)) t).lookup k = some b ↔
      (∃ a ∈ lastOfKeys key l, key a = k ∧ value a = b) ∨
        k ∉ l.map key ∧ t.lookup k = some b := by
  induction l generalizing t with
  | nil => simp [lastOfKeys]
  | cons a l ih =>
      rw [List.foldl_cons, ih, AList.lookup_insert_ite, lastOfKeys]
      by_cases hkey : k = key a
      · by_cases hlater : key a ∈ l.map key
        · rw [if_pos hlater]
          simp [hkey, hlater]
        · rw [if_neg hlater, if_pos hkey, Option.some.injEq]
          constructor
          · rintro (⟨c, hc, hck, -⟩ | ⟨-, hvalue⟩)
            · exact absurd (hck.trans hkey ▸ List.mem_map_of_mem (mem_of_mem_lastOfKeys hc)) hlater
            · exact .inl ⟨a, List.mem_cons_self, hkey.symm, hvalue⟩
          · rintro (⟨c, hc, hck, hvalue⟩ | ⟨hnot, -⟩)
            · rcases List.mem_cons.mp hc with rfl | hc
              · exact .inr ⟨hkey ▸ hlater, hvalue⟩
              · exact .inl ⟨c, hc, hck, hvalue⟩
            · exact absurd (hkey ▸ List.mem_cons_self) hnot
      · rw [if_neg hkey]
        by_cases hlater : key a ∈ l.map key
        · rw [if_pos hlater, List.map_cons, List.mem_cons]
          simp only [hkey, false_or]
        · rw [if_neg hlater, List.map_cons, List.mem_cons]
          simp only [hkey, false_or, List.mem_cons, exists_eq_or_imp, Ne.symm hkey, false_and]

theorem length_foldl_insert {l : List α} {t : Table κ β} (nodup : (l.map key).Nodup)
    (fresh : ∀ a ∈ l, t.lookup (key a) = none) :
    (l.foldl (fun t a => t.insert (key a) (value a)) t).rows.length =
      t.rows.length + l.length := by
  induction l generalizing t with
  | nil => rfl
  | cons a l ih =>
      obtain ⟨hnot, hnodup⟩ := List.nodup_cons.mp nodup
      have hfirst := fresh a List.mem_cons_self
      rw [List.foldl_cons, ih hnodup, AList.rows_insert_of_none _ hfirst,
        List.length_cons, List.length_cons, Nat.add_assoc, Nat.add_comm 1]
      intro b hb
      rw [AList.lookup_insert_ite, if_neg, fresh b (List.mem_cons_of_mem a hb)]
      exact fun heq => hnot (heq ▸ List.mem_map_of_mem hb)

/-- Under each key the table holds the last element of that key. -/
theorem lookup_collect {l : List α} {k : κ} {b : β} :
    (collect key value l).lookup k = some b ↔
      ∃ a ∈ lastOfKeys key l, key a = k ∧ value a = b := by
  rw [collect, lookup_foldl_insert]
  simp [Table.empty]

theorem length_collect (l : List α) :
    (collect key value l).rows.length = (lastOfKeys key l).length := by
  have hperm : (collect key value l).keys.Perm ((lastOfKeys key l).map key) := by
    apply (List.perm_ext_iff_of_nodup (collect key value l).keys_nodup (nodup_map_lastOfKeys key l)).mpr
    intro k
    rw [AList.mem_keys_iff, List.mem_map]
    simp only [lookup_collect]
    constructor
    · rintro ⟨b, a, ha, hkey, -⟩
      exact ⟨a, ha, hkey⟩
    · rintro ⟨a, ha, hkey⟩
      exact ⟨value a, a, ha, hkey, rfl⟩
  rw [AList.length_rows, hperm.length_eq, List.length_map]

end Table

end Lib
