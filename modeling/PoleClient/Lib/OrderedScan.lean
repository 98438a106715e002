import Mathlib.Data.List.Sort

/-! # Indexed scans restored to list order

An index over a list files every entry under its position, possibly several
times. A query collects ranked values in any order, sorts them by position and
keeps the first value of each position. The outcome is the linear scan of the
list by the predicate "the position was collected", whatever the index did.
-/

namespace Lib

/-- A value tagged with its position in the scanned list. -/
structure Ranked (α : Type) where
  order : Nat
  value : α
deriving DecidableEq, Repr

namespace Ranked

variable {α β : Type}

/-- Stable sort by position. -/
def sort (cs : List (Ranked α)) : List (Ranked α) :=
  cs.insertionSort fun a b => a.order ≤ b.order

/-- Keep the first ranked value of every position not seen before. -/
def distinct : List Nat → List (Ranked α) → List (Ranked α)
  | _, [] => []
  | seen, c :: cs =>
      if c.order ∈ seen then distinct seen cs else c :: distinct (c.order :: seen) cs

/-- The ranked hits of a linear scan whose first entry has position `start`. -/
def scan (f : β → α) (hit : β → Bool) : Nat → List β → List (Ranked α)
  | _, [] => []
  | start, e :: entries =>
      if hit e then ⟨start, f e⟩ :: scan f hit (start + 1) entries
      else scan f hit (start + 1) entries

/-! ## The linear scan -/

theorem scan_value (f : β → α) (hit : β → Bool) (start : Nat) (entries : List β) :
    (scan f hit start entries).map value = (entries.filter hit).map f := by
  induction entries generalizing start with
  | nil => rfl
  | cons e entries ih =>
      simp only [scan, List.filter_cons]
      split <;> simp [ih]

theorem mem_scan {f : β → α} {hit : β → Bool} {start : Nat} {entries : List β}
    {c : Ranked α} :
    c ∈ scan f hit start entries ↔
      ∃ i e, entries[i]? = some e ∧ hit e = true ∧ c = ⟨start + i, f e⟩ := by
  induction entries generalizing start with
  | nil => simp [scan]
  | cons e entries ih =>
      have tail : (∃ i e', (e :: entries)[i]? = some e' ∧ hit e' = true ∧
          c = (⟨start + i, f e'⟩ : Ranked α)) ↔
          (hit e = true ∧ c = ⟨start, f e⟩) ∨ c ∈ scan f hit (start + 1) entries := by
        rw [ih]
        constructor
        · rintro ⟨i, e', he, hhit, rfl⟩
          cases i with
          | zero => exact .inl (by simp_all)
          | succ i => exact .inr ⟨i, e', by simpa using he, hhit, by simp; omega⟩
        · rintro (⟨hhit, rfl⟩ | ⟨i, e', he, hhit, rfl⟩)
          · exact ⟨0, e, rfl, hhit, rfl⟩
          · exact ⟨i + 1, e', by simpa using he, hhit, by simp; omega⟩
      rw [tail, scan]
      split <;> rename_i h <;> simp [h]

theorem order_of_mem_scan {f : β → α} {hit : β → Bool} {start : Nat} {entries : List β}
    {c : Ranked α} (h : c ∈ scan f hit start entries) : start ≤ c.order := by
  obtain ⟨i, e, -, -, rfl⟩ := mem_scan.mp h
  simp

theorem scan_pairwise (f : β → α) (hit : β → Bool) (start : Nat) (entries : List β) :
    (scan f hit start entries).Pairwise fun a b => a.order < b.order := by
  induction entries generalizing start with
  | nil => exact .nil
  | cons e entries ih =>
      rw [scan]
      split
      · exact List.pairwise_cons.mpr ⟨fun c hc => order_of_mem_scan hc, ih (start + 1)⟩
      · exact ih (start + 1)

/-! ## Sorting and keeping the first of each position -/

theorem mem_distinct {seen : List Nat} {cs : List (Ranked α)} {c : Ranked α}
    (agree : ∀ a ∈ cs, ∀ b ∈ cs, a.order = b.order → a = b) :
    c ∈ distinct seen cs ↔ c ∈ cs ∧ c.order ∉ seen := by
  induction cs generalizing seen with
  | nil => simp [distinct]
  | cons d cs ih =>
      have agree' : ∀ a ∈ cs, ∀ b ∈ cs, a.order = b.order → a = b := fun a ha b hb =>
        agree a (List.mem_cons_of_mem d ha) b (List.mem_cons_of_mem d hb)
      have head : c ∈ cs → c.order = d.order → c = d := fun hc =>
        agree c (List.mem_cons_of_mem d hc) d List.mem_cons_self
      rw [distinct]
      split
      · next h =>
        rw [ih agree', List.mem_cons]
        constructor
        · exact fun hc => ⟨.inr hc.1, hc.2⟩
        · rintro ⟨rfl | hc, hseen⟩
          · exact absurd h hseen
          · exact ⟨hc, hseen⟩
      · next h =>
        rw [List.mem_cons, ih agree', List.mem_cons, List.mem_cons, not_or]
        constructor
        · rintro (rfl | ⟨hc, -, hseen⟩)
          · exact ⟨.inl rfl, h⟩
          · exact ⟨.inr hc, hseen⟩
        · rintro ⟨rfl | hc, hseen⟩
          · exact .inl rfl
          · by_cases hd : c.order = d.order
            · exact .inl (head hc hd)
            · exact .inr ⟨hc, hd, hseen⟩

theorem mem_of_mem_distinct {seen : List Nat} {cs : List (Ranked α)} {c : Ranked α}
    (h : c ∈ distinct seen cs) : c ∈ cs ∧ c.order ∉ seen := by
  induction cs generalizing seen with
  | nil => simp [distinct] at h
  | cons d cs ih =>
      rw [distinct] at h
      split at h
      · exact ⟨List.mem_cons_of_mem d (ih h).1, (ih h).2⟩
      · next hd =>
        rcases List.mem_cons.mp h with rfl | h
        · exact ⟨List.mem_cons_self, hd⟩
        · obtain ⟨hc, hseen⟩ := ih h
          exact ⟨List.mem_cons_of_mem d hc, fun hs => hseen (List.mem_cons_of_mem _ hs)⟩

theorem distinct_pairwise {seen : List Nat} {cs : List (Ranked α)}
    (sorted : cs.Pairwise fun a b => a.order ≤ b.order) :
    (distinct seen cs).Pairwise fun a b => a.order < b.order := by
  induction cs generalizing seen with
  | nil => exact .nil
  | cons d cs ih =>
      obtain ⟨hd, hcs⟩ := List.pairwise_cons.mp sorted
      rw [distinct]
      split
      · exact ih hcs
      · refine List.pairwise_cons.mpr ⟨fun c hc => ?_, ih hcs⟩
        obtain ⟨hmem, hseen⟩ := mem_of_mem_distinct hc
        have hne : c.order ≠ d.order := fun h => hseen (h ▸ List.mem_cons_self)
        have := hd c hmem
        omega

theorem sort_pairwise (cs : List (Ranked α)) :
    (sort cs).Pairwise fun a b => a.order ≤ b.order := by
  have : Std.Total fun a b : Ranked α => a.order ≤ b.order := ⟨fun a b => by omega⟩
  have : IsTrans (Ranked α) fun a b => a.order ≤ b.order := ⟨fun a b c => by omega⟩
  exact List.pairwise_insertionSort _ cs

theorem eq_of_pairwise {l₁ l₂ : List (Ranked α)}
    (h₁ : l₁.Pairwise fun a b => a.order < b.order)
    (h₂ : l₂.Pairwise fun a b => a.order < b.order) (mem : ∀ c, c ∈ l₁ ↔ c ∈ l₂) :
    l₁ = l₂ := by
  have nodup : ∀ {l : List (Ranked α)}, l.Pairwise (fun a b => a.order < b.order) → l.Nodup :=
    fun h => h.imp fun hab hEq => by subst hEq; omega
  refine List.Perm.eq_of_pairwise (fun a b _ _ hab hba => ?_) h₁ h₂
    ((List.perm_ext_iff_of_nodup (nodup h₁) (nodup h₂)).mpr mem)
  omega

/-- If the collected values sit at the positions of exactly the hits, then sorting and
keeping the first of each position is the linear scan. -/
theorem distinct_sort_eq_filter {f : β → α} {hit : β → Bool} {entries : List β}
    {cs : List (Ranked α)}
    (collected : ∀ c, c ∈ cs ↔ ∃ i e, entries[i]? = some e ∧ hit e = true ∧ c = ⟨i, f e⟩) :
    (distinct [] (sort cs)).map value = (entries.filter hit).map f := by
  have hmem : ∀ c, c ∈ sort cs ↔ c ∈ cs := fun c => List.mem_insertionSort _
  have agree : ∀ a ∈ sort cs, ∀ b ∈ sort cs, a.order = b.order → a = b := by
    intro a ha b hb hab
    obtain ⟨i, e, he, -, rfl⟩ := (collected a).mp ((hmem a).mp ha)
    obtain ⟨j, e', he', -, rfl⟩ := (collected b).mp ((hmem b).mp hb)
    obtain rfl : i = j := hab
    rw [he] at he'
    cases he'
    rfl
  rw [← scan_value f hit 0 entries]
  refine congrArg (List.map value)
    (eq_of_pairwise (distinct_pairwise (sort_pairwise cs)) (scan_pairwise f hit 0 entries)
      fun c => ?_)
  rw [mem_distinct agree, hmem, collected, mem_scan]
  simp

end Ranked

end Lib
