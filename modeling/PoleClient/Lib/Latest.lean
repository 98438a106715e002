import Mathlib.Data.List.Induction
import PoleClient.Lib.Run
import PoleClient.Lib.Table

/-! # Tables of latest writes

A write goes to one key and leaves a value there, or removes the one it finds.
A table that takes every write of a run holds under each key the value of the
last one.
-/

namespace Lib

variable {α κ β γ : Type}

/-- The last of the actions that write under the key leaves the value there; no value is a
removal. -/
def Latest (write : α → Option (κ × Option β)) (actions : List α) (key : κ) (value : Option β) :
    Prop :=
  ∃ before a after, actions = before ++ a :: after ∧ write a = some (key, value) ∧
    ∀ later ∈ after, ∀ other, write later ≠ some (key, other)

theorem latest_last {write : α → Option (κ × Option β)} {a : α} {key : κ} {value : Option β}
    (h : write a = some (key, value)) (actions : List α) :
    Latest write (actions ++ [a]) key value :=
  ⟨actions, a, [], rfl, h, nofun⟩

theorem Latest.append {write : α → Option (κ × Option β)} {actions : List α} {key : κ}
    {value : Option β} (h : Latest write actions key value) {a : α}
    (ha : ∀ other, write a ≠ some (key, other)) : Latest write (actions ++ [a]) key value := by
  rcases h with ⟨before, last, after, rfl, hwrite, hlater⟩
  refine ⟨before, last, after ++ [a], by rw [List.append_assoc, List.cons_append], hwrite, ?_⟩
  intro later hmem
  rcases List.mem_append.mp hmem with hold | hnew
  · exact hlater later hold
  · rw [List.mem_singleton.mp hnew]
    exact ha

namespace Table

variable [DecidableEq κ]

/-- The write of one action, stored in a form of its own. -/
def store (form : β → γ) (write : α → Option (κ × Option β)) (t : Table κ γ) (a : α) : Table κ γ :=
  match write a with
  | none => t
  | some (key, none) => t.erase key
  | some (key, some value) => t.insert key (form value)

variable (form : β → γ) (write : α → Option (κ × Option β))

theorem lookup_store_self {a : α} {key : κ} {value : Option β} (h : write a = some (key, value))
    (t : Table κ γ) : (t.store form write a).lookup key = value.map form := by
  unfold store
  rw [h]
  cases value with
  | none => exact (t.lookup_erase_ite key key).trans (if_pos rfl)
  | some value => exact (t.lookup_insert_ite key key (form value)).trans (if_pos rfl)

theorem lookup_store_other {a : α} {key : κ} (h : ∀ other, write a ≠ some (key, other))
    (t : Table κ γ) : (t.store form write a).lookup key = t.lookup key := by
  unfold store
  cases hwrite : write a with
  | none => rfl
  | some entry =>
      rcases entry with ⟨place, value⟩
      have hne : key ≠ place := by
        rintro rfl
        exact h value hwrite
      cases value with
      | none => exact (t.lookup_erase_ite place key).trans (if_neg hne)
      | some value => exact (t.lookup_insert_ite place key (form value)).trans (if_neg hne)

theorem lookup_run_other {actions : List α} {key : κ}
    (h : ∀ a ∈ actions, ∀ other, write a ≠ some (key, other)) (t : Table κ γ) :
    (run (store form write) t actions).lookup key = t.lookup key := by
  induction actions generalizing t with
  | nil => rfl
  | cons a actions ih =>
      rw [run_cons, ih (fun later hlater => h later (.tail a hlater))]
      exact lookup_store_other form write (h a List.mem_cons_self) t

/-- After a run the table holds the value of the last write. -/
theorem lookup_of_latest {actions : List α} {key : κ} {value : Option β}
    (h : Latest write actions key value) (t : Table κ γ) :
    (run (store form write) t actions).lookup key = value.map form := by
  rcases h with ⟨before, a, after, rfl, hwrite, hlater⟩
  rw [run_append, run_cons, lookup_run_other form write hlater]
  exact lookup_store_self form write hwrite _

/-- Whatever the table holds after a run from nothing, the last write under the key left there. -/
theorem exists_latest {actions : List α} {key : κ} {stored : γ}
    (h : (run (store form write) .empty actions).lookup key = some stored) :
    ∃ value, Latest write actions key (some value) ∧ form value = stored := by
  induction actions using List.reverseRecOn with
  | nil => cases h
  | append_singleton actions a ih =>
      rw [run_append, run_cons, run_nil] at h
      by_cases hwrites : ∃ value, write a = some (key, value)
      · rcases hwrites with ⟨value, hwrite⟩
        rw [lookup_store_self form write hwrite] at h
        cases value with
        | none => cases h
        | some value => exact ⟨value, latest_last hwrite actions, Option.some.inj h⟩
      · have hother : ∀ value, write a ≠ some (key, value) :=
          fun value hwrite => hwrites ⟨value, hwrite⟩
        rw [lookup_store_other form write hother] at h
        rcases ih h with ⟨value, hlatest, hform⟩
        exact ⟨value, hlatest.append hother, hform⟩

end Table

end Lib
