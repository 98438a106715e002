/-! # Runs of a deterministic system

A run folds a step function over a list of actions. `Along` states a condition
on every step of a run, in the state before the step. Invariants and
comparisons with a purged run need one step lemma each.
-/

namespace Lib

variable {σ α : Type}

def run (step : σ → α → σ) (s : σ) (actions : List α) : σ :=
  actions.foldl step s

@[simp] theorem run_nil (step : σ → α → σ) (s : σ) : run step s [] = s := rfl

@[simp] theorem run_cons (step : σ → α → σ) (s : σ) (a : α) (actions : List α) :
    run step s (a :: actions) = run step (step s a) actions := rfl

theorem run_append (step : σ → α → σ) (s : σ) (first second : List α) :
    run step s (first ++ second) = run step (run step s first) second :=
  List.foldl_append

/-- Every step of the run meets `ok` in the state before it. -/
def Along (step : σ → α → σ) (ok : σ → α → Prop) : σ → List α → Prop
  | _, [] => True
  | s, a :: actions => ok s a ∧ Along step ok (step s a) actions

instance decidableAlong {step : σ → α → σ} {ok : σ → α → Prop}
    [decidableOk : ∀ s a, Decidable (ok s a)] :
    ∀ (s : σ) (actions : List α), Decidable (Along step ok s actions)
  | _, [] => .isTrue trivial
  | s, a :: actions =>
      @instDecidableAnd _ _ (decidableOk s a) (decidableAlong (step s a) actions)

theorem along_append {step : σ → α → σ} {ok : σ → α → Prop} {s : σ} {first second : List α} :
    Along step ok s (first ++ second) ↔
      Along step ok s first ∧ Along step ok (run step s first) second := by
  induction first generalizing s with
  | nil => simp [Along]
  | cons a first ih => simp [Along, ih, and_assoc]

theorem along_of_forall {step : σ → α → σ} {ok : σ → α → Prop} {s : σ} {actions : List α}
    (h : ∀ a ∈ actions, ∀ s, ok s a) : Along step ok s actions := by
  induction actions generalizing s with
  | nil => trivial
  | cons a actions ih =>
      exact ⟨h a List.mem_cons_self s, ih fun b hb => h b (List.mem_cons_of_mem a hb)⟩

theorem along_and {step : σ → α → σ} {ok₁ ok₂ : σ → α → Prop} {s : σ} {actions : List α}
    (h₁ : Along step ok₁ s actions) (h₂ : Along step ok₂ s actions) :
    Along step (fun s a => ok₁ s a ∧ ok₂ s a) s actions := by
  induction actions generalizing s with
  | nil => trivial
  | cons a actions ih => exact ⟨⟨h₁.1, h₂.1⟩, ih h₁.2 h₂.2⟩

theorem along_mono {step : σ → α → σ} {ok₁ ok₂ : σ → α → Prop}
    (weaker : ∀ s a, ok₁ s a → ok₂ s a) {s : σ} {actions : List α}
    (along : Along step ok₁ s actions) : Along step ok₂ s actions := by
  induction actions generalizing s with
  | nil => trivial
  | cons a actions ih => exact ⟨weaker s a along.1, ih along.2⟩

theorem along_iff {step : σ → α → σ} {ok : σ → α → Prop} {s : σ} {actions : List α} :
    Along step ok s actions ↔
      ∀ first a, first ++ [a] <+: actions → ok (run step s first) a := by
  induction actions generalizing s with
  | nil =>
      constructor
      · intro _ first a h
        simp at h
      · exact fun _ => trivial
  | cons b actions ih =>
      rw [Along, ih]
      constructor
      · rintro ⟨hhead, htail⟩ first a h
        cases first with
        | nil =>
            obtain ⟨rfl, -⟩ := List.cons_prefix_cons.mp h
            exact hhead
        | cons c first =>
            obtain ⟨rfl, hrest⟩ := List.cons_prefix_cons.mp h
            exact htail first a hrest
      · intro h
        constructor
        · exact h [] b (List.cons_prefix_cons.mpr ⟨rfl, List.nil_prefix⟩)
        · exact fun first a hrest => h (b :: first) a (List.cons_prefix_cons.mpr ⟨rfl, hrest⟩)

theorem run_invariant {step : σ → α → σ} {ok : σ → α → Prop} {inv : σ → Prop}
    (preserved : ∀ s a, inv s → ok s a → inv (step s a)) {s : σ} {actions : List α}
    (start : inv s) (along : Along step ok s actions) : inv (run step s actions) := by
  induction actions generalizing s with
  | nil => exact start
  | cons a actions ih => exact ih (preserved s a start along.1) along.2

/-- What an invariant gives at one step it gives at every step. -/
theorem along_of_invariant {step : σ → α → σ} {ok₁ ok₂ : σ → α → Prop} {inv : σ → Prop}
    (preserved : ∀ s a, inv s → ok₁ s a → inv (step s a))
    (gives : ∀ s a, inv s → ok₁ s a → ok₂ s a) {s : σ} {actions : List α} (start : inv s)
    (along : Along step ok₁ s actions) : Along step ok₂ s actions := by
  induction actions generalizing s with
  | nil => trivial
  | cons a actions ih =>
      exact ⟨gives s a start along.1, ih (preserved s a start along.1) along.2⟩

theorem along_iff_along {step : σ → α → σ} {good ok : σ → α → Prop} {inv : σ → Prop}
    (preserved : ∀ s a, inv s → ok s a → inv (step s a))
    (exact : ∀ s a, inv s → (good s a ↔ ok s a)) {s : σ} {actions : List α} (start : inv s) :
    Along step good s actions ↔ Along step ok s actions := by
  induction actions generalizing s with
  | nil => exact Iff.rfl
  | cons a actions ih =>
      constructor
      · rintro ⟨hgood, hrest⟩
        have hok := (exact s a start).mp hgood
        exact ⟨hok, (ih (preserved s a start hok)).mp hrest⟩
      · rintro ⟨hok, hrest⟩
        exact ⟨(exact s a start).mpr hok, (ih (preserved s a start hok)).mpr hrest⟩

/-- Where a step keeps a property exactly when it meets `ok`, the property holds all along a run
exactly when all its steps do. -/
theorem forall_prefix_iff {step : σ → α → σ} {ok : σ → α → Prop} {inv holds : σ → Prop}
    (preserved : ∀ s a, inv s → inv (step s a))
    (exact : ∀ s a, inv s → holds s → (holds (step s a) ↔ ok s a)) {s : σ} {actions : List α}
    (start : inv s) (first : holds s) :
    (∀ part, part <+: actions → holds (run step s part)) ↔ Along step ok s actions := by
  induction actions generalizing s with
  | nil =>
      constructor
      · exact fun _ => trivial
      · intro _ part hpart
        rw [List.prefix_nil.mp hpart]
        exact first
  | cons a actions ih =>
      constructor
      · intro h
        have hnext : holds (step s a) :=
          h [a] (List.cons_prefix_cons.mpr ⟨rfl, List.nil_prefix⟩)
        refine ⟨(exact s a start first).mp hnext, (ih (preserved s a start) hnext).mp ?_⟩
        exact fun part hpart => h (a :: part) (List.cons_prefix_cons.mpr ⟨rfl, hpart⟩)
      · rintro ⟨hok, hrest⟩ part hpart
        have hnext := (exact s a start first).mpr hok
        cases part with
        | nil => exact first
        | cons b part =>
            obtain ⟨rfl, htail⟩ := List.cons_prefix_cons.mp hpart
            exact (ih (preserved s b start) hnext).mpr hrest part htail

theorem run_preserves {step : σ → α → σ} (inv : σ → Prop)
    (preserved : ∀ s a, inv s → inv (step s a)) {s : σ} (actions : List α) (start : inv s) :
    inv (run step s actions) := by
  induction actions generalizing s with
  | nil => exact start
  | cons a actions ih => exact ih (preserved s a start)

theorem run_part {τ : Type} {step : σ → α → σ} {part : σ → τ} {partStep : τ → α → τ}
    (h : ∀ s a, part (step s a) = partStep (part s) a) (s : σ) (actions : List α) :
    part (run step s actions) = run partStep (part s) actions := by
  induction actions generalizing s with
  | nil => rfl
  | cons a actions ih => rw [run_cons, run_cons, ih, h]

/-- Two runs stay related when own steps keep the relation and foreign steps, taken on the
left only, keep it too. -/
theorem run_purge {step : σ → α → σ} {own : α → Bool} {ok : σ → α → Prop}
    {related : σ → σ → Prop}
    (ownStep : ∀ s t a, related s t → own a = true → related (step s a) (step t a))
    (foreignStep : ∀ s t a, related s t → own a = false → ok s a → related (step s a) t)
    {s t : σ} {actions : List α} (start : related s t) (along : Along step ok s actions) :
    related (run step s actions) (run step t (actions.filter own)) := by
  induction actions generalizing s t with
  | nil => exact start
  | cons a actions ih =>
      rw [run_cons, List.filter_cons]
      cases hown : own a with
      | true => exact ih (ownStep s t a start hown) along.2
      | false => exact ih (foreignStep s t a start hown along.1) along.2

end Lib
