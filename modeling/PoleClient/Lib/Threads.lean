import PoleClient.Lib.Run

/-! # Interleaved threads

Threads that share a state and take atomic steps in any order. A thread is the
point its program has reached, with the values it holds. An invariant of the
shared state, and a fact about each thread that the steps of the others do not
disturb, hold together in every interleaving.
-/

namespace Lib

variable {σ τ ε ο : Type}

structure Threads (σ τ : Type) where
  shared : σ
  threads : List τ

namespace Threads

/-- A thread begins, or the one at an index takes its next step on an input. -/
inductive Move (τ ε : Type) where
  | start (thread : τ)
  | advance (index : Nat) (input : ε)

/-- One atomic step: the state after it, where the thread then is, and what can be seen of it. -/
structure Effect (σ τ ο : Type) where
  shared : σ
  thread : τ
  event : Option ο

def moveStep (program : σ → τ → ε → Effect σ τ ο) (s : Threads σ τ) :
    Move τ ε → Threads σ τ
  | .start thread => { s with threads := s.threads ++ [thread] }
  | .advance index input =>
      match s.threads[index]? with
      | none => s
      | some thread =>
          let effect := program s.shared thread input
          ⟨effect.shared, s.threads.set index effect.thread⟩

def emitted (program : σ → τ → ε → Effect σ τ ο) (s : Threads σ τ) : Move τ ε → Option ο
  | .start _ => none
  | .advance index input =>
      s.threads[index]?.bind fun thread => (program s.shared thread input).event

/-- The invariant of the shared state, with a fact about each thread. -/
structure Holds (inv : σ → Prop) (fact : σ → τ → Prop) (s : Threads σ τ) : Prop where
  shared : inv s.shared
  threads : ∀ thread ∈ s.threads, fact s.shared thread

variable {program : σ → τ → ε → Effect σ τ ο} {inv : σ → Prop} {fact : σ → τ → Prop}

theorem moveStep_none {s : Threads σ τ} {index : Nat} (h : s.threads[index]? = none) (input : ε) :
    moveStep program s (.advance index input) = s := by
  simp only [moveStep, h]

theorem moveStep_some {s : Threads σ τ} {index : Nat} {thread : τ}
    (h : s.threads[index]? = some thread) (input : ε) :
    moveStep program s (.advance index input) =
      ⟨(program s.shared thread input).shared,
        s.threads.set index (program s.shared thread input).thread⟩ := by
  simp only [moveStep, h]

theorem emitted_eq_some {s : Threads σ τ} {move : Move τ ε} {event : ο}
    (h : emitted program s move = some event) :
    ∃ index input thread, move = .advance index input ∧ s.threads[index]? = some thread ∧
      (program s.shared thread input).event = some event := by
  cases move with
  | start thread => cases h
  | advance index input =>
      obtain ⟨thread, hthread, hevent⟩ := Option.bind_eq_some_iff.mp h
      exact ⟨index, input, thread, rfl, hthread, hevent⟩

/-- A thread keeps the invariant and its own fact, and leaves the facts of the others. -/
theorem holds_step
    (own : ∀ s thread input, inv s → fact s thread →
      inv (program s thread input).shared ∧
        fact (program s thread input).shared (program s thread input).thread)
    (stable : ∀ s thread input other, inv s → fact s thread → fact s other →
      fact (program s thread input).shared other)
    {s : Threads σ τ} {move : Move τ ε} (holds : Holds inv fact s)
    (starts : ∀ thread, move = .start thread → fact s.shared thread) :
    Holds inv fact (moveStep program s move) := by
  cases move with
  | start thread =>
      refine ⟨holds.shared, fun other hother => ?_⟩
      rcases List.mem_append.mp hother with hold | hnew
      · exact holds.threads other hold
      · rw [List.mem_singleton.mp hnew]
        exact starts thread rfl
  | advance index input =>
      cases hthread : s.threads[index]? with
      | none =>
          rw [moveStep_none hthread]
          exact holds
      | some thread =>
          have hfact := holds.threads thread (List.mem_of_getElem? hthread)
          obtain ⟨hinv, hafter⟩ := own s.shared thread input holds.shared hfact
          rw [moveStep_some hthread]
          refine ⟨hinv, fun other hother => ?_⟩
          rcases List.mem_or_eq_of_mem_set hother with hold | rfl
          · exact stable s.shared thread input other holds.shared hfact (holds.threads other hold)
          · exact hafter

/-- What holds after one thread has moved, if it may depend on what the thread did. -/
theorem holds_advance {inv' : σ → Prop} {fact' : σ → τ → Prop} {s : Threads σ τ} {index : Nat}
    {thread : τ} {input : ε} (holds : Holds inv fact s) (hthread : s.threads[index]? = some thread)
    (shared : inv' (program s.shared thread input).shared)
    (own : fact' (program s.shared thread input).shared (program s.shared thread input).thread)
    (others : ∀ other, fact s.shared other → fact' (program s.shared thread input).shared other) :
    Holds inv' fact' (moveStep program s (.advance index input)) := by
  rw [moveStep_some hthread]
  refine ⟨shared, fun other hother => ?_⟩
  rcases List.mem_or_eq_of_mem_set hother with hold | rfl
  · exact others other (holds.threads other hold)
  · exact own

theorem eq_or_mem_set {threads : List τ} {index : Nat} {old other : τ}
    (h : threads[index]? = some old) (hother : other ∈ threads) (new : τ) :
    other = old ∨ other ∈ threads.set index new := by
  obtain ⟨place, hplace⟩ := List.mem_iff_getElem?.mp hother
  by_cases hsame : index = place
  · rw [hsame, hplace] at h
    exact .inl (Option.some.inj h)
  · refine .inr (List.mem_iff_getElem?.mpr ⟨place, ?_⟩)
    rw [List.getElem?_set_ne hsame, hplace]

def AtMostOne (such : τ → Prop) (threads : List τ) : Prop :=
  ∀ (i j : Nat) (thread other : τ), threads[i]? = some thread → threads[j]? = some other →
    such thread → such other → i = j

theorem atMostOne_append {such : τ → Prop} {threads : List τ} (h : AtMostOne such threads)
    {new : τ} (hnew : ¬ such new) : AtMostOne such (threads ++ [new]) := by
  have hplace : ∀ (i : Nat) (thread : τ), (threads ++ [new])[i]? = some thread → such thread →
      threads[i]? = some thread := by
    intro i thread hi hsuch
    by_cases hlength : i < threads.length
    · rwa [List.getElem?_append_left hlength] at hi
    · rw [List.getElem?_append_right (Nat.not_lt.mp hlength)] at hi
      have hmem := List.mem_of_getElem? hi
      rw [List.mem_singleton.mp hmem] at hsuch
      exact absurd hsuch hnew
  intro i j thread other hi hj hthread hother
  exact h i j thread other (hplace i thread hi hthread) (hplace j other hj hother) hthread hother

theorem atMostOne_set {such : τ → Prop} {threads : List τ} (h : AtMostOne such threads)
    {index : Nat} {old new : τ} (hold : threads[index]? = some old)
    (hnew : such new → such old ∨ ∀ thread ∈ threads, ¬ such thread) :
    AtMostOne such (threads.set index new) := by
  have hbound := (List.getElem?_eq_some_iff.mp hold).choose
  have hother : ∀ (j : Nat) (other : τ), index ≠ j → threads[j]? = some other →
      such new → such other → False := by
    intro j other hne hj hsuch hthere
    rcases hnew hsuch with hbefore | hnone
    · exact hne (h index j old other hold hj hbefore hthere)
    · exact hnone other (List.mem_of_getElem? hj) hthere
  intro i j thread other hi hj hthread hsuch
  by_cases hindex : index = i
  · by_cases hsame : index = j
    · exact hindex.symm.trans hsame
    · rw [← hindex, List.getElem?_set_self hbound] at hi
      rw [List.getElem?_set_ne hsame] at hj
      obtain rfl := Option.some.inj hi
      exact (hother j other hsame hj hthread hsuch).elim
  · rw [List.getElem?_set_ne hindex] at hi
    by_cases hsame : index = j
    · rw [← hsame, List.getElem?_set_self hbound] at hj
      obtain rfl := Option.some.inj hj
      exact (hother i thread hindex hi hsuch hthread).elim
    · rw [List.getElem?_set_ne hsame] at hj
      exact h i j thread other hi hj hthread hsuch

/-- What the threads hold together, when one of them is exchanged for another. -/
theorem flatMap_set_perm {β : Type} (f : τ → List β) {threads : List τ} {index : Nat} {old : τ}
    (h : threads[index]? = some old) (new : τ) :
    (f old ++ (threads.set index new).flatMap f).Perm (f new ++ threads.flatMap f) := by
  induction threads generalizing index with
  | nil => cases h
  | cons thread threads ih =>
      cases index with
      | zero =>
          obtain rfl : thread = old := by simpa using h
          rw [List.set_cons_zero, List.flatMap_cons, List.flatMap_cons, ← List.append_assoc,
            ← List.append_assoc]
          exact List.perm_append_comm.append_right _
      | succ index =>
          have hrest := ih (by simpa using h)
          rw [List.set_cons_succ, List.flatMap_cons, List.flatMap_cons]
          exact (List.perm_append_comm_assoc _ _ _).trans
            ((hrest.append_left (f thread)).trans (List.perm_append_comm_assoc _ _ _))

end Threads

end Lib
