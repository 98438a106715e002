/-! # Logs of events

A log grows at its end. A property of every event, in view of the events before
it, is kept when the event that is added has it in view of the whole log.
-/

namespace Lib

variable {ε : Type} {p : List ε → ε → Prop} {log : List ε} {event : ε}

/-- Every event of the log is `p` in view of the events before it. -/
def EachEvent (p : List ε → ε → Prop) (log : List ε) : Prop :=
  ∀ before event after, log = before ++ event :: after → p before event

theorem eachEvent_nil : EachEvent p [] := by
  intro before event after h
  simp at h

theorem eachEvent_append (h : EachEvent p log) (last : p log event) :
    EachEvent p (log ++ [event]) := by
  intro before other after heq
  rcases List.eq_nil_or_concat after with rfl | ⟨middle, final, rfl⟩
  · obtain ⟨rfl, hother⟩ := List.append_inj' heq rfl
    obtain rfl : event = other := by simpa using hother
    exact last
  · have hsplit : log ++ [event] = (before ++ other :: middle) ++ [final] := by simpa using heq
    exact h before other middle (List.append_inj' hsplit rfl).1

theorem eachEvent_concat : EachEvent p (log ++ [event]) ↔ EachEvent p log ∧ p log event := by
  constructor
  · intro h
    refine ⟨fun before other after heq => h before other (after ++ [event]) ?_, h log event [] rfl⟩
    rw [heq, List.append_assoc]
    rfl
  · rintro ⟨hlog, hlast⟩
    exact eachEvent_append hlog hlast

end Lib
