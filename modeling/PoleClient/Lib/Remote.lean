/-! # Programs that call a server

A program asks and goes on with the answer. Its transcripts are the exchanges
that any answers can lead to, and its runs against a server are the transcripts
that the server can give, with what others do to its state between the requests.
-/

namespace Lib

/-- `ρ` are the requests, `τ` the answers. -/
inductive Remote (ρ τ α : Type) where
  | done (result : α)
  | ask (request : ρ) (next : τ → Remote ρ τ α)

namespace Remote

variable {ρ τ α β S : Type}

def bind (program : Remote ρ τ α) (rest : α → Remote ρ τ β) : Remote ρ τ β :=
  match program with
  | .done result => rest result
  | .ask request next => .ask request fun answer => (next answer).bind rest

instance : Monad (Remote ρ τ) where
  pure := .done
  bind := .bind

def call (request : ρ) (read : τ → α) : Remote ρ τ α :=
  .ask request fun answer => .done (read answer)

/-! ## Transcripts -/

inductive Transcript : Remote ρ τ α → List (ρ × τ) → α → Prop
  | done (result : α) : Transcript (.done result) [] result
  | ask {request : ρ} {next : τ → Remote ρ τ α} {answer : τ} {rest : List (ρ × τ)} {result : α} :
      Transcript (next answer) rest result →
      Transcript (.ask request next) ((request, answer) :: rest) result

theorem transcript_pure {result other : α} {trace : List (ρ × τ)} :
    Transcript (pure result : Remote ρ τ α) trace other ↔ trace = [] ∧ other = result := by
  constructor
  · intro h
    cases h
    exact ⟨rfl, rfl⟩
  · rintro ⟨rfl, rfl⟩
    exact .done other

theorem transcript_bind {program : Remote ρ τ α} {rest : α → Remote ρ τ β}
    {trace : List (ρ × τ)} {result : β} :
    Transcript (program >>= rest) trace result ↔
      ∃ middle first second, trace = first ++ second ∧ Transcript program first middle ∧
        Transcript (rest middle) second result := by
  constructor
  · intro h
    induction program generalizing trace with
    | done middle => exact ⟨middle, [], trace, rfl, .done middle, h⟩
    | ask request next ih =>
        cases h with
        | @ask _ _ answer more _ hnext =>
            obtain ⟨middle, first, second, rfl, hfirst, hsecond⟩ := ih answer hnext
            exact ⟨middle, (request, answer) :: first, second, rfl, .ask hfirst, hsecond⟩
  · rintro ⟨middle, first, second, rfl, hfirst, hsecond⟩
    induction hfirst with
    | done middle => exact hsecond
    | ask _ ih => exact .ask (ih hsecond)

theorem transcript_call {request : ρ} {read : τ → α} {trace : List (ρ × τ)} {result : α} :
    Transcript (call request read) trace result ↔
      ∃ answer, trace = [(request, answer)] ∧ result = read answer := by
  constructor
  · intro h
    cases h with
    | @ask _ _ answer more _ hnext =>
        cases hnext
        exact ⟨answer, rfl, rfl⟩
  · rintro ⟨answer, rfl, rfl⟩
    exact .ask (.done _)

/-- The first exchange of a program that begins with a call. -/
theorem transcript_call_bind {request : ρ} {read : τ → α} {rest : α → Remote ρ τ β}
    {trace : List (ρ × τ)} {result : β} :
    Transcript (call request read >>= rest) trace result ↔
      ∃ answer second, trace = (request, answer) :: second ∧
        Transcript (rest (read answer)) second result := by
  rw [transcript_bind]
  constructor
  · rintro ⟨middle, first, second, rfl, hfirst, hsecond⟩
    obtain ⟨answer, rfl, rfl⟩ := transcript_call.mp hfirst
    exact ⟨answer, second, rfl, hsecond⟩
  · rintro ⟨answer, second, rfl, hsecond⟩
    exact ⟨read answer, [(request, answer)], second, rfl,
      transcript_call.mpr ⟨answer, rfl, rfl⟩, hsecond⟩

/-! ## Servers that others use -/

variable (serves : S → ρ → τ → S → Prop) (others : S → S → Prop)

/-- The exchanges in order: `others` is what may happen before a request, `serves` what the server
may do with it. -/
inductive Served : S → List (ρ × τ) → S → Prop
  | nil (s : S) : Served s [] s
  | cons {s t u v : S} {request : ρ} {answer : τ} {rest : List (ρ × τ)} :
      others s t → serves t request answer u → Served u rest v →
      Served s ((request, answer) :: rest) v

variable {serves others} {s u : S}

theorem served_append {first second : List (ρ × τ)} :
    Served serves others s (first ++ second) u ↔
      ∃ t, Served serves others s first t ∧ Served serves others t second u := by
  constructor
  · intro h
    induction first generalizing s with
    | nil => exact ⟨s, .nil s, h⟩
    | cons exchange rest ih =>
        cases h with
        | cons hothers hserves hrest =>
            obtain ⟨t, hfirst, hsecond⟩ := ih hrest
            exact ⟨t, .cons hothers hserves hfirst, hsecond⟩
  · rintro ⟨t, hfirst, hsecond⟩
    induction hfirst with
    | nil t => exact hsecond
    | cons hothers hserves _ ih => exact .cons hothers hserves (ih hsecond)

theorem served_singleton {request : ρ} {answer : τ} :
    Served serves others s [(request, answer)] u ↔ ∃ t, others s t ∧ serves t request answer u := by
  constructor
  · intro h
    cases h with
    | @cons _ t _ _ _ _ _ hothers hserves hnil =>
        cases hnil
        exact ⟨t, hothers, hserves⟩
  · rintro ⟨t, hothers, hserves⟩
    exact .cons hothers hserves (.nil u)

theorem served_last {request : ρ} {answer : τ} {before : List (ρ × τ)} :
    Served serves others s (before ++ [(request, answer)]) u ↔
      ∃ r t, Served serves others s before r ∧ others r t ∧ serves t request answer u := by
  rw [served_append]
  constructor
  · rintro ⟨r, hbefore, hlast⟩
    obtain ⟨t, hothers, hserves⟩ := served_singleton.mp hlast
    exact ⟨r, t, hbefore, hothers, hserves⟩
  · rintro ⟨r, t, hbefore, hothers, hserves⟩
    exact ⟨r, hbefore, served_singleton.mpr ⟨t, hothers, hserves⟩⟩

end Remote

end Lib
