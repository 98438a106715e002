import PoleClient.CircuitBreaker.Trace

/-! # The rule state follows its history

`Tracks` ties every field of the state to the history. One operation preserves
it and obeys the transition law; the law of whole runs follows by induction.
-/

namespace PoleClient.CircuitBreaker

open Lib

/-! ## The refresh -/

namespace RuleState

theorem refreshStatus_of_ne {state : RuleState} (now : Nat) (h : state.status ≠ .opened) :
    state.refreshStatus now = state := by
  simp [refreshStatus, h]

def Wakes (state : RuleState) (now : Nat) : Prop :=
  ∃ condition openedAt, recoverCondition state.rule = some condition ∧
    state.openedAt = some openedAt ∧
    now - openedAt ≥ condition.sleepWindow.toNat * nanosPerSecond

theorem refreshStatus_of_wakes {state : RuleState} {now : Nat} (h : state.status = .opened)
    (wakes : state.Wakes now) :
    state.refreshStatus now = { state with status := .halfOpen, consecutiveSuccesses := 0 } := by
  rcases wakes with ⟨condition, openedAt, hcondition, hopened, helapsed⟩
  simp [refreshStatus, h, hcondition, hopened, helapsed]

theorem refreshStatus_of_sleeps {state : RuleState} {now : Nat}
    (sleeps : ¬ state.Wakes now) : state.refreshStatus now = state := by
  unfold refreshStatus
  split
  · rfl
  · split
    · next condition openedAt hcondition hopened =>
      split
      · next helapsed =>
        exact absurd ⟨condition, openedAt, hcondition, hopened, helapsed⟩ sleeps
      · rfl
    · rfl

@[simp] theorem refreshStatus_rule (state : RuleState) (now : Nat) :
    (state.refreshStatus now).rule = state.rule := by
  unfold refreshStatus
  repeat' split
  all_goals rfl

end RuleState

/-! ## The invariant -/

/-- What the fields of a rule state say about the history that led to it. -/
structure Tracks (rule : CircuitBreakerRule) (h : List Observation) (state : RuleState) :
    Prop where
  ruleEq : state.rule = rule
  statuses : state.status = .close ∨ state.status = .halfOpen ∨ state.status = .opened
  closed : state.status = .close →
    state.openedAt = none ∧ state.consecutiveSuccesses = 0 ∧
      state.requestCount = (reportsSinceClose h).length ∧
      state.consecutiveErrors = streak isErrorStatus (reportsSinceClose h)
  opened : state.status = .opened → state.openedAt = openedSince h
  halfOpen : state.status = .halfOpen → ∃ condition, recoverCondition rule = some condition ∧
    state.consecutiveSuccesses = successesSinceHalfOpen h ∧
    state.consecutiveSuccesses < max 1 condition.consecutiveSuccess.toNat

section Step

variable {rule : CircuitBreakerRule} {h : List Observation} {now : Nat}

variable {state : RuleState} {retStatus : RetStatus}

theorem step_cases (arith : CounterArith) (state : RuleState) (call : Call)
    (statuses : (state.refreshStatus call.now).status = .close ∨
      (state.refreshStatus call.now).status = .halfOpen ∨
      (state.refreshStatus call.now).status = .opened) :
    (state.step arith call = state.refreshStatus call.now ∧
        (call.event = .check ∨ (state.refreshStatus call.now).status = .opened)) ∨
      (∃ retStatus, call.event = .report retStatus ∧
        (state.refreshStatus call.now).status = .halfOpen ∧
        state.step arith call =
          (state.refreshStatus call.now).reportHalfOpen arith call.now retStatus) ∨
      (∃ retStatus, call.event = .report retStatus ∧
        (state.refreshStatus call.now).status = .close ∧
        state.step arith call =
          (state.refreshStatus call.now).reportClosed arith call.now retStatus) := by
  unfold RuleState.step
  cases hevent : call.event with
  | check => exact .inl ⟨rfl, .inl rfl⟩
  | report retStatus =>
      simp only [RuleState.reportStatus]
      rcases statuses with hclose | hhalf | hopened
      · exact .inr (.inr ⟨retStatus, rfl, hclose, by simp [hclose]⟩)
      · exact .inr (.inl ⟨retStatus, rfl, hhalf, by simp [hhalf]⟩)
      · exact .inl ⟨by simp [hopened], .inr hopened⟩

end Step

section Observe

variable {rule : CircuitBreakerRule} {h : List Observation} {call : Call}

/-- Fewer than `2 ^ 32` reports between two closes, at every moment of the run. -/
def FewReports (arith : CounterArith) (rule : CircuitBreakerRule) (calls : List Call) : Prop :=
  ∀ suffix, suffix <:+ calls → (reportsSinceClose (history arith rule suffix)).length < 2 ^ 32

theorem FewReports.tail {arith : CounterArith} {calls : List Call}
    (few : FewReports arith rule (call :: calls)) : FewReports arith rule calls :=
  fun suffix hsuffix => few suffix (hsuffix.trans (List.suffix_cons call calls))

end Observe

end PoleClient.CircuitBreaker
