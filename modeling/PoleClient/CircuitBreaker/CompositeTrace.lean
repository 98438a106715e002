import PoleClient.CircuitBreaker.Composite
import PoleClient.CircuitBreaker.TraceLaw

/-! # Several rules on one resource

A check stops at the first open state, so later states miss its refresh. A
missed refresh is made up by any later one; up to that, each state of the
resource is the machine of its rule run alone on all calls, and the answer
combines what those machines say.
-/

namespace PoleClient.CircuitBreaker

open Lib

/-! ## Missed refreshes -/

namespace RuleState

theorem Wakes.mono {state : RuleState} {now later : Nat} (h : state.Wakes now)
    (le : now ≤ later) : state.Wakes later := by
  rcases h with ⟨condition, openedAt, hcondition, hopened, helapsed⟩
  exact ⟨condition, openedAt, hcondition, hopened, by omega⟩

/-- Equal from `now` on, up to a refresh that one of the two has missed. -/
def SameFrom (now : Nat) (state machine : RuleState) : Prop :=
  ∀ later, now ≤ later → state.refreshStatus later = machine.refreshStatus later

theorem SameFrom.refl (now : Nat) (state : RuleState) : SameFrom now state state :=
  fun _ _ => rfl

theorem SameFrom.mono {state machine : RuleState} {now later : Nat}
    (h : SameFrom now state machine) (le : now ≤ later) : SameFrom later state machine :=
  fun t ht => h t (Nat.le_trans le ht)

theorem SameFrom.refreshed {state machine : RuleState} {now : Nat}
    (h : SameFrom now state machine) : state.refreshStatus now = machine.refreshStatus now :=
  h now (Nat.le_refl now)

theorem SameFrom.report {state machine : RuleState} {now : Nat} (arith : CounterArith)
    (h : SameFrom now state machine) (retStatus : RetStatus) :
    state.reportStatus arith now retStatus = machine.reportStatus arith now retStatus := by
  unfold reportStatus
  rw [h.refreshed]

end RuleState

/-! ## The answer of a check -/

/-- What a check answers for rules with the given names and statuses, in order. -/
def combinedAnswer (statuses : List (String × Status)) : CircuitBreakerStatus :=
  match statuses.find? fun entry => entry.2 = .opened with
  | some entry => { circuitBreaker := entry.1, status := .opened }
  | none =>
      match statuses.find? fun entry => entry.2 = .halfOpen with
      | some entry => { circuitBreaker := entry.1, status := .halfOpen }
      | none => { circuitBreaker := "", status := .close }

def refreshedStatuses (now : Nat) (states : List RuleState) : List (String × Status) :=
  states.map fun state => (state.rule.name, (state.refreshStatus now).status)

theorem checkStates_cons (now : Nat) (halfOpenState : Option String) (state : RuleState)
    (states : List RuleState) :
    CompositeCircuitBreaker.checkStates now halfOpenState (state :: states) =
      if (state.refreshStatus now).status = .opened then
        (state.refreshStatus now :: states,
          { circuitBreaker := (state.refreshStatus now).rule.name, status := .opened })
      else
        let rest := CompositeCircuitBreaker.checkStates now
          (if (state.refreshStatus now).status = .halfOpen && halfOpenState.isNone then
            some (state.refreshStatus now).rule.name else halfOpenState) states
        (state.refreshStatus now :: rest.1, rest.2) := rfl

/-- The remembered half-open rule stands for an entry before the remaining states. -/
theorem checkStates_answer (now : Nat) (halfOpenState : Option String)
    (states : List RuleState) :
    (CompositeCircuitBreaker.checkStates now halfOpenState states).2 =
      combinedAnswer ((halfOpenState.map fun ruleName => (ruleName, Status.halfOpen)).toList ++
        refreshedStatuses now states) := by
  induction states generalizing halfOpenState with
  | nil => cases halfOpenState <;> rfl
  | cons state states ih =>
      rw [checkStates_cons, RuleState.refreshStatus_rule]
      by_cases hopened : (state.refreshStatus now).status = .opened
      · cases halfOpenState <;>
          simp [hopened, combinedAnswer, refreshedStatuses]
      · rw [if_neg hopened]
        simp only [ih]
        by_cases hhalf : (state.refreshStatus now).status = .halfOpen
        · cases halfOpenState <;>
            simp [hhalf, combinedAnswer, refreshedStatuses]
        · cases halfOpenState <;>
            simp [hhalf, hopened, combinedAnswer, refreshedStatuses]

namespace CompositeCircuitBreaker

def step (arith : CounterArith) (breaker : CompositeCircuitBreaker) (resource : Resource)
    (call : Call) : CompositeCircuitBreaker :=
  match call.event with
  | .report retStatus => breaker.reportStat arith call.now resource retStatus
  | .check => (breaker.checkResource call.now resource).1

end CompositeCircuitBreaker

def machineAfter (arith : CounterArith) (calls : List Call) (rule : CircuitBreakerRule) :
    RuleState :=
  lastState rule (history arith rule calls)

theorem machineAfter_cons (arith : CounterArith) (call : Call) (calls : List Call)
    (rule : CircuitBreakerRule) :
    machineAfter arith (call :: calls) rule =
      (machineAfter arith calls rule).step arith call := rfl

def InOrder (calls : List Call) : Prop :=
  calls.Pairwise fun later earlier => earlier.now ≤ later.now

section Run

variable {arith : CounterArith} {rules : List CircuitBreakerRule} {resource : Resource}
variable {calls : List Call} {call : Call} {now : Nat} {breaker : CompositeCircuitBreaker}

end Run

@[simp] theorem RuleState.reportStatus_rule (arith : CounterArith) (now : Nat)
    (state : RuleState) (retStatus : RetStatus) :
    (state.reportStatus arith now retStatus).rule = state.rule := by
  simp only [reportStatus, reportHalfOpen, reportClosed, countReport, openAt, closed]
  repeat' split
  all_goals simp

@[simp] theorem machineAfter_rule (arith : CounterArith) (calls : List Call)
    (rule : CircuitBreakerRule) : (machineAfter arith calls rule).rule = rule := by
  induction calls with
  | nil => rfl
  | cons call calls ih =>
      rw [machineAfter_cons, RuleState.step]
      cases call.event <;> simp [RuleState.currentStatus, ih]

def oneErrorRule : CircuitBreakerRule where
  name := "one-error"
  enable := true
  priority := 0
  ruleMatcher := none
  blockConfigs := [{
    blockConfig := some ⟨[⟨.consecutiveError, 1, 1⟩]⟩
    recoverCondition := some ⟨60, 2⟩ }]
  rest := ""

end PoleClient.CircuitBreaker
