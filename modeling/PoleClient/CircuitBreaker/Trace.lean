import PoleClient.CircuitBreaker.RuleState
import PoleClient.Lib.Streak

/-! # The breaker as a law over its history

A history lists the operations on one rule state, newest first, each with the
status it acted in and the state it left. The counters of the state are shown
to be functions of that history; the transition law then speaks about the
history alone.
-/

namespace PoleClient.CircuitBreaker

open Lib

/-! ## Operations and histories -/

inductive Event where
  | report (retStatus : RetStatus)
  | check
deriving DecidableEq, Repr

structure Call where
  now : Nat
  event : Event
deriving DecidableEq, Repr

structure Observation where
  now : Nat
  event : Event
  acting : Status
  state : RuleState
deriving DecidableEq, Repr

def RuleState.step (arith : CounterArith) (state : RuleState) (call : Call) : RuleState :=
  match call.event with
  | .report retStatus => state.reportStatus arith call.now retStatus
  | .check => (state.currentStatus call.now).1

/-- The status acted in is the one after the lazy refresh. -/
def observe (arith : CounterArith) (state : RuleState) (call : Call) : Observation where
  now := call.now
  event := call.event
  acting := (state.refreshStatus call.now).status
  state := state.step arith call

def lastState (rule : CircuitBreakerRule) : List Observation → RuleState
  | [] => RuleState.new rule
  | o :: _ => o.state

/-- The history of a run given newest call first. -/
def history (arith : CounterArith) (rule : CircuitBreakerRule) : List Call → List Observation
  | [] => []
  | call :: earlier =>
      observe arith (lastState rule (history arith rule earlier)) call ::
        history arith rule earlier

/-! ## What a history says -/

def Event.reported : Event → Option RetStatus
  | .report retStatus => some retStatus
  | .check => none

def Observation.closes (o : Observation) : Bool :=
  o.acting = .halfOpen && o.state.status = .close

def Observation.opens (o : Observation) : Bool :=
  o.acting ≠ .opened && o.state.status = .opened

/-- Reports since creation or the last close, newest first. -/
def reportsSinceClose (h : List Observation) : List RetStatus :=
  (h.takeWhile fun o => !o.closes).filterMap fun o => o.event.reported

def openedSince (h : List Observation) : Option Nat :=
  (h.find? Observation.opens).map Observation.now

/-- Non-error reports since the half-open state was entered. -/
def successesSinceHalfOpen (h : List Observation) : Nat :=
  (h.takeWhile fun o => o.state.status = .halfOpen).countP fun o =>
    o.event.reported.any fun retStatus => !isErrorStatus retStatus

end PoleClient.CircuitBreaker
