import PoleClient.Core.Model
import PoleClient.Lib.CounterArith

/-! # The state machine of one circuit-breaker rule

Counters and timestamps are updated by reports; the step from open to half-open
is taken lazily by whatever operation comes first after the sleep window. Every
operation reads the clock once. `rest` stands for the fields of a rule that only
the comparison of rule lists reads.
-/

namespace PoleClient.CircuitBreaker

open Lib

/-! ## Rules -/

inductive TriggerType where
  | other
  | consecutiveError
deriving DecidableEq, Repr

structure TriggerCondition where
  triggerType : TriggerType
  errorCount : UInt32
  minimumRequest : UInt32
deriving DecidableEq, Repr

structure BlockConfig where
  triggerConditions : List TriggerCondition
deriving DecidableEq, Repr

structure RecoverCondition where
  sleepWindow : UInt32
  consecutiveSuccess : UInt32
deriving DecidableEq, Repr

structure CircuitBreakerPolicy where
  blockConfig : Option BlockConfig
  recoverCondition : Option RecoverCondition
deriving DecidableEq, Repr

/-- Source and destination selectors of a rule. -/
structure RuleMatcher where
  source : Option ServiceKey
  destination : Option ServiceKey
deriving DecidableEq, Repr

structure CircuitBreakerRule where
  name : String
  enable : Bool
  priority : Int
  ruleMatcher : Option RuleMatcher
  blockConfigs : List CircuitBreakerPolicy
  rest : String
deriving DecidableEq, Repr

/-! ## State -/

inductive Status where
  | close
  | halfOpen
  | opened
  | destroy
deriving DecidableEq, Repr

inductive RetStatus where
  | retUnknown
  | retSuccess
  | retFail
  | retTimeout
  | retReject
  | retFlowControl
deriving DecidableEq, Repr

structure RuleState where
  rule : CircuitBreakerRule
  status : Status
  openedAt : Option Nat
  consecutiveErrors : Nat
  consecutiveSuccesses : Nat
  requestCount : Nat
deriving DecidableEq, Repr

def isErrorStatus (status : RetStatus) : Bool :=
  status = .retFail || status = .retTimeout || status = .retReject

def recoverCondition (rule : CircuitBreakerRule) : Option RecoverCondition :=
  rule.blockConfigs.findSome? fun policy => policy.recoverCondition

def recoverSuccessThreshold (rule : CircuitBreakerRule) : Nat :=
  ((recoverCondition rule).map fun condition => max condition.consecutiveSuccess.toNat 1).getD 1

def triggerConditions (rule : CircuitBreakerRule) : List TriggerCondition :=
  (rule.blockConfigs.filterMap fun policy => policy.blockConfig).flatMap fun block =>
    block.triggerConditions

namespace RuleState

def new (rule : CircuitBreakerRule) : RuleState where
  rule := rule
  status := .close
  openedAt := none
  consecutiveErrors := 0
  consecutiveSuccesses := 0
  requestCount := 0

def openAt (now : Nat) (state : RuleState) : RuleState :=
  { state with status := .opened, openedAt := some now, consecutiveSuccesses := 0 }

def closed (state : RuleState) : RuleState :=
  { state with
    status := .close
    openedAt := none
    consecutiveErrors := 0
    consecutiveSuccesses := 0
    requestCount := 0 }

def shouldOpen (state : RuleState) : Bool :=
  state.rule.enable &&
    (triggerConditions state.rule).any fun trigger =>
      trigger.triggerType = .consecutiveError &&
        !(state.requestCount < trigger.minimumRequest.toNat) &&
        (trigger.errorCount.toNat > 0 && state.consecutiveErrors ≥ trigger.errorCount.toNat)

/-- Open to half-open once the sleep window of the first recover condition has elapsed. -/
def refreshStatus (now : Nat) (state : RuleState) : RuleState :=
  if state.status ≠ .opened then state
  else
    match recoverCondition state.rule, state.openedAt with
    | some condition, some openedAt =>
        if now - openedAt ≥ condition.sleepWindow.toNat * nanosPerSecond then
          { state with status := .halfOpen, consecutiveSuccesses := 0 }
        else state
    | _, _ => state

def currentStatus (now : Nat) (state : RuleState) : RuleState × Status :=
  let state := state.refreshStatus now
  (state, state.status)

def reportHalfOpen (arith : CounterArith) (now : Nat) (state : RuleState)
    (retStatus : RetStatus) : RuleState :=
  if isErrorStatus retStatus then state.openAt now
  else
    let state := { state with consecutiveSuccesses := arith.add state.consecutiveSuccesses 1 }
    if state.consecutiveSuccesses ≥ recoverSuccessThreshold state.rule then state.closed
    else state

def countReport (arith : CounterArith) (state : RuleState) (retStatus : RetStatus) : RuleState :=
  { state with
    requestCount := arith.add state.requestCount 1
    consecutiveErrors :=
      if isErrorStatus retStatus then arith.add state.consecutiveErrors 1 else 0 }

def reportClosed (arith : CounterArith) (now : Nat) (state : RuleState)
    (retStatus : RetStatus) : RuleState :=
  let state := state.countReport arith retStatus
  if state.shouldOpen then state.openAt now else state

def reportStatus (arith : CounterArith) (now : Nat) (state : RuleState)
    (retStatus : RetStatus) : RuleState :=
  let state := state.refreshStatus now
  if state.status = .opened then state
  else if state.status = .halfOpen then state.reportHalfOpen arith now retStatus
  else state.reportClosed arith now retStatus

end RuleState

end PoleClient.CircuitBreaker
