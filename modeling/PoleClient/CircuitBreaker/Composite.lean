import Mathlib.Data.List.Sort
import Mathlib.Logic.Function.Basic
import PoleClient.CircuitBreaker.RuleState

/-! # The composite breaker and its callers

One breaker holds one rule list and the rule states of every resource. The
client API refreshes the rule list from the callee's own rules before each
check and report; the flow passes calls on to the plugin, if there is one.
Every call reads the clock once.
-/

namespace PoleClient.CircuitBreaker

open Lib

/-! ## Resources -/

structure ServiceResource where
  callee : ServiceKey
  caller : Option ServiceKey
deriving DecidableEq, Repr

structure MethodResource where
  callee : ServiceKey
  caller : Option ServiceKey
  protocol : String
  method : String
  path : String
deriving DecidableEq, Repr

inductive Resource where
  | serviceResource (resource : ServiceResource)
  | methodResource (resource : MethodResource)
  | instanceResource
deriving DecidableEq, Repr

def serviceKey (key : ServiceKey) : String :=
  key.namespaceName ++ "#" ++ key.name

def callerKey (caller : Option ServiceKey) : String :=
  (caller.map serviceKey).getD "*"

def resourceKey : Resource → String
  | .serviceResource resource =>
      "service#" ++ serviceKey resource.callee ++ "#" ++ callerKey resource.caller
  | .methodResource resource =>
      "method#" ++ serviceKey resource.callee ++ "#" ++ callerKey resource.caller ++ "#" ++
        resource.protocol ++ "#" ++ resource.method ++ "#" ++ resource.path
  | .instanceResource => "instance"

def resourceCaller : Resource → Option ServiceKey
  | .serviceResource resource => resource.caller
  | .methodResource resource => resource.caller
  | .instanceResource => none

def circuitBreakerRuleServiceKey : Resource → Option ServiceKey
  | .serviceResource resource => some resource.callee
  | .methodResource resource => some resource.callee
  | .instanceResource => none

/-! ## Applicable rules -/

def isWildcardName (name : String) : Bool :=
  name.isEmpty || name == "*"

def serviceSelectorMatches (selector : ServiceKey) (actual : Option ServiceKey) : Bool :=
  if isWildcardName selector.namespaceName && isWildcardName selector.name then true
  else
    (actual.map fun actual =>
      (isWildcardName selector.namespaceName || selector.namespaceName == actual.namespaceName) &&
        (isWildcardName selector.name || selector.name == actual.name)).getD false

def ruleMatchesResource (rule : CircuitBreakerRule) (resource : Resource) : Bool :=
  match rule.ruleMatcher with
  | none => true
  | some matcher =>
      ((matcher.source.map fun source =>
        serviceSelectorMatches source (resourceCaller resource)).getD true) &&
      ((matcher.destination.map fun destination =>
        serviceSelectorMatches destination (circuitBreakerRuleServiceKey resource)).getD true)

/-- Enabled matching rules in stable priority order. -/
def applicableRules (resource : Resource) (rules : List CircuitBreakerRule) :
    List CircuitBreakerRule :=
  (rules.filter fun rule => rule.enable && ruleMatchesResource rule resource).insertionSort
    fun left right => left.priority ≤ right.priority

/-! ## The breaker -/

structure FallbackInfo where
  code : String
  headers : List (String × String)
  body : String
deriving DecidableEq, Repr

structure CircuitBreakerStatus where
  circuitBreaker : String
  status : Status
  startMs : Nat := 0
  fallbackInfo : Option FallbackInfo := none
  destroy : Bool := false
deriving DecidableEq, Repr

structure CompositeCircuitBreaker where
  rules : List CircuitBreakerRule
  states : String → Option (List RuleState)

namespace CompositeCircuitBreaker

def new : CompositeCircuitBreaker := ⟨[], fun _ => none⟩

/-- A rule list that differs from the installed one clears every state. -/
def updateRules (breaker : CompositeCircuitBreaker) (rules : List CircuitBreakerRule) :
    CompositeCircuitBreaker :=
  if breaker.rules = rules then breaker else ⟨rules, fun _ => none⟩

/-- The loop of `check_resource`: it stops at the first open state and remembers the first
half-open one. -/
def checkStates (now : Nat) : Option String → List RuleState →
    List RuleState × CircuitBreakerStatus
  | halfOpenState, [] =>
      match halfOpenState with
      | some ruleName => ([], { circuitBreaker := ruleName, status := .halfOpen })
      | none => ([], { circuitBreaker := "", status := .close })
  | halfOpenState, state :: states =>
      let (state, status) := state.currentStatus now
      if status = .opened then
        (state :: states, { circuitBreaker := state.rule.name, status := .opened })
      else
        let halfOpenState :=
          if status = .halfOpen && halfOpenState.isNone then some state.rule.name
          else halfOpenState
        let (states, answer) := checkStates now halfOpenState states
        (state :: states, answer)

def checkResource (now : Nat) (breaker : CompositeCircuitBreaker) (resource : Resource) :
    CompositeCircuitBreaker × CircuitBreakerStatus :=
  match breaker.states (resourceKey resource) with
  | none => (breaker, { circuitBreaker := "", status := .close })
  | some states =>
      let (states, answer) := checkStates now none states
      ({ breaker with
          states := Function.update breaker.states (resourceKey resource) (some states) }, answer)

/-- The states of a resource, made from its applicable rules at the first report. -/
def statesForResource (breaker : CompositeCircuitBreaker) (resource : Resource) :
    List RuleState :=
  (breaker.states (resourceKey resource)).getD
    ((applicableRules resource breaker.rules).map RuleState.new)

def reportStat (arith : CounterArith) (now : Nat) (breaker : CompositeCircuitBreaker)
    (resource : Resource) (retStatus : RetStatus) : CompositeCircuitBreaker :=
  { breaker with
    states := Function.update breaker.states (resourceKey resource)
      (some ((breaker.statesForResource resource).map fun state =>
        state.reportStatus arith now retStatus)) }

end CompositeCircuitBreaker

/-! ## The flow and the API -/

structure CheckResult where
  pass : Bool
  ruleName : String
  fallbackInfo : Option FallbackInfo
deriving DecidableEq, Repr

def CheckResult.passed : CheckResult := ⟨true, "", none⟩

/-- Only an open breaker blocks a call. -/
def convertFromStatus (status : CircuitBreakerStatus) : CheckResult where
  pass := status.status ≠ .opened
  ruleName := status.circuitBreaker
  fallbackInfo := status.fallbackInfo

/-- The flow holds the breaker plugin, if one is installed. -/
abbrev CircuitBreakerFlow : Type :=
  Option CompositeCircuitBreaker

namespace CircuitBreakerFlow

def updateRules (flow : CircuitBreakerFlow) (rules : List CircuitBreakerRule) :
    CircuitBreakerFlow :=
  flow.map fun breaker => breaker.updateRules rules

def checkResource (now : Nat) (flow : CircuitBreakerFlow) (resource : Resource) :
    CircuitBreakerFlow × CheckResult :=
  match flow with
  | none => (none, CheckResult.passed)
  | some breaker =>
      let (breaker, status) := breaker.checkResource now resource
      (some breaker, convertFromStatus status)

def reportStat (arith : CounterArith) (now : Nat) (flow : CircuitBreakerFlow)
    (resource : Resource) (retStatus : RetStatus) : CircuitBreakerFlow :=
  flow.map fun breaker => breaker.reportStat arith now resource retStatus

end CircuitBreakerFlow

/-- The rule list that loading the callee's circuit-breaker rules gives at this call. -/
abbrev LoadedRules : Type :=
  Except PoleError (List CircuitBreakerRule)

def refreshRulesForResource (flow : CircuitBreakerFlow) (loaded : LoadedRules)
    (resource : Resource) : Except PoleError CircuitBreakerFlow :=
  match circuitBreakerRuleServiceKey resource with
  | none => .ok flow
  | some _ =>
      match loaded with
      | .error err => .error err
      | .ok rules => .ok (flow.updateRules rules)

/-- `DefaultCircuitBreakerAPI::check_resource`; a failed refresh leaves the flow as it is. -/
def apiCheckResource (now : Nat) (flow : CircuitBreakerFlow) (loaded : LoadedRules)
    (resource : Resource) : CircuitBreakerFlow × Except PoleError CheckResult :=
  match refreshRulesForResource flow loaded resource with
  | .error err => (flow, .error err)
  | .ok flow =>
      let (flow, result) := flow.checkResource now resource
      (flow, .ok result)

def apiReportStat (arith : CounterArith) (now : Nat) (flow : CircuitBreakerFlow)
    (loaded : LoadedRules) (resource : Resource) (retStatus : RetStatus) :
    CircuitBreakerFlow × Except PoleError Unit :=
  match refreshRulesForResource flow loaded resource with
  | .error err => (flow, .error err)
  | .ok flow => (flow.reportStat arith now resource retStatus, .ok ())

end PoleClient.CircuitBreaker
