import PoleClient.CircuitBreaker.ResourceKeys
import PoleClient.FaultDetect.ProbeExchange

/-! # What probes and calls report

Probes report on the service that they probe, for no caller; calls on what the
caller says of them. Both go to the breaker as it is, while a check and a report
through the breaker's own interface load the rules before. A check for a caller or a
method never sees what the probes have found.
-/

namespace PoleClient.FaultDetect

open Lib CircuitBreaker

/-! ## Calls -/

structure ServiceCallResult where
  callerService : Option ServiceKey
  calleeService : ServiceKey
  delay : Nat
  retCode : String
  status : RetStatus
  protocol : Option String
  method : Option String
  path : Option String
deriving DecidableEq, Repr

/-- A call is of a method if all that names one is there and the path is not empty. -/
def serviceCallResultResource (req : ServiceCallResult) : Resource :=
  match req.protocol, req.method, req.path with
  | some protocol, some method, some path =>
      if !path.isEmpty then
        .methodResource ⟨req.calleeService, req.callerService, protocol, method, path⟩
      else .serviceResource ⟨req.calleeService, req.callerService⟩
  | _, _, _ => .serviceResource ⟨req.calleeService, req.callerService⟩

def serviceCallStat (req : ServiceCallResult) : ResourceStat where
  resource := serviceCallResultResource req
  retCode := req.retCode
  delay := req.delay
  status := req.status

/-! ## The client -/

inductive ClientAction where
  /-- one round of a background loop: the plan is executed on the host and reported -/
  | probe (now : Nat) (network : Network) (task : ProbeTask)
  /-- `report_service_call` -/
  | serviceCall (now : Nat) (req : ServiceCallResult)
  /-- `check_resource` and `report_stat` of the breaker's interface -/
  | api (call : ApiCall)

/-- The report of one round of a background loop. -/
def probeStat (network : Network) (task : ProbeTask) : ResourceStat :=
  faultDetectResultToResourceStat task.plan
    (executeFaultDetectPlan network task.host task.plan)

def clientStep (arith : CounterArith) (flow : CircuitBreakerFlow) :
    ClientAction → CircuitBreakerFlow
  | .probe now network task =>
      flow.reportStat arith now (probeStat network task).resource (probeStat network task).status
  | .serviceCall now req =>
      flow.reportStat arith now (serviceCallStat req).resource (serviceCallStat req).status
  | .api call => apiStep arith flow call

/-! ## Keys that no probe has -/

def Named : Resource → Prop
  | .serviceResource resource => resource.caller.isSome
  | _ => True

def probeResource (plan : FaultDetectPlan) : Resource :=
  .serviceResource ⟨⟨plan.namespaceName, plan.service⟩, none⟩

def PlainService (plan : FaultDetectPlan) : Prop :=
  '#' ∉ plan.namespaceName.toList ∧ '#' ∉ plan.service.toList

theorem cut_probe {plan : FaultDetectPlan} (plain : PlainService plan) :
    Text.cut '#' (resourceNames (probeResource plan)) =
      ["service".toList, plan.namespaceName.toList, plan.service.toList, "*".toList] := by
  apply Text.cut_of_plain
  intro name hname
  simp only [resourceNames, probeResource, callerNames, Option.map_none, Option.getD_none,
    List.cons_append, List.nil_append, List.mem_cons, List.not_mem_nil, or_false] at hname
  rcases hname with rfl | rfl | rfl | rfl
  · decide
  · exact plain.1
  · exact plain.2
  · decide

/-- The names of a resource with a caller have more parts, and those of a method begin
otherwise. -/
theorem resourceKey_ne_probe {plan : FaultDetectPlan} (plain : PlainService plan)
    {resource : Resource} (named : Named resource) :
    resourceKey resource ≠ resourceKey (probeResource plan) := by
  rw [ne_eq, resourceKey_eq_iff, cut_probe plain]
  intro hcut
  cases resource with
  | serviceResource resource =>
      obtain ⟨caller, hcaller⟩ := Option.isSome_iff_exists.mp named
      have hlength := congrArg List.length hcut
      rw [Text.length_cut] at hlength
      simp only [resourceNames, callerNames, hcaller] at hlength
      simp at hlength
      omega
  | methodResource resource =>
      have hhead := congrArg List.head? hcut
      simp [resourceNames, Text.cut, Text.splitChars] at hhead
  | instanceResource =>
      have hhead := congrArg List.head? hcut
      simp [resourceNames, Text.cut, Text.splitChars] at hhead

/-! ## Runs with and without probes -/

def ClientAction.isProbe : ClientAction → Bool
  | .probe _ _ _ => true
  | _ => false

/-- Every probe is of a service without the separator in its names. -/
def ClientAction.ProbesPlainly : ClientAction → Prop
  | .probe _ _ task => PlainService task.plan
  | _ => True

/-- No breaker in both, or two with the same rules and the same states under the key. -/
def FlowsAlikeAt (key : String) : CircuitBreakerFlow → CircuitBreakerFlow → Prop
  | none, none => True
  | some breaker, some other => AlikeAt key breaker other
  | _, _ => False

theorem FlowsAlikeAt.refl (key : String) (flow : CircuitBreakerFlow) :
    FlowsAlikeAt key flow flow := by
  cases flow with
  | none => trivial
  | some breaker => exact ⟨rfl, rfl⟩

section Alike

variable {key : String} {flow other : CircuitBreakerFlow} {arith : CounterArith}

theorem flowsAlikeAt_map {f : CompositeCircuitBreaker → CompositeCircuitBreaker}
    (alike : FlowsAlikeAt key flow other)
    (h : ∀ breaker otherBreaker, AlikeAt key breaker otherBreaker →
      AlikeAt key (f breaker) (f otherBreaker)) :
    FlowsAlikeAt key (flow.map f) (other.map f) := by
  cases flow with
  | none =>
      cases other with
      | none => trivial
      | some other => exact alike.elim
  | some breaker =>
      cases other with
      | none => exact alike.elim
      | some other => exact h breaker other alike

theorem alikeAt_updateRules {breaker otherBreaker : CompositeCircuitBreaker}
    (alike : AlikeAt key breaker otherBreaker) (rules : List CircuitBreakerRule) :
    AlikeAt key (breaker.updateRules rules) (otherBreaker.updateRules rules) := by
  refine ⟨by simp, ?_⟩
  unfold CompositeCircuitBreaker.updateRules
  rw [alike.1]
  split
  · exact alike.2
  · rfl

theorem flowsAlikeAt_report (alike : FlowsAlikeAt key flow other) (now : Nat)
    (resource : Resource) (status : RetStatus) :
    FlowsAlikeAt key (flow.reportStat arith now resource status)
      (other.reportStat arith now resource status) := by
  apply flowsAlikeAt_map alike
  intro breaker otherBreaker h
  exact alikeAt_stepOn arith h ⟨resource, ⟨now, .report status⟩⟩

/-- A report under another key changes nothing under this one. -/
theorem flowsAlikeAt_foreign (alike : FlowsAlikeAt key flow other) (now : Nat)
    {resource : Resource} (status : RetStatus) (h : key ≠ resourceKey resource) :
    FlowsAlikeAt key (flow.reportStat arith now resource status) other := by
  cases flow with
  | none => exact alike
  | some breaker =>
      cases other with
      | none => exact alike.elim
      | some otherBreaker =>
          exact @alikeAt_foreign key breaker otherBreaker arith alike
            ⟨resource, ⟨now, .report status⟩⟩ h

theorem flowsAlikeAt_api (alike : FlowsAlikeAt key flow other) (call : ApiCall) :
    FlowsAlikeAt key (apiStep arith flow call) (apiStep arith other call) := by
  have hstep : ∀ breaker otherBreaker, AlikeAt key breaker otherBreaker →
      AlikeAt key (breaker.step arith call.resource ⟨call.now, call.event⟩)
        (otherBreaker.step arith call.resource ⟨call.now, call.event⟩) :=
    fun _ _ h => alikeAt_stepOn arith h ⟨call.resource, ⟨call.now, call.event⟩⟩
  rw [apiStep_eq, apiStep_eq]
  cases hkey : circuitBreakerRuleServiceKey call.resource with
  | none =>
      simp only [refreshRulesForResource, hkey]
      exact flowsAlikeAt_map alike hstep
  | some service =>
      cases hloaded : call.loaded with
      | error err =>
          simp only [refreshRulesForResource, hkey]
          exact alike
      | ok rules =>
          simp only [refreshRulesForResource, hkey]
          exact flowsAlikeAt_map
            (flowsAlikeAt_map alike fun _ _ h => alikeAt_updateRules h rules) hstep

theorem flowsAlikeAt_client (alike : FlowsAlikeAt key flow other) (action : ClientAction) :
    FlowsAlikeAt key (clientStep arith flow action) (clientStep arith other action) := by
  cases action with
  | probe now network task => exact flowsAlikeAt_report alike now _ _
  | serviceCall now req => exact flowsAlikeAt_report alike now _ _
  | api call => exact flowsAlikeAt_api alike call

theorem flowsAlikeAt_check {resource : Resource}
    (alike : FlowsAlikeAt (resourceKey resource) flow other) (now : Nat) :
    (flow.checkResource now resource).2 = (other.checkResource now resource).2 := by
  cases flow with
  | none =>
      cases other with
      | none => rfl
      | some other => exact alike.elim
  | some breaker =>
      cases other with
      | none => exact alike.elim
      | some otherBreaker =>
          exact congrArg convertFromStatus (checkResource_answer_congr alike.2 now)

theorem apiCheckResource_congr {resource : Resource}
    (alike : FlowsAlikeAt (resourceKey resource) flow other) (now : Nat) (loaded : LoadedRules) :
    (apiCheckResource now flow loaded resource).2 =
      (apiCheckResource now other loaded resource).2 := by
  unfold apiCheckResource refreshRulesForResource
  cases circuitBreakerRuleServiceKey resource with
  | none => exact congrArg Except.ok (flowsAlikeAt_check alike now)
  | some service =>
      cases loaded with
      | error err => rfl
      | ok rules =>
          exact congrArg Except.ok (flowsAlikeAt_check
            (flowsAlikeAt_map alike fun _ _ h => alikeAt_updateRules h rules) now)

end Alike

/-- In every run of probes, calls and uses of the breaker's interface: a check for a caller or a
method is answered as if no probe had ever been made. -/
theorem probes_unseen {actions : List ClientAction}
    (plain : ∀ action ∈ actions, action.ProbesPlainly) {resource : Resource}
    (named : Named resource) (arith : CounterArith) (flow : CircuitBreakerFlow) (now : Nat)
    (loaded : LoadedRules) :
    (apiCheckResource now (run (clientStep arith) flow actions) loaded resource).2 =
      (apiCheckResource now (run (clientStep arith) flow
        (actions.filter fun action => !action.isProbe)) loaded resource).2 := by
  apply apiCheckResource_congr
  refine @run_purge _ _ _ _ (fun _ action => action.ProbesPlainly)
    (FlowsAlikeAt (resourceKey resource)) ?_ ?_ _ _ _ (.refl _ flow)
    (along_of_forall fun action hmem _ => plain action hmem)
  · exact fun _ _ action alike _ => flowsAlikeAt_client alike action
  · intro before other action alike hprobe plainly
    cases action with
    | probe probedAt network task =>
        exact flowsAlikeAt_foreign alike probedAt _ (resourceKey_ne_probe plainly named)
    | serviceCall calledAt req => cases hprobe
    | api call => cases hprobe

/-! ## A service whose probes fail -/

def failingTask : ProbeTask where
  host := "10.0.0.1"
  plan := ⟨"probe", "prod", "orders", 30, 10, 8080, .tcp, none, none, none⟩

def unreachable : Network where
  timesOut := false
  bind := .ok ()
  connect := fun _ => .error "connection refused"
  write := fun _ => .ok ()
  read := fun _ => .ok .empty
  debug := id

def ordersService : ServiceKey := ⟨"prod", "orders"⟩

def checkedThenProbed : List ClientAction :=
  [.api ⟨0, .serviceResource ⟨ordersService, none⟩, .check, .ok [oneErrorRule]⟩,
    .probe 1 unreachable failingTask]

/-- The check for nobody is refused, and the one for a caller passes. -/
theorem probes_unseen_failing :
    (apiCheckResource 2 (run (clientStep .u32) (some .new) checkedThenProbed) (.ok [oneErrorRule])
      (.serviceResource ⟨ordersService, none⟩)).2 = .ok ⟨false, oneErrorRule.name, none⟩ ∧
    (apiCheckResource 2 (run (clientStep .u32) (some .new) checkedThenProbed) (.ok [oneErrorRule])
        (.serviceResource ⟨ordersService, some ⟨"prod", "web"⟩⟩)).2 =
      (apiCheckResource 2 (run (clientStep .u32) (some .new)
        (checkedThenProbed.filter fun action => !action.isProbe)) (.ok [oneErrorRule])
        (.serviceResource ⟨ordersService, some ⟨"prod", "web"⟩⟩)).2 := by
  have hnamed : Named (.serviceResource ⟨ordersService, some ⟨"prod", "web"⟩⟩) := rfl
  refine ⟨by decide +kernel, probes_unseen ?_ hnamed .u32 (some .new) 2 (.ok [oneErrorRule])⟩
  intro action haction
  rcases List.mem_cons.mp haction with rfl | haction
  · trivial
  · obtain rfl := List.mem_singleton.mp haction
    exact ⟨by decide, by decide⟩

end PoleClient.FaultDetect
