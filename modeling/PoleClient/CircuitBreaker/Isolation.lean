import PoleClient.CircuitBreaker.CompositeTrace
import PoleClient.Lib.Run

/-! # Isolation between services

Every API call pushes the callee's rules into the one breaker, and a changed
rule list clears the states of all services. A call is harmless to a service
if it installs no other rule list while that service has states, and if its
resource shares no state key with the service. Along harmless calls the states
of a service are those of the run in which nobody else was called.
-/

namespace PoleClient.CircuitBreaker

open Lib

/-! ## Calls through the API -/

structure ApiCall where
  now : Nat
  resource : Resource
  event : Event
  loaded : LoadedRules

def apiStep (arith : CounterArith) (flow : CircuitBreakerFlow) (call : ApiCall) :
    CircuitBreakerFlow :=
  match call.event with
  | .report retStatus => (apiReportStat arith call.now flow call.loaded call.resource retStatus).1
  | .check => (apiCheckResource call.now flow call.loaded call.resource).1

def onService (service : ServiceKey) (resource : Resource) : Bool :=
  circuitBreakerRuleServiceKey resource = some service

def statesOf (flow : CircuitBreakerFlow) (resource : Resource) : Option (List RuleState) :=
  flow.bind fun breaker => breaker.states (resourceKey resource)

/-- The call reaches the flow: there is nothing to load, or loading succeeds. -/
def LoadSucceeds (call : ApiCall) : Prop :=
  circuitBreakerRuleServiceKey call.resource = none ∨ ∃ rules, call.loaded = .ok rules

/-- A foreign call that shares no key with the service and installs no other rule list while
the service has states. -/
def Harmless (service : ServiceKey) (flow : CircuitBreakerFlow) (call : ApiCall) : Prop :=
  LoadSucceeds call →
    (∀ resource, onService service resource = true →
      resourceKey call.resource ≠ resourceKey resource) ∧
    ∀ rules breaker, call.loaded = .ok rules → flow = some breaker →
      circuitBreakerRuleServiceKey call.resource ≠ none →
        rules = breaker.rules ∨
          ∀ resource, onService service resource = true →
            breaker.states (resourceKey resource) = none

/-! ## Frames of the breaker operations -/

namespace CompositeCircuitBreaker

variable {breaker : CompositeCircuitBreaker}

theorem reportStat_states_of_ne {key : String} (arith : CounterArith) (now : Nat)
    (resource : Resource) (retStatus : RetStatus) (h : key ≠ resourceKey resource) :
    (breaker.reportStat arith now resource retStatus).states key = breaker.states key :=
  Function.update_of_ne h _ _

@[simp] theorem checkResource_rules (now : Nat) (resource : Resource) :
    (breaker.checkResource now resource).1.rules = breaker.rules := by
  unfold checkResource
  split <;> rfl

theorem checkResource_states_of_ne {key : String} (now : Nat) (resource : Resource)
    (h : key ≠ resourceKey resource) :
    (breaker.checkResource now resource).1.states key = breaker.states key := by
  unfold checkResource
  split
  · rfl
  · exact Function.update_of_ne h _ _

theorem updateRules_of_eq (breaker : CompositeCircuitBreaker) :
    breaker.updateRules breaker.rules = breaker := by
  simp [updateRules]

@[simp] theorem updateRules_rules (rules : List CircuitBreakerRule) :
    (breaker.updateRules rules).rules = rules := by
  unfold updateRules
  split
  · next h => exact h
  · rfl

theorem updateRules_states_none {key : String} (rules : List CircuitBreakerRule)
    (h : breaker.states key = none) : (breaker.updateRules rules).states key = none := by
  unfold updateRules
  split
  · exact h
  · rfl

@[simp] theorem step_rules (arith : CounterArith) (resource : Resource) (call : Call) :
    (breaker.step arith resource call).rules = breaker.rules := by
  unfold step
  cases call.event with
  | report retStatus => rfl
  | check => exact checkResource_rules call.now resource

theorem step_states_of_ne {key : String} (arith : CounterArith) (resource : Resource)
    (call : Call) (h : key ≠ resourceKey resource) :
    (breaker.step arith resource call).states key = breaker.states key := by
  unfold step
  cases call.event with
  | report retStatus => exact reportStat_states_of_ne arith call.now resource retStatus h
  | check => exact checkResource_states_of_ne call.now resource h

/-- The new states of the called resource depend on its old ones and the rule list only. -/
theorem step_states_congr {other : CompositeCircuitBreaker} (arith : CounterArith)
    (resource : Resource) (call : Call)
    (hstates : breaker.states (resourceKey resource) = other.states (resourceKey resource))
    (hrules : breaker.rules = other.rules) :
    (breaker.step arith resource call).states (resourceKey resource) =
      (other.step arith resource call).states (resourceKey resource) := by
  unfold step
  cases call.event with
  | report retStatus => simp [reportStat, statesForResource, hstates, hrules]
  | check =>
      unfold checkResource
      rw [← hstates]
      cases h : breaker.states (resourceKey resource) with
      | none => simpa [h] using hstates
      | some states => simp

end CompositeCircuitBreaker

theorem apiStep_eq (arith : CounterArith) (flow : CircuitBreakerFlow) (call : ApiCall) :
    apiStep arith flow call =
      match refreshRulesForResource flow call.loaded call.resource with
      | .error _ => flow
      | .ok refreshed => refreshed.map fun breaker =>
          breaker.step arith call.resource ⟨call.now, call.event⟩ := by
  unfold apiStep apiReportStat apiCheckResource
  cases hevent : call.event with
  | report retStatus =>
      simp only
      cases refreshRulesForResource flow call.loaded call.resource with
      | error err => rfl
      | ok refreshed => rfl
  | check =>
      simp only
      cases refreshRulesForResource flow call.loaded call.resource with
      | error err => rfl
      | ok refreshed =>
          cases refreshed <;> rfl

/-! ## The purged run -/

/-- The same states for every resource of the service; and the same rules, unless the service
has no states at all. -/
def Agree (service : ServiceKey) (breaker other : CompositeCircuitBreaker) : Prop :=
  (∀ resource, onService service resource = true →
    breaker.states (resourceKey resource) = other.states (resourceKey resource)) ∧
  ((∀ resource, onService service resource = true →
      breaker.states (resourceKey resource) = none) ∨
    breaker.rules = other.rules)

def FlowsAgree (service : ServiceKey) : CircuitBreakerFlow → CircuitBreakerFlow → Prop
  | none, none => True
  | some breaker, some other => Agree service breaker other
  | _, _ => False

theorem FlowsAgree.refl (service : ServiceKey) (flow : CircuitBreakerFlow) :
    FlowsAgree service flow flow := by
  cases flow with
  | none => trivial
  | some breaker => exact ⟨fun _ _ => rfl, .inr rfl⟩

theorem FlowsAgree.statesOf_eq {service : ServiceKey} {flow other : CircuitBreakerFlow}
    (h : FlowsAgree service flow other) {resource : Resource}
    (own : onService service resource = true) :
    statesOf flow resource = statesOf other resource := by
  cases flow with
  | none =>
      cases other with
      | none => rfl
      | some other => exact h.elim
  | some breaker =>
      cases other with
      | none => exact h.elim
      | some other => exact h.1 resource own

section Steps

variable {service : ServiceKey} {breaker other : CompositeCircuitBreaker}

theorem agree_updateRules (h : Agree service breaker other) (rules : List CircuitBreakerRule) :
    (∀ resource, onService service resource = true →
      (breaker.updateRules rules).states (resourceKey resource) =
        (other.updateRules rules).states (resourceKey resource)) ∧
      (breaker.updateRules rules).rules = (other.updateRules rules).rules := by
  refine ⟨fun resource own => ?_, by simp⟩
  rcases h.2 with hnone | hrules
  · have hfirst := hnone resource own
    have hsecond : other.states (resourceKey resource) = none :=
      (h.1 resource own).symm.trans hfirst
    rw [CompositeCircuitBreaker.updateRules_states_none rules hfirst,
      CompositeCircuitBreaker.updateRules_states_none rules hsecond]
  · unfold CompositeCircuitBreaker.updateRules
    rw [hrules]
    split
    · exact h.1 resource own
    · rfl

/-- A call on the service itself acts alike on agreeing breakers. -/
theorem flowsAgree_own (arith : CounterArith) (flow otherFlow : CircuitBreakerFlow)
    (call : ApiCall) (h : FlowsAgree service flow otherFlow)
    (own : onService service call.resource = true) :
    FlowsAgree service (apiStep arith flow call) (apiStep arith otherFlow call) := by
  have hkey : circuitBreakerRuleServiceKey call.resource = some service := by
    simpa [onService] using own
  rw [apiStep_eq, apiStep_eq]
  simp only [refreshRulesForResource, hkey]
  cases call.loaded with
  | error err => exact h
  | ok rules =>
      cases flow with
      | none =>
          cases otherFlow with
          | none => exact h
          | some other => exact h.elim
      | some breaker =>
          cases otherFlow with
          | none => exact h.elim
          | some other =>
              rcases agree_updateRules h rules with ⟨hstates, hrules⟩
              refine ⟨fun resource hresource => ?_, .inr (by simp)⟩
              by_cases hsame : resourceKey resource = resourceKey call.resource
              · rw [hsame]
                exact CompositeCircuitBreaker.step_states_congr arith call.resource _
                  (hstates call.resource own) hrules
              · rw [CompositeCircuitBreaker.step_states_of_ne arith call.resource _ hsame,
                  CompositeCircuitBreaker.step_states_of_ne arith call.resource _ hsame]
                exact hstates resource hresource

theorem apiCheckResource_answer_own (now : Nat) (flow otherFlow : CircuitBreakerFlow)
    (loaded : LoadedRules) {resource : Resource} (h : FlowsAgree service flow otherFlow)
    (own : onService service resource = true) :
    (apiCheckResource now flow loaded resource).2 =
      (apiCheckResource now otherFlow loaded resource).2 := by
  have hkey : circuitBreakerRuleServiceKey resource = some service := by
    simpa [onService] using own
  simp only [apiCheckResource, refreshRulesForResource, hkey]
  cases loaded with
  | error err => rfl
  | ok rules =>
      cases flow with
      | none =>
          cases otherFlow with
          | none => rfl
          | some other => exact h.elim
      | some breaker =>
          cases otherFlow with
          | none => exact h.elim
          | some other =>
              have hstates := (agree_updateRules h rules).1 resource own
              simp only [CircuitBreakerFlow.updateRules, CircuitBreakerFlow.checkResource,
                Option.map_some, CompositeCircuitBreaker.checkResource]
              rw [← hstates]
              cases (breaker.updateRules rules).states (resourceKey resource) <;> rfl

theorem agree_install (h : Agree service breaker other) {rules : List CircuitBreakerRule}
    (hrules : rules = breaker.rules ∨ ∀ resource, onService service resource = true →
      breaker.states (resourceKey resource) = none) :
    Agree service (breaker.updateRules rules) other := by
  rcases hrules with rfl | hnone
  · rw [CompositeCircuitBreaker.updateRules_of_eq]
    exact h
  · have hcleared : ∀ resource, onService service resource = true →
        (breaker.updateRules rules).states (resourceKey resource) = none := fun resource own =>
      CompositeCircuitBreaker.updateRules_states_none rules (hnone resource own)
    refine ⟨fun resource own => ?_, .inl hcleared⟩
    rw [hcleared resource own, ← h.1 resource own, hnone resource own]

theorem agree_foreign_step (arith : CounterArith) (h : Agree service breaker other)
    {resource : Resource} (call : Call)
    (hkey : ∀ own, onService service own = true → resourceKey resource ≠ resourceKey own) :
    Agree service (breaker.step arith resource call) other := by
  have hframe : ∀ own, onService service own = true →
      (breaker.step arith resource call).states (resourceKey own) =
        breaker.states (resourceKey own) := fun own hown =>
    CompositeCircuitBreaker.step_states_of_ne arith resource call (hkey own hown).symm
  refine ⟨fun own hown => (hframe own hown).trans (h.1 own hown), ?_⟩
  rcases h.2 with hnone | hrules
  · exact .inl fun own hown => (hframe own hown).trans (hnone own hown)
  · exact .inr (by simpa using hrules)

/-- A harmless foreign call leaves the agreement as it is. -/
theorem flowsAgree_foreign (arith : CounterArith) (flow otherFlow : CircuitBreakerFlow)
    (call : ApiCall) (h : FlowsAgree service flow otherFlow)
    (harmless : Harmless service flow call) :
    FlowsAgree service (apiStep arith flow call) otherFlow := by
  rw [apiStep_eq]
  cases flow with
  | none =>
      cases hrefresh : refreshRulesForResource none call.loaded call.resource with
      | error err => exact h
      | ok refreshed =>
          have hnone : refreshed = none := by
            unfold refreshRulesForResource at hrefresh
            repeat' split at hrefresh
            all_goals simp_all [CircuitBreakerFlow.updateRules]
          rw [hnone]
          exact h
  | some breaker =>
      cases otherFlow with
      | none => exact h.elim
      | some other =>
          cases hkey : circuitBreakerRuleServiceKey call.resource with
          | none =>
              simp only [refreshRulesForResource, hkey]
              exact agree_foreign_step arith h _ (harmless (.inl hkey)).1
          | some callee =>
              cases hloaded : call.loaded with
              | error err =>
                  simp only [refreshRulesForResource, hkey]
                  exact h
              | ok rules =>
                  simp only [refreshRulesForResource, hkey]
                  have hall := harmless (.inr ⟨rules, hloaded⟩)
                  have hinstall := hall.2 rules breaker hloaded rfl (by simp [hkey])
                  exact agree_foreign_step arith (agree_install h hinstall) _ hall.1

end Steps

/-- In every run whose foreign calls are harmless, the breaker states of a service are those of
the run in which nobody else was called, foreign calls leave them as they are, and checks of
the service answer accordingly. -/
theorem isolated_run (arith : CounterArith) (service : ServiceKey) (flow : CircuitBreakerFlow)
    (calls : List ApiCall)
    (harmless : Along (apiStep arith) (fun flow call =>
      onService service call.resource = false → Harmless service flow call) flow calls)
    {resource : Resource} (own : onService service resource = true) :
    let purged := calls.filter fun call => onService service call.resource
    statesOf (run (apiStep arith) flow calls) resource =
        statesOf (run (apiStep arith) flow purged) resource ∧
      (∀ before foreign, calls = before ++ foreign →
        (∀ call ∈ foreign, onService service call.resource = false) →
        statesOf (run (apiStep arith) flow calls) resource =
          statesOf (run (apiStep arith) flow before) resource) ∧
      ∀ now loaded, (apiCheckResource now (run (apiStep arith) flow calls) loaded resource).2 =
        (apiCheckResource now (run (apiStep arith) flow purged) loaded resource).2 := by
  have agree : ∀ {calls : List ApiCall}, Along (apiStep arith) (fun flow call =>
      onService service call.resource = false → Harmless service flow call) flow calls →
      FlowsAgree service (run (apiStep arith) flow calls) (run (apiStep arith) flow
        (calls.filter fun call => onService service call.resource)) := by
    intro calls along
    exact run_purge (fun s t a h hown => flowsAgree_own arith s t a h hown)
      (fun s t a h hforeign hok => flowsAgree_foreign arith s t a h (hok hforeign))
      (.refl service flow) along
  refine ⟨(agree harmless).statesOf_eq own, fun before foreign hcalls hforeign => ?_,
    fun now loaded => apiCheckResource_answer_own now _ _ loaded (agree harmless) own⟩
  subst hcalls
  have hpurged : (before ++ foreign).filter (fun call => onService service call.resource) =
      before.filter fun call => onService service call.resource := by
    have hnone : foreign.filter (fun call => onService service call.resource) = [] := by
      rw [List.filter_eq_nil_iff]
      intro call hcall
      simp [hforeign call hcall]
    rw [List.filter_append, hnone, List.append_nil]
  have hbefore := agree (along_append.mp harmless).1
  have hwhole := agree harmless
  rw [hpurged] at hwhole
  exact (hwhole.statesOf_eq own).trans (hbefore.statesOf_eq own).symm

/-- A call for another service whose own rule list is empty closes an open breaker: an error
opens `orders`, `users` is checked, and `orders` passes ten nanoseconds later. -/
theorem foreign_check_closes :
    let orders : Resource := .serviceResource ⟨⟨"prod", "orders"⟩, none⟩
    let users : Resource := .serviceResource ⟨⟨"prod", "users"⟩, none⟩
    let error : ApiCall := ⟨10, orders, .report .retFail, .ok [oneErrorRule]⟩
    let foreign : ApiCall := ⟨15, users, .check, .ok []⟩
    let start : CircuitBreakerFlow := some CompositeCircuitBreaker.new
    (apiCheckResource 20 (run (apiStep .u32) start [error]) (.ok [oneErrorRule]) orders).2 =
        .ok ⟨false, "one-error", none⟩ ∧
      (apiCheckResource 20 (run (apiStep .u32) start [error, foreign]) (.ok [oneErrorRule])
        orders).2 = .ok ⟨true, "", none⟩ := by
  decide

theorem users_key_ne {resource : Resource}
    (own : onService ⟨"prod", "orders"⟩ resource = true) :
    resourceKey (.serviceResource ⟨⟨"prod", "users"⟩, none⟩) ≠ resourceKey resource := by
  intro h
  have hfirst : ∀ first rest : String, 14 ≤ first.toList.length →
      (first ++ rest).toList.take 14 = first.toList.take 14 := by
    intro first rest hlength
    rw [String.toList_append, List.take_append_of_le_length hlength]
  have hstart := congrArg (fun key => key.toList.take 14) h
  have hcallee : ∀ callee : ServiceKey, some callee = circuitBreakerRuleServiceKey resource →
      callee = ⟨"prod", "orders"⟩ := by
    intro callee heq
    simpa [onService, ← heq] using own
  cases resource with
  | serviceResource resource =>
      have hkey : resourceKey (.serviceResource resource) =
          "service#prod#orders#" ++ callerKey resource.caller := by
        unfold resourceKey
        simp only
        rw [hcallee resource.callee rfl]
        rfl
      rw [hkey, hfirst _ _ (by decide)] at hstart
      revert hstart
      decide
  | methodResource resource =>
      have hkey : resourceKey (.methodResource resource) = "method#prod#orders#" ++
          (callerKey resource.caller ++ "#" ++ resource.protocol ++ "#" ++ resource.method ++
            "#" ++ resource.path) := by
        unfold resourceKey
        simp only
        rw [hcallee resource.callee rfl]
        simp only [String.append_assoc]
        rfl
      rw [hkey, hfirst _ _ (by decide)] at hstart
      revert hstart
      decide
  | instanceResource =>
      simp [onService, circuitBreakerRuleServiceKey] at own

/-- With equal rule lists the check of `users` leaves `orders` open. -/
theorem isolated_run_users :
    let orders : Resource := .serviceResource ⟨⟨"prod", "orders"⟩, none⟩
    let users : Resource := .serviceResource ⟨⟨"prod", "users"⟩, none⟩
    let error : ApiCall := ⟨10, orders, .report .retFail, .ok [oneErrorRule]⟩
    let foreign : ApiCall := ⟨15, users, .check, .ok [oneErrorRule]⟩
    let start : CircuitBreakerFlow := some CompositeCircuitBreaker.new
    statesOf (run (apiStep .u32) start [error, foreign]) orders =
      statesOf (run (apiStep .u32) start [error]) orders := by
  intro orders users error foreign start
  have harmless : Along (apiStep .u32) (fun flow call =>
      onService ⟨"prod", "orders"⟩ call.resource = false →
        Harmless ⟨"prod", "orders"⟩ flow call) start [error, foreign] := by
    refine ⟨fun h => by simp [onService, error, orders, circuitBreakerRuleServiceKey] at h,
      fun _ _ => ⟨fun resource own => users_key_ne own, ?_⟩, trivial⟩
    intro rules breaker hloaded hflow _
    left
    have hrules : rules = [oneErrorRule] := by
      simpa [foreign, eq_comm] using hloaded
    have hinstalled : (apiStep .u32 start error).map (fun breaker => breaker.rules) =
        some [oneErrorRule] := by decide
    rw [hflow] at hinstalled
    simpa [hrules, eq_comm] using hinstalled
  exact (isolated_run .u32 ⟨"prod", "orders"⟩ start [error, foreign] harmless
    (by decide : onService ⟨"prod", "orders"⟩ orders = true)).1

end PoleClient.CircuitBreaker
