import PoleClient.CircuitBreaker.Isolation
import PoleClient.Core.Joined

/-! # The keys of resources

The states of a resource are kept under a text joined of its names. Reports on
one resource leave another alone exactly if the parts into which the separator
cuts their names differ.
-/

namespace PoleClient.CircuitBreaker

open Lib

/-! ## Names and keys -/

def callerNames (caller : Option ServiceKey) : List String :=
  (caller.map fun key => [key.namespaceName, key.name]).getD ["*"]

/-- The level of a resource and the names in it; a missing caller is a star. -/
def resourceNames : Resource → List String
  | .serviceResource resource =>
      ["service", resource.callee.namespaceName, resource.callee.name] ++
        callerNames resource.caller
  | .methodResource resource =>
      ["method", resource.callee.namespaceName, resource.callee.name] ++
        callerNames resource.caller ++ [resource.protocol, resource.method, resource.path]
  | .instanceResource => ["instance"]

theorem resourceKey_eq_join (resource : Resource) :
    resourceKey resource = Text.join '#' (resourceNames resource) := by
  have hsep : String.singleton '#' = "#" := rfl
  unfold resourceKey
  cases resource with
  | serviceResource resource =>
      cases hcaller : resource.caller with
      | none =>
          simp [resourceNames, callerKey, callerNames, serviceKey, hcaller,
            Text.join_cons_cons, Text.join_singleton, hsep, String.append_assoc]
      | some caller =>
          simp [resourceNames, callerKey, callerNames, serviceKey, hcaller,
            Text.join_cons_cons, Text.join_singleton, hsep, String.append_assoc]
  | methodResource resource =>
      cases hcaller : resource.caller with
      | none =>
          simp only [resourceNames, callerKey, callerNames, serviceKey, hcaller,
            Option.map_none, Option.getD_none, List.cons_append, List.nil_append,
            Text.join_cons_cons, Text.join_singleton, hsep, String.append_assoc]
          rfl
      | some caller =>
          simp [resourceNames, callerKey, callerNames, serviceKey, hcaller,
            Text.join_cons_cons, Text.join_singleton, hsep, String.append_assoc]
  | instanceResource => simp [resourceNames, Text.join_singleton]

theorem resourceNames_ne_nil (resource : Resource) : resourceNames resource ≠ [] := by
  cases resource with
  | serviceResource resource => exact List.cons_ne_nil _ _
  | methodResource resource => exact List.cons_ne_nil _ _
  | instanceResource => exact List.cons_ne_nil _ _

/-- Keys are the same exactly if the names are cut into the same parts. -/
theorem resourceKey_eq_iff (first second : Resource) :
    resourceKey first = resourceKey second ↔
      Text.cut '#' (resourceNames first) = Text.cut '#' (resourceNames second) := by
  rw [resourceKey_eq_join, resourceKey_eq_join]
  exact Text.join_eq_join_iff (resourceNames_ne_nil first) (resourceNames_ne_nil second)

theorem callerNames_injective {first second : Option ServiceKey}
    (h : callerNames first = callerNames second) : first = second := by
  cases first with
  | none =>
      cases second with
      | none => rfl
      | some key => simp [callerNames] at h
  | some key =>
      cases second with
      | none => simp [callerNames] at h
      | some other =>
          cases key
          cases other
          simpa [callerNames] using h

theorem resourceNames_injective {first second : Resource}
    (h : resourceNames first = resourceNames second) : first = second := by
  cases first with
  | serviceResource first =>
      cases second with
      | serviceResource second =>
          obtain ⟨⟨namespaceName, name⟩, caller⟩ := first
          obtain ⟨⟨otherNamespace, otherName⟩, otherCaller⟩ := second
          simp only [resourceNames, List.cons_append, List.nil_append, List.cons.injEq,
            true_and] at h
          obtain ⟨rfl, rfl, hcaller⟩ := h
          rw [callerNames_injective hcaller]
      | methodResource second => simp [resourceNames] at h
      | instanceResource => simp [resourceNames] at h
  | methodResource first =>
      cases second with
      | serviceResource second => simp [resourceNames] at h
      | methodResource second =>
          obtain ⟨⟨namespaceName, name⟩, caller, protocol, method, path⟩ := first
          obtain ⟨⟨otherNamespace, otherName⟩, otherCaller, otherProtocol, otherMethod,
            otherPath⟩ := second
          simp only [resourceNames, List.cons_append, List.nil_append, List.cons.injEq,
            true_and] at h
          obtain ⟨rfl, rfl, h⟩ := h
          obtain ⟨hcaller, hrest⟩ := List.append_inj' h rfl
          simp only [List.cons.injEq, and_true] at hrest
          obtain ⟨rfl, rfl, rfl⟩ := hrest
          rw [callerNames_injective hcaller]
      | instanceResource => simp [resourceNames] at h
  | instanceResource =>
      cases second with
      | serviceResource second => simp [resourceNames] at h
      | methodResource second => simp [resourceNames] at h
      | instanceResource => rfl

theorem resourceKey_ne_of_plain {first second : Resource} (differ : first ≠ second)
    (hfirst : ∀ name ∈ resourceNames first, '#' ∉ name.toList)
    (hsecond : ∀ name ∈ resourceNames second, '#' ∉ name.toList) :
    resourceKey first ≠ resourceKey second := by
  rw [ne_eq, resourceKey_eq_iff, Text.cut_of_plain hfirst, Text.cut_of_plain hsecond]
  intro h
  exact differ (resourceNames_injective
    (List.map_injective_iff.mpr (fun _ _ => String.toList_inj.mp) h))

/-! ## Reports on another resource -/

structure ResourceCall where
  resource : Resource
  call : Call

def ResourceCall.reportsOn (resource : Resource) (self : ResourceCall) : Bool :=
  decide (self.resource = resource) && decide (self.call.event ≠ .check)

def stepOn (arith : CounterArith) (breaker : CompositeCircuitBreaker) (call : ResourceCall) :
    CompositeCircuitBreaker :=
  breaker.step arith call.resource call.call

/-- With any fixed rule list, no history of reports and checks on any resources lets the reports on
the first resource change what a check on the second answers. -/
def LeavesAlone (first second : Resource) : Prop :=
  ∀ (arith : CounterArith) (rules : List CircuitBreakerRule) (calls : List ResourceCall)
    (now : Nat),
    ((run (stepOn arith) ⟨rules, fun _ => none⟩ calls).checkResource now second).2 =
      ((run (stepOn arith) ⟨rules, fun _ => none⟩
        (calls.filter fun call => !call.reportsOn first)).checkResource now second).2

/-- The answer of a check depends on the states under the key only. -/
theorem checkResource_answer_congr {breaker other : CompositeCircuitBreaker} {resource : Resource}
    (h : breaker.states (resourceKey resource) = other.states (resourceKey resource))
    (now : Nat) :
    (breaker.checkResource now resource).2 = (other.checkResource now resource).2 := by
  unfold CompositeCircuitBreaker.checkResource
  rw [h]
  cases other.states (resourceKey resource) with
  | none => rfl
  | some states => rfl

def AlikeAt (key : String) (breaker other : CompositeCircuitBreaker) : Prop :=
  breaker.rules = other.rules ∧ breaker.states key = other.states key

theorem alikeAt_stepOn {key : String} {breaker other : CompositeCircuitBreaker}
    (arith : CounterArith) (alike : AlikeAt key breaker other) (call : ResourceCall) :
    AlikeAt key (stepOn arith breaker call) (stepOn arith other call) := by
  unfold AlikeAt stepOn
  refine ⟨by simpa using alike.1, ?_⟩
  by_cases hkey : key = resourceKey call.resource
  · subst hkey
    exact CompositeCircuitBreaker.step_states_congr arith call.resource call.call alike.2 alike.1
  · rw [CompositeCircuitBreaker.step_states_of_ne arith call.resource call.call hkey,
      CompositeCircuitBreaker.step_states_of_ne arith call.resource call.call hkey]
    exact alike.2

theorem alikeAt_foreign {key : String} {breaker other : CompositeCircuitBreaker}
    (arith : CounterArith) (alike : AlikeAt key breaker other) {call : ResourceCall}
    (h : key ≠ resourceKey call.resource) : AlikeAt key (stepOn arith breaker call) other := by
  unfold AlikeAt stepOn
  rw [CompositeCircuitBreaker.step_states_of_ne arith call.resource call.call h]
  exact ⟨by simpa using alike.1, alike.2⟩

theorem leavesAlone_of_key_ne {first second : Resource}
    (h : resourceKey first ≠ resourceKey second) : LeavesAlone first second := by
  intro arith rules calls now
  apply checkResource_answer_congr
  have hstart : AlikeAt (resourceKey second) ⟨rules, fun _ => none⟩ ⟨rules, fun _ => none⟩ :=
    ⟨rfl, rfl⟩
  have hforeign : ∀ (breaker other : CompositeCircuitBreaker) (call : ResourceCall),
      AlikeAt (resourceKey second) breaker other → (!call.reportsOn first) = false → True →
      AlikeAt (resourceKey second) (stepOn arith breaker call) other := by
    intro breaker other call alike hreport _
    have hresource : call.resource = first := by
      simp only [ResourceCall.reportsOn, Bool.not_eq_false', Bool.and_eq_true,
        decide_eq_true_eq] at hreport
      exact hreport.1
    exact alikeAt_foreign arith alike (hresource.symm ▸ h.symm)
  have halong : Along (stepOn arith) (fun _ _ => True) ⟨rules, fun _ => none⟩ calls :=
    along_of_forall fun _ _ _ => trivial
  have halike := run_purge (fun _ _ call alike _ => alikeAt_stepOn arith alike call) hforeign
    hstart halong
  exact halike.2

/-- Resources with one key share their states: an error on the first opens the second. -/
theorem not_leavesAlone_of_key_eq {first second : Resource}
    (h : resourceKey first = resourceKey second) : ¬ LeavesAlone first second := by
  intro hleaves
  have hanswer := hleaves .u32 [oneErrorRule] [⟨first, ⟨0, .report .retFail⟩⟩] 0
  have hpurged : [(⟨first, ⟨0, .report .retFail⟩⟩ : ResourceCall)].filter
      (fun call => !call.reportsOn first) = [] := by
    simp [ResourceCall.reportsOn]
  have happlicable : applicableRules first [oneErrorRule] = [oneErrorRule] := rfl
  have hstates : (run (stepOn .u32) ⟨[oneErrorRule], fun _ => none⟩
      [⟨first, ⟨0, .report .retFail⟩⟩]).states (resourceKey second) =
        some [((RuleState.new oneErrorRule).reportStatus .u32 0 .retFail)] := by
    rw [← h]
    simp only [run_cons, run_nil, stepOn, CompositeCircuitBreaker.step,
      CompositeCircuitBreaker.reportStat, CompositeCircuitBreaker.statesForResource, happlicable]
    rw [Function.update_self]
    rfl
  have hopened : ((run (stepOn .u32) ⟨[oneErrorRule], fun _ => none⟩
      [⟨first, ⟨0, .report .retFail⟩⟩]).checkResource 0 second).2 =
        { circuitBreaker := "one-error", status := .opened } := by
    unfold CompositeCircuitBreaker.checkResource
    rw [hstates]
    rfl
  have hclosed : ((run (stepOn .u32) ⟨[oneErrorRule], fun _ => none⟩ []).checkResource 0
      second).2 = { circuitBreaker := "", status := .close } := rfl
  rw [hpurged, hopened, hclosed] at hanswer
  exact absurd hanswer (by decide)

theorem leavesAlone_of_plain {first second : Resource} (differ : first ≠ second)
    (hfirst : ∀ name ∈ resourceNames first, '#' ∉ name.toList)
    (hsecond : ∀ name ∈ resourceNames second, '#' ∉ name.toList) : LeavesAlone first second :=
  leavesAlone_of_key_ne (resourceKey_ne_of_plain differ hfirst hsecond)

/-- Reports on one resource leave another alone, and the keys of the two differ, exactly if the
parts into which the separator cuts their names do. -/
theorem leavesAlone_iff (first second : Resource) :
    (LeavesAlone first second ↔
      Text.cut '#' (resourceNames first) ≠ Text.cut '#' (resourceNames second)) ∧
    (resourceKey first ≠ resourceKey second ↔
      Text.cut '#' (resourceNames first) ≠ Text.cut '#' (resourceNames second)) := by
  have hkey : resourceKey first ≠ resourceKey second ↔
      Text.cut '#' (resourceNames first) ≠ Text.cut '#' (resourceNames second) :=
    not_congr (resourceKey_eq_iff first second)
  refine ⟨?_, hkey⟩
  rw [← hkey]
  constructor
  · exact fun hleaves h => not_leavesAlone_of_key_eq h hleaves
  · exact leavesAlone_of_key_ne

/-- Two services whose names put the separator in different places. -/
theorem shared_key :
    let first : Resource := .serviceResource ⟨⟨"prod#eu", "orders"⟩, none⟩
    let second : Resource := .serviceResource ⟨⟨"prod", "eu#orders"⟩, none⟩
    first ≠ second ∧ resourceKey first = resourceKey second ∧ ¬ LeavesAlone first second := by
  intro first second
  have hkey : resourceKey first = resourceKey second := by decide
  exact ⟨by decide, hkey, not_leavesAlone_of_key_eq hkey⟩

end PoleClient.CircuitBreaker
