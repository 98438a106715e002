import PoleClient.CircuitBreaker.Invoke

/-! # Permission and the reported resources

The handler reports on the service and, for a call with a path, on the method;
for permission it asks the service alone. So an open method breaker rejects
nothing unless the service's breaker is open too.
-/

namespace PoleClient.CircuitBreaker

open Lib

variable {ν ε : Type}

/-! ## Open resources -/

/-- A rule state of the resource is open, and its sleep window has not elapsed. -/
def OpenAt (flow : CircuitBreakerFlow) (now : Nat) (resource : Resource) : Prop :=
  ∃ breaker states, flow = some breaker ∧ breaker.states (resourceKey resource) = some states ∧
    ∃ state ∈ states, state.status = .opened ∧ ¬ state.Wakes now

theorem opened_refreshStatus_iff (state : RuleState) (now : Nat) :
    (state.refreshStatus now).status = .opened ↔
      state.status = .opened ∧ ¬ state.Wakes now := by
  by_cases hopened : state.status = .opened
  · by_cases hwakes : state.Wakes now
    · rw [RuleState.refreshStatus_of_wakes hopened hwakes]
      simp [hwakes]
    · rw [RuleState.refreshStatus_of_sleeps hwakes]
      simp [hwakes]
  · rw [RuleState.refreshStatus_of_ne now hopened]
    simp [hopened]

theorem checkStates_opened_iff (now : Nat) (states : List RuleState) :
    (CompositeCircuitBreaker.checkStates now none states).2.status = .opened ↔
      ∃ state ∈ states, state.status = .opened ∧ ¬ state.Wakes now := by
  rw [checkStates_answer]
  have hentries : (∃ entry ∈ refreshedStatuses now states, entry.2 = .opened) ↔
      ∃ state ∈ states, state.status = .opened ∧ ¬ state.Wakes now := by
    simp only [refreshedStatuses, List.mem_map, exists_exists_and_eq_and,
      opened_refreshStatus_iff]
  rw [← hentries]
  simp only [Option.map_none, Option.toList_none, List.nil_append]
  unfold combinedAnswer
  split
  · rename_i entry hfind
    have hopened : entry.2 = .opened := by simpa using List.find?_some hfind
    exact ⟨fun _ => ⟨entry, List.mem_of_find?_eq_some hfind, hopened⟩, fun _ => rfl⟩
  · rename_i hfind
    have hnone : ¬ ∃ entry ∈ refreshedStatuses now states, entry.2 = .opened := by
      rintro ⟨entry, hmem, hopened⟩
      exact absurd hopened (by simpa using List.find?_eq_none.mp hfind entry hmem)
    split
    · exact ⟨fun h => (by cases h), fun h => absurd h hnone⟩
    · exact ⟨fun h => (by cases h), fun h => absurd h hnone⟩

theorem not_pass_iff (flow : CircuitBreakerFlow) (now : Nat) (resource : Resource) :
    (flow.checkResource now resource).2.pass = false ↔ OpenAt flow now resource := by
  cases flow with
  | none =>
      constructor
      · intro h
        cases h
      · rintro ⟨breaker, -, h, -⟩
        cases h
  | some breaker =>
      have hpass : (CircuitBreakerFlow.checkResource now (some breaker) resource).2.pass = false ↔
          (breaker.checkResource now resource).2.status = .opened := by
        simp [CircuitBreakerFlow.checkResource, convertFromStatus]
      rw [hpass]
      unfold OpenAt CompositeCircuitBreaker.checkResource
      cases hstates : breaker.states (resourceKey resource) with
      | none =>
          constructor
          · intro h
            cases h
          · rintro ⟨other, states, heq, hsome, -⟩
            cases heq
            cases hstates.symm.trans hsome
      | some states =>
          refine (checkStates_opened_iff now states).trans ⟨?_, ?_⟩
          · exact fun h => ⟨breaker, states, rfl, hstates, h⟩
          · rintro ⟨other, others, heq, hsome, h⟩
            cases heq
            cases hstates.symm.trans hsome
            exact h

namespace InvokeHandler

variable {self : InvokeHandler ν ε} {flow : CircuitBreakerFlow}

/-! ## One call -/

def reportedResources (self : InvokeHandler ν ε) : List Resource :=
  if self.reqCtx.path.isEmpty then [self.serviceResource]
  else [self.serviceResource, self.methodResource]

/-- Permission is refused while some reported resource is open. -/
def Honours (self : InvokeHandler ν ε) (flow : CircuitBreakerFlow) (reads : CallReads) : Prop :=
  (∃ resource ∈ self.reportedResources, OpenAt flow reads.now resource) →
    ∃ error, (self.acquirePermission flow reads).2 = .error error

/-- The refresh before the check leaves the installed rule list, and so all states, as they are. -/
def KeepsRules (self : InvokeHandler ν ε) (flow : CircuitBreakerFlow) (reads : CallReads) : Prop :=
  self.refreshesRules = true → ∀ rules breaker, reads.loaded = .ok rules → flow = some breaker →
    breaker.rules = rules

def refreshed (self : InvokeHandler ν ε) (flow : CircuitBreakerFlow) (reads : CallReads) :
    CircuitBreakerFlow :=
  match self.refreshInvokeServiceRules flow reads.loaded with
  | .error _ => flow
  | .ok refreshed => refreshed

theorem refused_iff (reads : CallReads) :
    (∃ error, (self.acquirePermission flow reads).2 = .error error) ↔
      OpenAt (self.refreshed flow reads) reads.now self.serviceResource := by
  rw [← not_pass_iff]
  unfold acquirePermission refreshed
  simp only
  cases ((match self.refreshInvokeServiceRules flow reads.loaded with
    | .error _ => flow
    | .ok refreshed => refreshed).checkResource reads.now self.serviceResource).2.pass with
  | true => simp
  | false => simp

/-- After the refresh a resource is open that was open before, unless the rule list is replaced. -/
theorem openAt_refreshed_iff (reads : CallReads) (now : Nat) (resource : Resource) :
    OpenAt (self.refreshed flow reads) now resource ↔
      OpenAt flow now resource ∧ self.KeepsRules flow reads := by
  unfold KeepsRules refreshed refreshInvokeServiceRules
  by_cases hrefreshes : self.refreshesRules = true
  · simp only [hrefreshes, if_true, true_implies, refreshRulesForResource,
      circuitBreakerRuleServiceKey, serviceResource]
    cases hloaded : reads.loaded with
    | error err => simp
    | ok rules =>
        cases flow with
        | none =>
            constructor
            · rintro ⟨breaker, -, h, -⟩
              cases h
            · rintro ⟨⟨breaker, -, h, -⟩, -⟩
              cases h
        | some breaker =>
            simp only [CircuitBreakerFlow.updateRules, Option.map_some,
              CompositeCircuitBreaker.updateRules]
            by_cases hsame : breaker.rules = rules
            · rw [if_pos hsame]
              refine ⟨fun h => ⟨h, ?_⟩, fun h => h.1⟩
              intro others other hothers hother
              cases hothers
              cases hother
              exact hsame
            · rw [if_neg hsame]
              constructor
              · rintro ⟨other, states, heq, hsome, -⟩
                cases heq
                cases hsome
              · rintro ⟨-, hkeeps⟩
                exact absurd (hkeeps rules breaker rfl rfl) hsame
  · simp [hrefreshes]

/-- Whenever a reported resource is open, the service's own breaker is, and the refresh keeps it. -/
def Covered (self : InvokeHandler ν ε) (flow : CircuitBreakerFlow) (reads : CallReads) : Prop :=
  (∃ resource ∈ self.reportedResources, OpenAt flow reads.now resource) →
    OpenAt flow reads.now self.serviceResource ∧ self.KeepsRules flow reads

theorem honours_iff (reads : CallReads) : self.Honours flow reads ↔ self.Covered flow reads := by
  unfold Honours Covered
  rw [refused_iff, openAt_refreshed_iff]

/-- Without a path only the service is reported on, and a refresh that keeps the rules suffices. -/
theorem covered_of_no_path {reads : CallReads} (hpath : self.reqCtx.path = "")
    (keeps : self.KeepsRules flow reads) : self.Covered flow reads := by
  rintro ⟨resource, hmem, hopen⟩
  have hempty : self.reqCtx.path.isEmpty = true := by simp [hpath]
  rw [reportedResources, if_pos hempty] at hmem
  rw [List.mem_singleton.mp hmem] at hopen
  exact ⟨hopen, keeps⟩

/-! ## Runs -/

/-- The action is no request for permission, or a covered one. -/
def CoveredStep (self : InvokeHandler ν ε) (flow : CircuitBreakerFlow) :
    InvokeAction ν ε → Prop
  | .acquirePermission reads => self.Covered flow reads
  | .onSuccess _ _ => True
  | .onError _ _ => True
  | .api _ => True

/-- Along any run, every request for permission is refused while a reported resource is open,
exactly if at each request the service's breaker covers the open ones. -/
theorem honours_along_iff (arith : CounterArith) (self : InvokeHandler ν ε)
    (flow : CircuitBreakerFlow) (actions : List (InvokeAction ν ε)) :
    (∀ first reads, first ++ [.acquirePermission reads] <+: actions →
      self.Honours (run (self.step arith) flow first) reads) ↔
      Along (self.step arith) self.CoveredStep flow actions := by
  rw [along_iff]
  constructor
  · intro h first action hpart
    cases action with
    | acquirePermission reads => exact (honours_iff reads).mp (h first reads hpart)
    | onSuccess reads rsp => trivial
    | onError reads rsp => trivial
    | api call => trivial
  · intro h first reads hpart
    exact (honours_iff reads).mpr (h first (.acquirePermission reads) hpart)

/-- A failure reported on the method alone opens it, and the permission is given all the same. -/
theorem open_method_not_honoured :
    ¬ ∀ first reads,
      first ++ [.acquirePermission reads] <+:
        [.api ⟨10, ordersHandler.methodResource, .report .retFail, .ok [oneErrorRule]⟩,
          .acquirePermission (oneErrorReads 20)] →
      ordersHandler.Honours (run (ordersHandler.step .u32) (some .new) first) reads := by
  intro h
  have hhonours := h [.api ⟨10, ordersHandler.methodResource, .report .retFail,
    .ok [oneErrorRule]⟩] (oneErrorReads 20) (List.prefix_refl _)
  obtain ⟨error, herror⟩ := hhonours ⟨ordersHandler.methodResource, by decide, _, _, rfl, rfl,
    _, List.mem_singleton_self _, rfl, by
      rintro ⟨condition, openedAt, hcondition, hopened, helapsed⟩
      cases hcondition
      cases hopened
      exact absurd helapsed (by decide)⟩
  cases herror

end InvokeHandler

end PoleClient.CircuitBreaker
