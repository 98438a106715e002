import PoleClient.CircuitBreaker.Isolation

/-! # The invoke handler

A handler asks the breaker of its callee for permission before a call and
reports the outcome after it, on the service and, for a call with a path, on the
method. A failed call is reported as `retUnknown`, and the breaker does not count
that status as an error: it clears the consecutive errors instead.
-/

namespace PoleClient.CircuitBreaker

open Lib

variable {ν ε : Type}

/-! ## Calls and their outcomes -/

structure CallAbortedError where
  ruleName : String
  fallbackInfo : Option FallbackInfo
deriving DecidableEq, Repr

variable (ε) in
/-- The error of a call; its dynamic type tells whether the breaker aborted the call. -/
inductive CallError where
  | aborted (error : CallAbortedError)
  | other (error : ε)

variable (ν ε) in
structure ResultToErrorCode where
  onSuccess : ν → Int
  onError : CallError ε → Int

variable (ν ε) in
structure RequestContext where
  callerService : ServiceKey
  calleeService : ServiceKey
  protocol : String
  method : String
  path : String
  resultToCode : Option (ResultToErrorCode ν ε)

variable (ν ε) in
structure ResponseContext where
  duration : Nat
  result : Option ν
  error : Option (CallError ε)

structure ResourceStat where
  resource : Resource
  retCode : String
  delay : Nat
  status : RetStatus
deriving DecidableEq, Repr

/-- The breaker reads the resource and the status of a stat. -/
def CircuitBreakerFlow.report (arith : CounterArith) (now : Nat) (flow : CircuitBreakerFlow)
    (stat : ResourceStat) : CircuitBreakerFlow :=
  flow.reportStat arith now stat.resource stat.status

/-! ## The handler -/

variable (ν ε) in
structure InvokeHandler where
  reqCtx : RequestContext ν ε
  refreshesRules : Bool

/-- What one call of the handler reads: the clock at its report on the service and at its
report on the method, and the rules that a refresh loads. -/
structure CallReads where
  now : Nat
  methodNow : Nat
  loaded : LoadedRules

namespace InvokeHandler

def serviceResource (self : InvokeHandler ν ε) : Resource :=
  .serviceResource ⟨self.reqCtx.calleeService, some self.reqCtx.callerService⟩

def methodResource (self : InvokeHandler ν ε) : Resource :=
  .methodResource ⟨self.reqCtx.calleeService, some self.reqCtx.callerService,
    self.reqCtx.protocol, self.reqCtx.method, self.reqCtx.path⟩

def refreshInvokeServiceRules (self : InvokeHandler ν ε) (flow : CircuitBreakerFlow)
    (loaded : LoadedRules) : Except PoleError CircuitBreakerFlow :=
  if self.refreshesRules then refreshRulesForResource flow loaded self.serviceResource
  else .ok flow

/-- A failed refresh is logged, and the check is made with the rules that are there. -/
def acquirePermission (self : InvokeHandler ν ε) (flow : CircuitBreakerFlow)
    (reads : CallReads) : CircuitBreakerFlow × Except CallAbortedError Unit :=
  let refreshed :=
    match self.refreshInvokeServiceRules flow reads.loaded with
    | .error _ => flow
    | .ok refreshed => refreshed
  let (flow, ret) := refreshed.checkResource reads.now self.serviceResource
  (flow, if ret.pass then .ok () else .error ⟨ret.ruleName, ret.fallbackInfo⟩)

def commonReport (arith : CounterArith) (self : InvokeHandler ν ε) (flow : CircuitBreakerFlow)
    (reads : CallReads) (cost : Nat) (code : Int) (status : RetStatus) :
    CircuitBreakerFlow × Except PoleError Unit :=
  match self.refreshInvokeServiceRules flow reads.loaded with
  | .error err => (flow, .error err)
  | .ok flow =>
      let flow := flow.report arith reads.now
        ⟨self.serviceResource, toString code, cost, status⟩
      if self.reqCtx.path.isEmpty then (flow, .ok ())
      else
        (flow.report arith reads.methodNow
          ⟨self.methodResource, toString code, cost, status⟩, .ok ())

/-- `none` is the panic on a missing result that is to be turned into a code. -/
def onSuccess (arith : CounterArith) (self : InvokeHandler ν ε) (flow : CircuitBreakerFlow)
    (reads : CallReads) (rsp : ResponseContext ν ε) :
    Option (CircuitBreakerFlow × Except PoleError Unit) :=
  let code :=
    match self.reqCtx.resultToCode with
    | some r => rsp.result.map r.onSuccess
    | none => some (-1)
  let status :=
    match rsp.error with
    | some (.aborted _) => RetStatus.retReject
    | _ => RetStatus.retSuccess
  code.map fun code => self.commonReport arith flow reads rsp.duration code status

def onError (arith : CounterArith) (self : InvokeHandler ν ε) (flow : CircuitBreakerFlow)
    (reads : CallReads) (rsp : ResponseContext ν ε) :
    CircuitBreakerFlow × Except PoleError Unit :=
  let code :=
    match self.reqCtx.resultToCode, rsp.error with
    | some r, some err => r.onError err
    | _, _ => 0
  self.commonReport arith flow reads rsp.duration code .retUnknown

end InvokeHandler

/-! ## Runs -/

variable (ν ε) in
/-- A call of the handler, or any other call of the API. -/
inductive InvokeAction where
  | acquirePermission (reads : CallReads)
  | onSuccess (reads : CallReads) (rsp : ResponseContext ν ε)
  | onError (reads : CallReads) (rsp : ResponseContext ν ε)
  | api (call : ApiCall)

namespace InvokeHandler

def step (arith : CounterArith) (self : InvokeHandler ν ε) (flow : CircuitBreakerFlow) :
    InvokeAction ν ε → CircuitBreakerFlow
  | .acquirePermission reads => (self.acquirePermission flow reads).1
  | .onSuccess reads rsp =>
      match self.onSuccess arith flow reads rsp with
      | none => flow
      | some reported => reported.1
  | .onError reads rsp => (self.onError arith flow reads rsp).1
  | .api call => apiStep arith flow call

def breakerStatus (self : InvokeHandler ν ε) (flow : CircuitBreakerFlow) (now : Nat) : Status :=
  match flow with
  | none => .close
  | some breaker => (breaker.checkResource now self.serviceResource).2.status

/-- The action is not a report on the handler's service, except by `on_error`. -/
def OnlyFailures (self : InvokeHandler ν ε) : InvokeAction ν ε → Prop
  | .acquirePermission _ => True
  | .onSuccess _ _ => False
  | .onError _ _ => True
  | .api call => call.event = .check ∨
      resourceKey call.resource ≠ resourceKey self.serviceResource

end InvokeHandler

/-! ## Resting states -/

namespace RuleState

def Resting (state : RuleState) : Prop :=
  state.status ≠ .opened ∧ state.status ≠ .halfOpen

theorem resting_new (rule : CircuitBreakerRule) : (RuleState.new rule).Resting := by
  constructor <;> simp [RuleState.new]

theorem refreshStatus_of_resting {state : RuleState} (h : state.Resting) (now : Nat) :
    state.refreshStatus now = state :=
  refreshStatus_of_ne now h.1

theorem shouldOpen_countReport (arith : CounterArith) (state : RuleState) {retStatus : RetStatus}
    (noError : isErrorStatus retStatus = false) :
    (state.countReport arith retStatus).shouldOpen = false := by
  unfold shouldOpen countReport
  simp only [noError, Bool.and_eq_false_iff, List.any_eq_false]
  right
  intro trigger _
  simp
  omega

theorem resting_report (arith : CounterArith) {state : RuleState} (h : state.Resting) (now : Nat)
    {retStatus : RetStatus} (noError : isErrorStatus retStatus = false) :
    (state.reportStatus arith now retStatus).Resting := by
  unfold reportStatus
  rw [refreshStatus_of_resting h]
  simp only [h.1, h.2, if_false]
  unfold reportClosed
  simp only [shouldOpen_countReport arith state noError]
  exact h

end RuleState

theorem checkStates_of_resting (now : Nat) {states : List RuleState}
    (h : ∀ state ∈ states, state.Resting) :
    CompositeCircuitBreaker.checkStates now none states =
      (states, { circuitBreaker := "", status := .close }) := by
  induction states with
  | nil => rfl
  | cons state states ih =>
      have hstate := h state List.mem_cons_self
      have hrest := ih fun other hother => h other (List.mem_cons_of_mem state hother)
      rw [checkStates_cons, RuleState.refreshStatus_of_resting hstate, if_neg hstate.1]
      simp only [hstate.2, decide_false, Bool.false_and, Bool.false_eq_true, if_false, hrest]

theorem resting_of_checkStates {now : Nat} {states : List RuleState}
    (h : (CompositeCircuitBreaker.checkStates now none states).2.status = .close) :
    ∀ state ∈ states, state.Resting := by
  rw [checkStates_answer] at h
  have hentries : ∀ entry ∈ refreshedStatuses now states,
      entry.2 ≠ .opened ∧ entry.2 ≠ .halfOpen := by
    simp only [Option.map_none, Option.toList_none, List.nil_append] at h
    unfold combinedAnswer at h
    split at h
    · cases h
    · rename_i hopened
      split at h
      · cases h
      · rename_i hhalf
        intro entry hentry
        constructor
        · simpa using List.find?_eq_none.mp hopened entry hentry
        · simpa using List.find?_eq_none.mp hhalf entry hentry
  intro state hstate
  have hrefreshed := hentries _ (List.mem_map.mpr ⟨state, hstate, rfl⟩)
  have hclosed : state.status ≠ .opened := by
    intro hopened
    unfold RuleState.refreshStatus at hrefreshed
    rw [if_neg (by simp [hopened])] at hrefreshed
    split at hrefreshed
    · split at hrefreshed
      · exact hrefreshed.2 rfl
      · exact hrefreshed.1 hopened
    · exact hrefreshed.1 hopened
  constructor
  · exact hclosed
  · rw [RuleState.refreshStatus_of_ne now hclosed] at hrefreshed
    exact hrefreshed.2

/-! ## Steps on resting breakers -/

def FlowRests (key : String) (flow : CircuitBreakerFlow) : Prop :=
  ∀ breaker states, flow = some breaker → breaker.states key = some states →
    ∀ state ∈ states, state.Resting

section Steps

variable {key : String} {flow : CircuitBreakerFlow}

theorem flowRests_map {f : CompositeCircuitBreaker → CompositeCircuitBreaker}
    (h : ∀ breaker after, flow = some breaker → (f breaker).states key = some after →
      ∀ state ∈ after, state.Resting) : FlowRests key (flow.map f) := by
  intro breaker states hflow
  obtain ⟨before, hbefore, rfl⟩ := Option.map_eq_some_iff.mp hflow
  exact h before states hbefore

theorem flowRests_updateRules (rests : FlowRests key flow) (rules : List CircuitBreakerRule) :
    FlowRests key (flow.updateRules rules) := by
  apply flowRests_map
  intro breaker after hflow hafter
  unfold CompositeCircuitBreaker.updateRules at hafter
  split at hafter
  · exact rests breaker after hflow hafter
  · cases hafter

theorem flowRests_refresh (rests : FlowRests key flow) (loaded : LoadedRules)
    (resource : Resource) {refreshed : CircuitBreakerFlow}
    (h : refreshRulesForResource flow loaded resource = .ok refreshed) :
    FlowRests key refreshed := by
  unfold refreshRulesForResource at h
  split at h
  · cases h
    exact rests
  · split at h
    · cases h
    · cases h
      exact flowRests_updateRules rests _

theorem flowRests_reportStat (arith : CounterArith) (rests : FlowRests key flow) (now : Nat)
    (resource : Resource) (retStatus : RetStatus)
    (quiet : isErrorStatus retStatus = false ∨ resourceKey resource ≠ key) :
    FlowRests key (flow.reportStat arith now resource retStatus) := by
  apply flowRests_map
  intro breaker after hflow hafter
  by_cases hkey : key = resourceKey resource
  · have hquiet : isErrorStatus retStatus = false :=
      quiet.resolve_right fun hne => hne hkey.symm
    simp only [CompositeCircuitBreaker.reportStat, hkey, Function.update_self] at hafter
    cases hafter
    have hbefore : ∀ state ∈ breaker.statesForResource resource, state.Resting := by
      intro state hstate
      unfold CompositeCircuitBreaker.statesForResource at hstate
      cases hstates : breaker.states (resourceKey resource) with
      | none =>
          rw [hstates, Option.getD_none] at hstate
          obtain ⟨rule, -, rfl⟩ := List.mem_map.mp hstate
          exact RuleState.resting_new rule
      | some states =>
          rw [hstates, Option.getD_some] at hstate
          exact rests breaker states hflow (hkey ▸ hstates) state hstate
    intro state hstate
    obtain ⟨before, hmem, rfl⟩ := List.mem_map.mp hstate
    exact RuleState.resting_report arith (hbefore before hmem) now hquiet
  · rw [CompositeCircuitBreaker.reportStat_states_of_ne arith now resource retStatus hkey] at hafter
    exact rests breaker after hflow hafter

theorem flowRests_checkBreaker {breaker : CompositeCircuitBreaker}
    (rests : FlowRests key (some breaker)) (now : Nat) (resource : Resource) :
    FlowRests key (some (breaker.checkResource now resource).1) := by
  intro other after heq hafter
  cases heq
  by_cases hkey : key = resourceKey resource
  · unfold CompositeCircuitBreaker.checkResource at hafter
    cases hstates : breaker.states (resourceKey resource) with
    | none =>
        simp only [hstates] at hafter
        exact rests breaker after rfl hafter
    | some states =>
        have hresting := rests breaker states rfl (hkey ▸ hstates)
        simp only [hstates, checkStates_of_resting now hresting, hkey,
          Function.update_self] at hafter
        cases hafter
        exact hresting
  · rw [CompositeCircuitBreaker.checkResource_states_of_ne now resource hkey] at hafter
    exact rests breaker after rfl hafter

theorem flowRests_checkResource (rests : FlowRests key flow) (now : Nat) (resource : Resource) :
    FlowRests key (flow.checkResource now resource).1 := by
  cases flow with
  | none => exact rests
  | some breaker => exact flowRests_checkBreaker rests now resource

theorem flowRests_apiStep (arith : CounterArith) (rests : FlowRests key flow) (call : ApiCall)
    (quiet : call.event = .check ∨ resourceKey call.resource ≠ key) :
    FlowRests key (apiStep arith flow call) := by
  unfold apiStep
  cases hevent : call.event with
  | report retStatus =>
      have hkey : resourceKey call.resource ≠ key :=
        quiet.resolve_left (by simp [hevent])
      simp only [apiReportStat]
      split
      · exact rests
      · rename_i refreshed hrefresh
        exact flowRests_reportStat arith (flowRests_refresh rests _ _ hrefresh) call.now _ _
          (.inr hkey)
  | check =>
      simp only [apiCheckResource]
      split
      · exact rests
      · rename_i refreshed hrefresh
        exact flowRests_checkResource (flowRests_refresh rests _ _ hrefresh) call.now _

end Steps

/-! ## Steps of the handler -/

namespace InvokeHandler

variable {self : InvokeHandler ν ε} {flow : CircuitBreakerFlow}

def Rests (self : InvokeHandler ν ε) (flow : CircuitBreakerFlow) : Prop :=
  FlowRests (resourceKey self.serviceResource) flow

theorem rests_refresh (rests : self.Rests flow) (loaded : LoadedRules)
    {refreshed : CircuitBreakerFlow}
    (h : self.refreshInvokeServiceRules flow loaded = .ok refreshed) : self.Rests refreshed := by
  unfold refreshInvokeServiceRules at h
  split at h
  · exact flowRests_refresh rests loaded self.serviceResource h
  · cases h
    exact rests

theorem rests_commonReport (arith : CounterArith) (rests : self.Rests flow) (reads : CallReads)
    (cost : Nat) (code : Int) {status : RetStatus} (noError : isErrorStatus status = false) :
    self.Rests (self.commonReport arith flow reads cost code status).1 := by
  unfold commonReport
  split
  · exact rests
  · rename_i refreshed hrefresh
    have hservice := flowRests_reportStat arith (rests_refresh rests reads.loaded hrefresh)
      reads.now self.serviceResource status (.inl noError)
    split
    · exact hservice
    · exact flowRests_reportStat arith hservice reads.methodNow self.methodResource status
        (.inl noError)

theorem rests_acquirePermission (rests : self.Rests flow) (reads : CallReads) :
    self.Rests (self.acquirePermission flow reads).1 := by
  unfold acquirePermission
  cases hrefresh : self.refreshInvokeServiceRules flow reads.loaded with
  | error err => exact flowRests_checkResource rests reads.now self.serviceResource
  | ok refreshed =>
      exact flowRests_checkResource (rests_refresh rests reads.loaded hrefresh) reads.now
        self.serviceResource

theorem rests_step (arith : CounterArith) (rests : self.Rests flow) (action : InvokeAction ν ε)
    (only : self.OnlyFailures action) : self.Rests (self.step arith flow action) := by
  cases action with
  | acquirePermission reads => exact rests_acquirePermission rests reads
  | onSuccess reads rsp => exact absurd only id
  | onError reads rsp => exact rests_commonReport arith rests reads rsp.duration _ rfl
  | api call => exact flowRests_apiStep arith rests call only

theorem rests_iff (now : Nat) : self.Rests flow ↔ self.breakerStatus flow now = .close := by
  cases flow with
  | none => exact ⟨fun _ => rfl, fun _ _ _ h => nomatch h⟩
  | some breaker =>
      cases hstates : breaker.states (resourceKey self.serviceResource) with
      | none =>
          constructor
          · intro _
            simp only [breakerStatus, CompositeCircuitBreaker.checkResource, hstates]
          · intro _ other states heq hsome
            cases heq
            cases hstates.symm.trans hsome
      | some states =>
          simp only [breakerStatus, CompositeCircuitBreaker.checkResource, hstates]
          constructor
          · intro hrests
            simp only [checkStates_of_resting now (hrests breaker states rfl hstates)]
          · intro hclose other after heq hsome
            cases heq
            cases hstates.symm.trans hsome
            exact resting_of_checkStates hclose

theorem acquirePermission_of_rests (rests : self.Rests flow) (reads : CallReads) :
    (self.acquirePermission flow reads).2 = .ok () := by
  have hpass : ∀ {refreshed : CircuitBreakerFlow}, self.Rests refreshed →
      (refreshed.checkResource reads.now self.serviceResource).2.pass = true := by
    intro refreshed hrests
    cases refreshed with
    | none => rfl
    | some breaker =>
        have hstatus := (rests_iff reads.now).mp hrests
        simp only [breakerStatus] at hstatus
        simp [CircuitBreakerFlow.checkResource, convertFromStatus, hstatus]
  unfold acquirePermission
  cases hrefresh : self.refreshInvokeServiceRules flow reads.loaded with
  | error err => simp only [hpass rests, if_true]
  | ok refreshed => simp only [hpass (rests_refresh rests reads.loaded hrefresh), if_true]

/-! ## Failed calls never open the breaker -/

/-- However many calls fail, the breaker of a service that was closed stays closed at every point
of the run, and the handler gets its permission. -/
theorem failures_keep_closed (arith : CounterArith) (self : InvokeHandler ν ε)
    (flow : CircuitBreakerFlow) (now : Nat) (actions : List (InvokeAction ν ε))
    (closed : self.breakerStatus flow now = .close)
    (only : ∀ action ∈ actions, self.OnlyFailures action) (done : List (InvokeAction ν ε))
    (part : done <+: actions) :
    (∀ later, self.breakerStatus (run (self.step arith) flow done) later = .close) ∧
      ∀ reads, (self.acquirePermission (run (self.step arith) flow done) reads).2 = .ok () := by
  have hrests : self.Rests (run (self.step arith) flow done) := by
    have honly : Along (self.step arith) (fun _ action => self.OnlyFailures action) flow done :=
      along_of_forall fun action hmem _ => only action (part.subset hmem)
    exact @run_invariant _ _ (self.step arith) _ self.Rests
      (fun s action inv ok => rests_step arith inv action ok) flow done
      ((rests_iff now).mpr closed) honly
  constructor
  · exact fun later => (rests_iff later).mp hrests
  · exact acquirePermission_of_rests hrests

def ordersHandler : InvokeHandler Unit Unit where
  reqCtx := ⟨⟨"prod", "web"⟩, ⟨"prod", "orders"⟩, "http", "GET", "/orders", none⟩
  refreshesRules := true

def oneErrorReads (now : Nat) : CallReads := ⟨now, now, .ok [oneErrorRule]⟩

def failedCall : ResponseContext Unit Unit := ⟨1000, none, some (.other ())⟩

/-- Three failed calls with a rule that is to open at the first error. -/
theorem three_failures_keep_closed :
    let actions : List (InvokeAction Unit Unit) :=
      [10, 20, 30].map fun now => .onError (oneErrorReads now) failedCall
    (∀ later, ordersHandler.breakerStatus
        (run (ordersHandler.step .u32) (some .new) actions) later = .close) ∧
      ∀ reads, (ordersHandler.acquirePermission
        (run (ordersHandler.step .u32) (some .new) actions) reads).2 = .ok () := by
  intro actions
  have only : ∀ action ∈ actions, ordersHandler.OnlyFailures action := by
    intro action hmem
    obtain ⟨now, -, rfl⟩ := List.mem_map.mp hmem
    trivial
  exact failures_keep_closed .u32 ordersHandler (some .new) 0 actions rfl only actions
    (List.prefix_refl actions)

/-- The rule applies and is to open at the first error, and the failed call leaves the breaker
closed. -/
theorem failure_does_not_trip :
    let flow := run (ordersHandler.step .u32) (some .new)
      [.onError (oneErrorReads 10) failedCall]
    applicableRules ordersHandler.serviceResource [oneErrorRule] = [oneErrorRule] ∧
      triggerConditions oneErrorRule = [⟨.consecutiveError, 1, 1⟩] ∧
      ordersHandler.breakerStatus flow 20 = .close ∧
      (ordersHandler.acquirePermission flow (oneErrorReads 20)).2 = .ok () := by
  decide

end InvokeHandler

end PoleClient.CircuitBreaker
