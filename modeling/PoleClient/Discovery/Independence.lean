import PoleClient.Discovery.Instances

/-! # Instances that share one endpoint state

What an instance is answered is compared with what it is answered when no other
instance is managed. The endpoint state is described by the settings it has
had, and the two runs stay in step as long as no request is disturbed by the
settings for another instance.
-/

namespace PoleClient.Discovery

open Lib

/-! ## Independence -/

/-- The calls and requests for the instance; the action providers are set in any case. -/
def concerns (ins : BaseInstance) (move : InstanceMove) : Bool :=
  move.ins = ins || move.call = .setActionProvider

/-- Every instance gets the answers that it gets if no other instance is managed. -/
def Independent (moves : List InstanceMove) : Prop :=
  ∀ ins, answersTo ins .new moves = answersTo ins .new (moves.filter (concerns ins))

/-! ## What sets the endpoint state -/

inductive EndpointSetting where
  | planned (readinessEnabled offlineEnabled : Bool)
  | registered
  | offline
deriving DecidableEq, Repr

def EndpointSetting.apply (state : LosslessEndpointState) :
    EndpointSetting → LosslessEndpointState
  | planned readinessEnabled offlineEnabled => .new readinessEnabled offlineEnabled
  | registered => state.markRegistered
  | offline => state.markOffline

/-- How a call sets the endpoint state: a schedule, a registration (also one that was scheduled)
or a deregistration (also by a request that is served). -/
def endpointSetting (self : DefaultLosslessAPI) (move : InstanceMove) : Option EndpointSetting :=
  match move.call with
  | .setActionProvider => none
  | .losslessRegister => some .registered
  | .losslessDeregister => some .offline
  | .scheduleRegister rule =>
      some (.planned (LosslessExecutionPlan.fromRule rule).readinessEnabled
        (LosslessExecutionPlan.fromRule rule).offlineEnabled)
  | .wakeTask index answer => if self.taskDue move.ins index answer then some .registered else none
  | .request path =>
      if path = "/offline" && self.endpointState.offlineEnabled then some .offline else none

/-- The interface with the settings so far, the last one first. -/
structure RecordedAPI where
  api : DefaultLosslessAPI
  settings : List (BaseInstance × EndpointSetting)

namespace RecordedAPI

def start : RecordedAPI := ⟨.new, []⟩

def step (self : RecordedAPI) (move : InstanceMove) : RecordedAPI where
  api := instanceStep self.api move
  settings :=
    match endpointSetting self.api move with
    | none => self.settings
    | some setting => (move.ins, setting) :: self.settings

def allSettings (self : RecordedAPI) : List EndpointSetting :=
  self.settings.map Prod.snd

def settingsFor (self : RecordedAPI) (ins : BaseInstance) : List EndpointSetting :=
  (self.settings.filter fun setting => setting.1 = ins).map Prod.snd

end RecordedAPI

/-- The last plan enables readiness. -/
def plansReadiness : List EndpointSetting → Bool
  | [] => false
  | .planned readinessEnabled _ :: _ => readinessEnabled
  | _ :: settings => plansReadiness settings

def plansOffline : List EndpointSetting → Bool
  | [] => false
  | .planned _ offlineEnabled :: _ => offlineEnabled
  | _ :: settings => plansOffline settings

def lastRegisters : List EndpointSetting → Bool
  | .registered :: _ => true
  | _ => false

/-! ## The condition -/

/-- At a request the last settings of all instances and those for its own instance agree on what
the request is about: whether readiness or offline is enabled, and, where readiness is, whether
the last setting is a registration. -/
def RequestUndisturbed (self : RecordedAPI) (move : InstanceMove) : Prop :=
  ∀ path, move.call = .request path →
    (path = "/readiness" →
      plansReadiness self.allSettings = plansReadiness (self.settingsFor move.ins) ∧
        (plansReadiness (self.settingsFor move.ins) = true →
          lastRegisters self.allSettings = lastRegisters (self.settingsFor move.ins))) ∧
    (path = "/offline" →
      plansOffline self.allSettings = plansOffline (self.settingsFor move.ins))

/-! ## The endpoint state by its settings -/

structure Describes (settings : List EndpointSetting) (state : LosslessEndpointState) : Prop where
  readiness : state.readinessEnabled = plansReadiness settings
  offline : state.offlineEnabled = plansOffline settings
  ready : state.readinessEnabled = true →
    (state.registered && !state.offline) = lastRegisters settings

theorem describes_apply {settings : List EndpointSetting} {state : LosslessEndpointState}
    (h : Describes settings state) (setting : EndpointSetting) :
    Describes (setting :: settings) (setting.apply state) := by
  cases setting with
  | planned readinessEnabled offlineEnabled =>
      refine ⟨rfl, rfl, fun hready => ?_⟩
      have henabled : readinessEnabled = true := hready
      simp [EndpointSetting.apply, LosslessEndpointState.new, lastRegisters, henabled]
  | registered => exact ⟨h.readiness, h.offline, fun _ => rfl⟩
  | offline => exact ⟨h.readiness, h.offline, fun _ => rfl⟩

theorem readinessResponse_eq_iff {first second : List EndpointSetting}
    {state other : LosslessEndpointState} (hfirst : Describes first state)
    (hsecond : Describes second other) :
    state.readinessResponse = other.readinessResponse ↔
      plansReadiness first = plansReadiness second ∧
        (plansReadiness second = true → lastRegisters first = lastRegisters second) := by
  have hready : ∀ {settings : List EndpointSetting} {state : LosslessEndpointState},
      Describes settings state → state.readinessResponse =
        if !plansReadiness settings then ⟨404, "readiness disabled"⟩
        else if lastRegisters settings then ready
        else notReady := by
    intro settings state h
    unfold LosslessEndpointState.readinessResponse
    rw [← h.readiness]
    cases henabled : state.readinessEnabled with
    | false => rfl
    | true => rw [h.ready henabled]
  rw [hready hfirst, hready hsecond]
  cases plansReadiness first <;> cases plansReadiness second <;> cases lastRegisters first <;>
    cases lastRegisters second <;> decide

theorem offlineResponse_eq_iff {first second : List EndpointSetting}
    {state other : LosslessEndpointState} (hfirst : Describes first state)
    (hsecond : Describes second other) :
    state.offlineResponse.1 = other.offlineResponse.1 ↔
      plansOffline first = plansOffline second := by
  unfold LosslessEndpointState.offlineResponse
  rw [hfirst.offline, hsecond.offline]
  cases plansOffline first <;> cases plansOffline second <;> simp

/-! ## Single calls -/

theorem instanceStep_endpointState (self : DefaultLosslessAPI) (move : InstanceMove) :
    (instanceStep self move).endpointState =
      match endpointSetting self move with
      | none => self.endpointState
      | some setting => setting.apply self.endpointState := by
  obtain ⟨ins, call⟩ := move
  cases call with
  | setActionProvider => rfl
  | losslessRegister => rfl
  | losslessDeregister => rfl
  | scheduleRegister rule => rfl
  | wakeTask index answer =>
      simp only [instanceStep, instanceOutcome, DefaultLosslessAPI.wakeTask, endpointSetting]
      split <;> rfl
  | request path =>
      simp only [instanceStep, instanceOutcome, endpointSetting]
      by_cases hserved : path = "/offline" ∧ self.endpointState.offlineEnabled = true
      · obtain ⟨rfl, henabled⟩ := hserved
        rw [DefaultLosslessAPI.handleEndpointPath_served henabled, henabled]
        rfl
      · rw [DefaultLosslessAPI.handleEndpointPath_unserved (by simpa using hserved)]
        simp [hserved]

/-- A request gets one answer, and no other call gets any. -/
theorem answers_outcome (self : DefaultLosslessAPI) (move : InstanceMove) :
    (instanceOutcome self move).2.filterMap answerOf =
      match move.call with
      | .request path => [(self.endpointState.handlePath path).1]
      | _ => [] := by
  have haction : ∀ (api : DefaultLosslessAPI) (ins : BaseInstance) (event : LosslessEvent),
      answerOf event = none → (api.callAction ins event).filterMap answerOf = [] := by
    intro api ins event hevent
    unfold DefaultLosslessAPI.callAction
    split
    · rw [List.filterMap_cons_none hevent, List.filterMap_nil]
    · rfl
  obtain ⟨ins, call⟩ := move
  cases call with
  | setActionProvider => rfl
  | losslessRegister => exact haction self ins .doRegister rfl
  | losslessDeregister =>
      simp only [instanceOutcome, DefaultLosslessAPI.losslessDeregister]
      rw [List.filterMap_append, haction self ins .doDeregister rfl]
      rfl
  | scheduleRegister rule => rfl
  | wakeTask index answer =>
      simp only [instanceOutcome, DefaultLosslessAPI.wakeTask]
      split
      · exact haction self ins .doRegister rfl
      · rfl
  | request path =>
      simp only [instanceOutcome]
      by_cases hserved : path = "/offline" ∧ self.endpointState.offlineEnabled = true
      · obtain ⟨rfl, henabled⟩ := hserved
        rw [DefaultLosslessAPI.handleEndpointPath_served henabled, List.filterMap_append]
        simp only [DefaultLosslessAPI.losslessDeregister]
        rw [haction self ins .doDeregister rfl]
        simp [answerOf, offlineServed, LosslessEndpointState.handlePath,
          LosslessEndpointState.offlineResponse, henabled]
      · rw [DefaultLosslessAPI.handleEndpointPath_unserved (by simpa using hserved)]
        rfl

theorem instanceStep_actionProviders (self : DefaultLosslessAPI) (move : InstanceMove) :
    (instanceStep self move).actionProviders =
      if move.call = .setActionProvider then
        Function.update self.actionProviders (instanceKey move.ins) true
      else self.actionProviders := by
  obtain ⟨ins, call⟩ := move
  cases call with
  | wakeTask index answer =>
      simp only [instanceStep, instanceOutcome, DefaultLosslessAPI.wakeTask]
      split <;> rfl
  | request path =>
      simp only [instanceStep, instanceOutcome, DefaultLosslessAPI.handleEndpointPath]
      split <;> rfl
  | _ => rfl

theorem instanceStep_tasks_ne (self : DefaultLosslessAPI) {move : InstanceMove}
    {ins : BaseInstance} (other : move.ins ≠ ins) :
    (instanceStep self move).tasks ins = self.tasks ins := by
  obtain ⟨caller, call⟩ := move
  cases call with
  | scheduleRegister rule => exact Function.update_of_ne other.symm _ _
  | wakeTask index answer =>
      simp only [instanceStep, instanceOutcome, DefaultLosslessAPI.wakeTask]
      split
      · exact Function.update_of_ne other.symm _ _
      · rfl
  | request path =>
      simp only [instanceStep, instanceOutcome, DefaultLosslessAPI.handleEndpointPath]
      split <;> rfl
  | _ => rfl

/-! ## The run of all instances beside the run of one -/

structure InSync (ins : BaseInstance) (recorded : RecordedAPI) (alone : DefaultLosslessAPI) :
    Prop where
  shared : Describes recorded.allSettings recorded.api.endpointState
  own : Describes (recorded.settingsFor ins) alone.endpointState
  tasks : alone.tasks ins = recorded.api.tasks ins
  actionProviders : alone.actionProviders = recorded.api.actionProviders

theorem inSync_start (ins : BaseInstance) : InSync ins .start .new :=
  ⟨⟨rfl, rfl, fun h => absurd h (by decide)⟩, ⟨rfl, rfl, fun h => absurd h (by decide)⟩, rfl, rfl⟩

variable {ins : BaseInstance} {recorded : RecordedAPI} {alone : DefaultLosslessAPI}
  {move : InstanceMove}

theorem describes_step (h : Describes recorded.allSettings recorded.api.endpointState)
    (move : InstanceMove) :
    Describes (recorded.step move).allSettings (recorded.step move).api.endpointState := by
  have hstate : (recorded.step move).api.endpointState = _ :=
    instanceStep_endpointState recorded.api move
  rw [hstate]
  unfold RecordedAPI.step RecordedAPI.allSettings
  cases endpointSetting recorded.api move with
  | none => exact h
  | some setting => exact describes_apply h setting

theorem settingsFor_step_ne (other : move.ins ≠ ins) :
    (recorded.step move).settingsFor ins = recorded.settingsFor ins := by
  unfold RecordedAPI.step RecordedAPI.settingsFor
  cases endpointSetting recorded.api move with
  | none => rfl
  | some setting =>
      simp only
      rw [List.filter_cons_of_neg (by simpa using other)]

theorem taskDue_congr (sync : InSync ins recorded alone) (index : Nat) (answer : HealthAnswer) :
    alone.taskDue ins index answer = recorded.api.taskDue ins index answer := by
  have hready : (alone.registryOf ins).losslessHealthcheckReady answer =
      (recorded.api.registryOf ins).losslessHealthcheckReady answer := by
    unfold LosslessActionRegistry.losslessHealthcheckReady DefaultLosslessAPI.registryOf
    rw [sync.actionProviders]
  unfold DefaultLosslessAPI.taskDue waited
  rw [sync.tasks, hready]

/-- The steps of the others do not reach what the run of one instance has. -/
theorem inSync_foreign (sync : InSync ins recorded alone) (foreign : concerns ins move = false) :
    InSync ins (recorded.step move) alone := by
  simp only [concerns, Bool.or_eq_false_iff, decide_eq_false_iff_not] at foreign
  refine ⟨describes_step sync.shared move, ?_, ?_, ?_⟩
  · rw [settingsFor_step_ne foreign.1]
    exact sync.own
  · exact sync.tasks.trans (instanceStep_tasks_ne recorded.api foreign.1).symm
  · have hproviders := instanceStep_actionProviders recorded.api move
    rw [if_neg foreign.2] at hproviders
    exact sync.actionProviders.trans hproviders.symm

theorem actionProviders_step (sync : InSync ins recorded alone) (move : InstanceMove) :
    (instanceStep alone move).actionProviders = (recorded.step move).api.actionProviders := by
  have hproviders : (recorded.step move).api.actionProviders = _ :=
    instanceStep_actionProviders recorded.api move
  rw [hproviders, instanceStep_actionProviders, sync.actionProviders]

theorem inSync_setActionProvider (sync : InSync ins recorded alone)
    (call : move.call = .setActionProvider) :
    InSync ins (recorded.step move) (instanceStep alone move) := by
  have hnone : ∀ api : DefaultLosslessAPI, endpointSetting api move = none := by
    intro api
    simp only [endpointSetting, call]
  have htasks : ∀ api : DefaultLosslessAPI, (instanceStep api move).tasks = api.tasks := by
    intro api
    simp only [instanceStep, instanceOutcome, call, DefaultLosslessAPI.setActionProvider]
  refine ⟨describes_step sync.shared move, ?_, ?_, actionProviders_step sync move⟩
  · rw [instanceStep_endpointState, hnone]
    simp only [RecordedAPI.step, RecordedAPI.settingsFor, hnone]
    exact sync.own
  · rw [htasks]
    exact sync.tasks.trans (congrFun (htasks recorded.api) ins).symm

theorem tasks_own (sync : InSync ins recorded alone) (own : move.ins = ins) :
    (instanceStep alone move).tasks ins = (recorded.step move).api.tasks ins := by
  obtain ⟨caller, call⟩ := move
  cases own
  cases call with
  | scheduleRegister rule =>
      simp only [RecordedAPI.step, instanceStep, instanceOutcome,
        DefaultLosslessAPI.scheduleRegister, DefaultLosslessAPI.scheduleRegisterPlan,
        Function.update_self, sync.tasks]
  | wakeTask index answer =>
      simp only [RecordedAPI.step, instanceStep, instanceOutcome, DefaultLosslessAPI.wakeTask,
        taskDue_congr sync]
      split
      · simp only [Function.update_self, sync.tasks]
      · exact sync.tasks
  | request path =>
      simp only [RecordedAPI.step, instanceStep, instanceOutcome,
        DefaultLosslessAPI.handleEndpointPath]
      split <;> split <;> exact sync.tasks
  | _ => exact sync.tasks

/-- An own call that is no disturbed request sets both endpoint states the same way. -/
theorem endpointSetting_own (sync : InSync ins recorded alone) (own : move.ins = ins)
    (undisturbed : RequestUndisturbed recorded move) :
    endpointSetting alone move = endpointSetting recorded.api move := by
  obtain ⟨caller, call⟩ := move
  cases own
  cases call with
  | wakeTask index answer => simp only [endpointSetting, taskDue_congr sync]
  | request path =>
      simp only [endpointSetting]
      by_cases hpath : path = "/offline"
      · have hplans := (undisturbed path rfl).2 hpath
        rw [← sync.shared.offline, ← sync.own.offline] at hplans
        rw [hplans]
      · simp [hpath]
  | _ => rfl

theorem inSync_own (sync : InSync ins recorded alone) (own : move.ins = ins)
    (undisturbed : RequestUndisturbed recorded move) :
    InSync ins (recorded.step move) (instanceStep alone move) := by
  refine ⟨describes_step sync.shared move, ?_, tasks_own sync own, actionProviders_step sync move⟩
  rw [instanceStep_endpointState, endpointSetting_own sync own undisturbed]
  unfold RecordedAPI.step RecordedAPI.settingsFor
  cases endpointSetting recorded.api move with
  | none => exact sync.own
  | some setting =>
      simp only
      rw [List.filter_cons_of_pos (by simpa using own)]
      exact describes_apply sync.own setting

/-! ## Answers -/

theorem response_eq_iff (sync : InSync ins recorded alone) (path : String) :
    (recorded.api.endpointState.handlePath path).1 = (alone.endpointState.handlePath path).1 ↔
      RequestUndisturbed recorded ⟨ins, .request path⟩ := by
  have hrequest : RequestUndisturbed recorded ⟨ins, .request path⟩ ↔
      (path = "/readiness" →
        plansReadiness recorded.allSettings = plansReadiness (recorded.settingsFor ins) ∧
          (plansReadiness (recorded.settingsFor ins) = true →
            lastRegisters recorded.allSettings = lastRegisters (recorded.settingsFor ins))) ∧
      (path = "/offline" →
        plansOffline recorded.allSettings = plansOffline (recorded.settingsFor ins)) := by
    constructor
    · exact fun h => h path rfl
    · rintro h _ ⟨⟩
      exact h
  rw [hrequest]
  unfold LosslessEndpointState.handlePath
  by_cases hready : path = "/readiness"
  · subst hready
    simpa using readinessResponse_eq_iff sync.shared sync.own
  · by_cases hoffline : path = "/offline"
    · subst hoffline
      simpa using offlineResponse_eq_iff sync.shared sync.own
    · simp [hready, hoffline]

theorem answers_own_iff (sync : InSync ins recorded alone) (own : move.ins = ins) :
    (instanceOutcome recorded.api move).2.filterMap answerOf =
        (instanceOutcome alone move).2.filterMap answerOf ↔
      RequestUndisturbed recorded move := by
  rw [answers_outcome, answers_outcome]
  obtain ⟨caller, call⟩ := move
  cases own
  cases call with
  | request path =>
      simp only [List.cons.injEq, and_true]
      exact response_eq_iff sync path
  | _ =>
      apply iff_of_true rfl
      intro path hpath
      cases hpath

/-- One instance gets the answers of its own run exactly if none of its requests is disturbed. -/
theorem answersTo_eq_iff (sync : InSync ins recorded alone) (moves : List InstanceMove) :
    answersTo ins recorded.api moves = answersTo ins alone (moves.filter (concerns ins)) ↔
      Along RecordedAPI.step
        (fun recorded move => move.ins = ins → RequestUndisturbed recorded move)
        recorded moves := by
  induction moves generalizing recorded alone with
  | nil => exact iff_of_true rfl trivial
  | cons move moves ih =>
      rw [List.filter_cons, answersTo, Along]
      cases hconcerns : concerns ins move with
      | false =>
          have hother : move.ins ≠ ins := by
            simp only [concerns, Bool.or_eq_false_iff, decide_eq_false_iff_not] at hconcerns
            exact hconcerns.1
          rw [if_neg hother, List.nil_append, if_neg Bool.false_ne_true]
          have hrest := ih (inSync_foreign sync hconcerns)
          exact hrest.trans (and_iff_right fun own => absurd own hother).symm
      | true =>
          rw [if_pos rfl, answersTo]
          by_cases own : move.ins = ins
          · rw [if_pos own, if_pos own]
            have hlength : ((instanceOutcome recorded.api move).2.filterMap answerOf).length =
                ((instanceOutcome alone move).2.filterMap answerOf).length := by
              rw [answers_outcome, answers_outcome]
              cases move.call <;> rfl
            constructor
            · intro h
              obtain ⟨hanswer, hanswers⟩ := List.append_inj h hlength
              have hundisturbed := (answers_own_iff sync own).mp hanswer
              exact ⟨fun _ => hundisturbed, (ih (inSync_own sync own hundisturbed)).mp hanswers⟩
            · rintro ⟨hundisturbed, hrest⟩
              rw [(answers_own_iff sync own).mpr (hundisturbed own)]
              congr 1
              exact (ih (inSync_own sync own (hundisturbed own))).mpr hrest
          · rw [if_neg own, if_neg own, List.nil_append, List.nil_append]
            have hcall : move.call = .setActionProvider := by
              simpa [concerns, own] using hconcerns
            have hrest := ih (inSync_setActionProvider sync hcall)
            exact hrest.trans (and_iff_right fun h => absurd h own).symm

/-- A sequence of calls answers every instance as its own calls do exactly if no request of it
is disturbed by the settings for another instance. -/
theorem independent_iff (moves : List InstanceMove) :
    Independent moves ↔ Along RecordedAPI.step RequestUndisturbed .start moves := by
  have heach : ∀ ins, answersTo ins .new moves = answersTo ins .new (moves.filter (concerns ins)) ↔
      Along RecordedAPI.step
        (fun recorded move => move.ins = ins → RequestUndisturbed recorded move) .start moves :=
    fun ins => answersTo_eq_iff (inSync_start ins) moves
  unfold Independent
  constructor
  · intro h
    rw [along_iff]
    intro first move hpart
    exact along_iff.mp ((heach move.ins).mp (h move.ins)) first move hpart rfl
  · intro h ins
    apply (heach ins).mpr
    apply along_mono _ h
    intro _ _ hundisturbed _
    exact hundisturbed

/-! ## Another instance is registered -/

def readinessRule : LosslessRule := ⟨some ⟨none, some ⟨true⟩⟩, none⟩

def ordersInstance : BaseInstance := ⟨"default", "orders", "10.0.0.1", 8080⟩

def paymentsInstance : BaseInstance := ⟨"default", "payments", "10.0.0.2", 8080⟩

def otherRegistered : List InstanceMove :=
  [⟨ordersInstance, .scheduleRegister readinessRule⟩, ⟨paymentsInstance, .losslessRegister⟩,
    ⟨ordersInstance, .request "/readiness"⟩]

/-- The registration of the second instance makes the first one ready. -/
theorem other_registration_makes_ready :
    answersTo ordersInstance .new otherRegistered = [ready] ∧
      answersTo ordersInstance .new (otherRegistered.filter (concerns ordersInstance)) =
        [notReady] ∧
      ¬ Independent otherRegistered := by
  have hshared : answersTo ordersInstance .new otherRegistered = [ready] := by decide
  have halone : answersTo ordersInstance .new
      (otherRegistered.filter (concerns ordersInstance)) = [notReady] := by decide
  refine ⟨hshared, halone, fun h => ?_⟩
  have heq := h ordersInstance
  rw [hshared, halone] at heq
  exact absurd heq (by decide)

end PoleClient.Discovery
