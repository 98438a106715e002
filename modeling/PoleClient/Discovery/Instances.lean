import Mathlib.Logic.Function.Basic
import PoleClient.Core.Model
import PoleClient.Core.Text
import PoleClient.Discovery.Lossless

/-! # Lossless instances under one registry

One `DefaultLosslessAPI` manages any number of instances. The action providers
are kept by instance; the endpoint state is one for all of them, set anew by
every schedule and marked by every registration and deregistration. The calls
of the interface run one after another here; each is what its thread does when
it runs alone. A scheduled registration is looked at whenever its timer fires.
-/

namespace PoleClient.Discovery

open Lib

/-! ## Rules -/

inductive DelayStrategy where
  | delayByTime
  | delayByHealthCheck
deriving DecidableEq, Repr

structure DelayRegister where
  enable : Bool
  strategy : ProtoEnum DelayStrategy
  intervalSecond : Int
  healthCheckProtocol : String
  healthCheckMethod : String
  healthCheckPath : String
  healthCheckIntervalSecond : String
deriving DecidableEq, Repr

structure Readiness where
  enable : Bool
deriving DecidableEq, Repr

structure LosslessOnline where
  delayRegister : Option DelayRegister
  readiness : Option Readiness
deriving DecidableEq, Repr

structure LosslessOffline where
  enable : Bool
deriving DecidableEq, Repr

structure LosslessRule where
  losslessOnline : Option LosslessOnline
  losslessOffline : Option LosslessOffline
deriving DecidableEq, Repr

def defaultIfEmpty (value defaultValue : String) : String :=
  if value.isEmpty then defaultValue else value

def losslessDelayRegisterPlan (delay : DelayRegister) : Option LosslessDelayRegisterPlan :=
  if !delay.enable then none
  else
    match delay.strategy.tryFrom.getD .delayByTime with
    | .delayByTime => some (.delayByTime ((max delay.intervalSecond 0).toNat * nanosPerSecond))
    | .delayByHealthCheck =>
        let seconds := ((Text.parseU64 delay.healthCheckIntervalSecond).getD 30).toNat
        some (.delayByHealthCheck
          { protocol := defaultIfEmpty delay.healthCheckProtocol "http"
            method := defaultIfEmpty delay.healthCheckMethod "GET"
            path := delay.healthCheckPath
            interval := max seconds 1 * nanosPerSecond })

def LosslessExecutionPlan.fromRule (rule : LosslessRule) : LosslessExecutionPlan where
  delayRegister := rule.losslessOnline.bind fun online =>
    online.delayRegister.bind losslessDelayRegisterPlan
  readinessEnabled := ((rule.losslessOnline.bind fun online => online.readiness).map
    fun readiness => readiness.enable).getD false
  offlineEnabled := (rule.losslessOffline.map fun offline => offline.enable).getD false

/-! ## The endpoint state -/

namespace LosslessEndpointState

def markRegistered (self : LosslessEndpointState) : LosslessEndpointState :=
  { self with registered := true, offline := false }

def markOffline (self : LosslessEndpointState) : LosslessEndpointState :=
  { self with registered := false, offline := true }

def readinessResponse (self : LosslessEndpointState) : LosslessEndpointResponse :=
  if !self.readinessEnabled then ⟨404, "readiness disabled"⟩
  else if self.registered && !self.offline then ready
  else notReady

def offlineResponse (self : LosslessEndpointState) :
    LosslessEndpointResponse × LosslessEndpointState :=
  if !self.offlineEnabled then (⟨404, "offline disabled"⟩, self)
  else (⟨200, "offline"⟩, self.markOffline)

def handlePath (self : LosslessEndpointState) (path : String) :
    LosslessEndpointResponse × LosslessEndpointState :=
  if path = "/readiness" then (self.readinessResponse, self)
  else if path = "/offline" then self.offlineResponse
  else (⟨404, "not found"⟩, self)

end LosslessEndpointState

/-! ## The interface -/

structure BaseInstance where
  namespaceName : String
  service : String
  ip : String
  port : UInt32
deriving DecidableEq, Repr

def instanceKey (ins : BaseInstance) : String :=
  s!"{ins.namespaceName}#{ins.service}#{ins.ip}#{ins.port}"

/-- A task that `schedule_lossless_register` has spawned. -/
inductive LosslessTask where
  | waiting (delay : Option LosslessDelayRegisterPlan)
  | finished
deriving DecidableEq, Repr

/-- The registry, with the keys that have an action provider, and the spawned tasks of each
instance. -/
structure DefaultLosslessAPI where
  actionProviders : String → Bool
  endpointState : LosslessEndpointState
  tasks : BaseInstance → List LosslessTask

abbrev LosslessOutcome : Type := DefaultLosslessAPI × List LosslessEvent

namespace DefaultLosslessAPI

def new : DefaultLosslessAPI where
  actionProviders := fun _ => false
  endpointState := .new false false
  tasks := fun _ => []

/-- What the threads of the instance see. -/
def registryOf (self : DefaultLosslessAPI) (ins : BaseInstance) : LosslessActionRegistry where
  hasActionProvider := self.actionProviders (instanceKey ins)
  endpointStates := fun _ => self.endpointState
  endpointState := 0

def callAction (self : DefaultLosslessAPI) (ins : BaseInstance) (event : LosslessEvent) :
    List LosslessEvent :=
  if self.actionProviders (instanceKey ins) then [event] else []

def setActionProvider (self : DefaultLosslessAPI) (ins : BaseInstance) : DefaultLosslessAPI :=
  { self with actionProviders := Function.update self.actionProviders (instanceKey ins) true }

def losslessRegister (self : DefaultLosslessAPI) (ins : BaseInstance) : LosslessOutcome :=
  ({ self with endpointState := self.endpointState.markRegistered },
    self.callAction ins .doRegister)

def losslessDeregister (self : DefaultLosslessAPI) (ins : BaseInstance) : LosslessOutcome :=
  ({ self with endpointState := self.endpointState.markOffline },
    self.callAction ins .doDeregister)

def handleEndpointPath (self : DefaultLosslessAPI) (path : String) (ins : BaseInstance) :
    LosslessOutcome :=
  let response := (self.endpointState.handlePath path).1
  let handled := { self with endpointState := (self.endpointState.handlePath path).2 }
  if path = "/offline" && response.statusCode = 200 then
    ((handled.losslessDeregister ins).1,
      (handled.losslessDeregister ins).2 ++ [.answered path response])
  else (handled, [.answered path response])

def scheduleRegisterPlan (self : DefaultLosslessAPI) (ins : BaseInstance)
    (plan : LosslessExecutionPlan) : DefaultLosslessAPI :=
  { self with
    endpointState := .fromPlan plan
    tasks := Function.update self.tasks ins (self.tasks ins ++ [.waiting plan.delayRegister]) }

def scheduleRegister (self : DefaultLosslessAPI) (ins : BaseInstance) (rule : LosslessRule) :
    DefaultLosslessAPI :=
  self.scheduleRegisterPlan ins (.fromRule rule)

def taskDue (self : DefaultLosslessAPI) (ins : BaseInstance) (index : Nat)
    (answer : HealthAnswer) : Bool :=
  match (self.tasks ins)[index]? with
  | some (.waiting delay) => waited (self.registryOf ins) delay answer = .registerFind
  | _ => false

def wakeTask (self : DefaultLosslessAPI) (ins : BaseInstance) (index : Nat)
    (answer : HealthAnswer) : LosslessOutcome :=
  if self.taskDue ins index answer then
    ({ (self.losslessRegister ins).1 with
        tasks := Function.update self.tasks ins ((self.tasks ins).set index .finished) },
      (self.losslessRegister ins).2)
  else (self, [])

end DefaultLosslessAPI

/-! ## Sequences of calls -/

inductive InstanceCall where
  | setActionProvider
  | losslessRegister
  | losslessDeregister
  | scheduleRegister (rule : LosslessRule)
  | wakeTask (index : Nat) (answer : HealthAnswer)
  | request (path : String)
deriving DecidableEq, Repr

structure InstanceMove where
  ins : BaseInstance
  call : InstanceCall
deriving DecidableEq, Repr

def instanceOutcome (self : DefaultLosslessAPI) (move : InstanceMove) : LosslessOutcome :=
  match move.call with
  | .setActionProvider => (self.setActionProvider move.ins, [])
  | .losslessRegister => self.losslessRegister move.ins
  | .losslessDeregister =>
      ((self.losslessDeregister move.ins).1,
        (self.losslessDeregister move.ins).2 ++ [.deregistered])
  | .scheduleRegister rule => (self.scheduleRegister move.ins rule, [])
  | .wakeTask index answer => self.wakeTask move.ins index answer
  | .request path => self.handleEndpointPath path move.ins

def instanceStep (self : DefaultLosslessAPI) (move : InstanceMove) : DefaultLosslessAPI :=
  (instanceOutcome self move).1

def answerOf : LosslessEvent → Option LosslessEndpointResponse
  | .answered _ response => some response
  | _ => none

/-- What the endpoint of the instance answers in the course of a sequence of calls. -/
def answersTo (ins : BaseInstance) : DefaultLosslessAPI → List InstanceMove →
    List LosslessEndpointResponse
  | _, [] => []
  | self, move :: moves =>
      (if move.ins = ins then (instanceOutcome self move).2.filterMap answerOf else []) ++
        answersTo ins (instanceStep self move) moves

/-! ## Requests -/

namespace DefaultLosslessAPI

theorem handleEndpointPath_served {self : DefaultLosslessAPI}
    (enabled : self.endpointState.offlineEnabled = true) (ins : BaseInstance) :
    self.handleEndpointPath "/offline" ins =
      ((self.losslessDeregister ins).1, (self.losslessDeregister ins).2 ++ [offlineServed]) := by
  have hhandle : self.endpointState.handlePath "/offline" =
      (⟨200, "offline"⟩, self.endpointState.markOffline) := by
    simp [LosslessEndpointState.handlePath, LosslessEndpointState.offlineResponse, enabled]
  unfold handleEndpointPath
  rw [hhandle]
  rfl

theorem handleEndpointPath_unserved {self : DefaultLosslessAPI} {path : String}
    (unserved : path = "/offline" → self.endpointState.offlineEnabled = false)
    (ins : BaseInstance) :
    self.handleEndpointPath path ins =
      (self, [.answered path (self.endpointState.handlePath path).1]) := by
  by_cases hpath : path = "/offline"
  · have hhandle : self.endpointState.handlePath path =
        (⟨404, "offline disabled"⟩, self.endpointState) := by
      simp [LosslessEndpointState.handlePath, LosslessEndpointState.offlineResponse, hpath,
        unserved hpath]
    unfold handleEndpointPath
    rw [hhandle]
    simp
  · have hkept : (self.endpointState.handlePath path).2 = self.endpointState := by
      unfold LosslessEndpointState.handlePath
      rw [if_neg hpath]
      split <;> rfl
    simp [handleEndpointPath, hkept, hpath]

end DefaultLosslessAPI

/-! ## Calls and threads -/

/-- A thread that takes steps alone: the registry after them, and what was seen. -/
def runAlone (answer : HealthAnswer) : Nat → LosslessActionRegistry → LosslessThread →
    LosslessActionRegistry × List LosslessEvent
  | 0, registry, _ => (registry, [])
  | steps + 1, registry, thread =>
      let effect := losslessProgram registry thread answer
      let rest := runAlone answer steps effect.shared effect.thread
      (rest.1, effect.event.toList ++ rest.2)

/-- The thread of a call, and the steps in which the call returns. -/
def callThread (self : DefaultLosslessAPI) (move : InstanceMove) : LosslessThread × Nat :=
  match move.call with
  | .setActionProvider => (.setActionProvider, 1)
  | .losslessRegister => (.registerFind, 5)
  | .losslessDeregister => (.deregisterFind false, 5)
  | .scheduleRegister rule => (.schedule (.fromRule rule), 1)
  | .wakeTask index _ =>
      match (self.tasks move.ins)[index]? with
      | some (.waiting delay) => (.delayed delay, 6)
      | _ => (.finished, 0)
  | .request path => (.request path, 8)

def callAnswer (move : InstanceMove) : HealthAnswer :=
  match move.call with
  | .wakeTask _ answer => answer
  | _ => ⟨false, true⟩

/-- What the threads of the instance find in the registry. -/
structure Shows (registry : LosslessActionRegistry) (api : DefaultLosslessAPI)
    (ins : BaseInstance) : Prop where
  provider : registry.hasActionProvider = api.actionProviders (instanceKey ins)
  state : registry.endpointStates registry.endpointState = api.endpointState

variable {registry next : LosslessActionRegistry} {api : DefaultLosslessAPI} {ins : BaseInstance}
  {thread after : LosslessThread} {answer : HealthAnswer} {event : LosslessEvent}

theorem shows_modify (shows : Shows registry api ins)
    (f : LosslessEndpointState → LosslessEndpointState) :
    Shows (registry.modifyEndpointState registry.endpointState f)
      { api with endpointState := f api.endpointState } ins := by
  constructor
  · exact shows.provider
  · simp [LosslessActionRegistry.modifyEndpointState, shows.state]

theorem runAlone_finished (answer : HealthAnswer) (steps : Nat)
    (registry : LosslessActionRegistry) :
    runAlone answer steps registry .finished = (registry, []) := by
  induction steps with
  | zero => rfl
  | succ steps ih =>
      rw [runAlone]
      simp only [losslessProgram, ih]
      rfl

theorem runAlone_silent (h : losslessProgram registry thread answer = ⟨next, after, none⟩)
    (steps : Nat) :
    runAlone answer (steps + 1) registry thread = runAlone answer steps next after := by
  rw [runAlone, h]
  rfl

theorem runAlone_returns
    (h : losslessProgram registry thread answer = ⟨next, .finished, some event⟩) (steps : Nat) :
    runAlone answer (steps + 1) registry thread = (next, [event]) := by
  rw [runAlone, h, runAlone_finished]
  rfl

theorem runAlone_delayed {delay : Option LosslessDelayRegisterPlan}
    (hdelayed : waited registry delay answer = .delayed delay) (steps : Nat) :
    runAlone answer steps registry (.delayed delay) = (registry, []) := by
  induction steps with
  | zero => rfl
  | succ steps ih =>
      rw [← ih]
      apply runAlone_silent
      rw [losslessProgram, hdelayed]

theorem runAlone_registerFind (shows : Shows registry api ins) (answer : HealthAnswer) :
    Shows (runAlone answer 5 registry .registerFind).1 (api.losslessRegister ins).1 ins ∧
      (runAlone answer 5 registry .registerFind).2 = (api.losslessRegister ins).2 := by
  have hstores : (runAlone answer 5 registry .registerFind).1 =
      (registry.storeOffline registry.endpointState false).storeRegistered
        registry.endpointState true := by
    cases hfound : registry.hasActionProvider <;> simp [runAlone, losslessProgram, hfound]
  have hevents : (runAlone answer 5 registry .registerFind).2 =
      if registry.hasActionProvider then [.doRegister] else [] := by
    cases hfound : registry.hasActionProvider <;> simp [runAlone, losslessProgram, hfound]
  rw [hstores, hevents, shows.provider]
  exact ⟨shows_modify (shows_modify shows _) _, rfl⟩

theorem runAlone_deregisterFind (shows : Shows registry api ins) (answer : HealthAnswer)
    (served : Bool) :
    Shows (runAlone answer 5 registry (.deregisterFind served)).1 (api.losslessDeregister ins).1
        ins ∧
      (runAlone answer 5 registry (.deregisterFind served)).2 =
        (api.losslessDeregister ins).2 ++ [if served then offlineServed else .deregistered] := by
  have hstores : (runAlone answer 5 registry (.deregisterFind served)).1 =
      (registry.storeRegistered registry.endpointState false).storeOffline
        registry.endpointState true := by
    cases hfound : registry.hasActionProvider <;> simp [runAlone, losslessProgram, hfound]
  have hevents : (runAlone answer 5 registry (.deregisterFind served)).2 =
      (if registry.hasActionProvider then [.doDeregister] else []) ++
        [if served then offlineServed else .deregistered] := by
    cases hfound : registry.hasActionProvider <;> simp [runAlone, losslessProgram, hfound]
  rw [hstores, hevents, shows.provider]
  exact ⟨shows_modify (shows_modify shows _) _, rfl⟩

theorem runAlone_request_unserved (shows : Shows registry api ins) (answer : HealthAnswer)
    {path : String} (unserved : path = "/offline" → api.endpointState.offlineEnabled = false) :
    runAlone answer 8 registry (.request path) =
      (registry, [.answered path (api.endpointState.handlePath path).1]) := by
  by_cases hready : path = "/readiness"
  · subst hready
    by_cases henabled : api.endpointState.readinessEnabled = true
    · have hrequest : losslessProgram registry (.request "/readiness") answer =
          ⟨registry, .readinessRegistered registry.endpointState, none⟩ := by
        simp [losslessProgram, handlePath, shows.state, henabled]
      rw [runAlone_silent hrequest]
      by_cases hregistered : api.endpointState.registered = true
      · have hflag : losslessProgram registry (.readinessRegistered registry.endpointState) answer =
            ⟨registry, .readinessOffline registry.endpointState, none⟩ := by
          simp [losslessProgram, shows.state, hregistered]
        rw [runAlone_silent hflag]
        apply runAlone_returns
        simp [losslessProgram, shows.state, LosslessEndpointState.handlePath,
          LosslessEndpointState.readinessResponse, henabled, hregistered]
      · apply runAlone_returns
        simp [losslessProgram, shows.state, LosslessEndpointState.handlePath,
          LosslessEndpointState.readinessResponse, henabled, hregistered]
    · apply runAlone_returns
      simp [losslessProgram, handlePath, shows.state, LosslessEndpointState.handlePath,
        LosslessEndpointState.readinessResponse, henabled]
  · apply runAlone_returns
    by_cases hoffline : path = "/offline"
    · simp [losslessProgram, handlePath, shows.state, LosslessEndpointState.handlePath,
        LosslessEndpointState.offlineResponse, hoffline, unserved hoffline]
    · simp [losslessProgram, handlePath, LosslessEndpointState.handlePath, hready, hoffline]

/-- A served offline request marks the endpoint state before it deregisters. -/
theorem runAlone_request_served (shows : Shows registry api ins) (answer : HealthAnswer)
    (enabled : api.endpointState.offlineEnabled = true) :
    runAlone answer 8 registry (.request "/offline") =
      runAlone answer 5 ((registry.storeRegistered registry.endpointState false).storeOffline
        registry.endpointState true) (.deregisterFind true) := by
  have hrequest : losslessProgram registry (.request "/offline") answer =
      ⟨registry, .offlineStoreRegistered registry.endpointState, none⟩ := by
    simp [losslessProgram, handlePath, shows.state, enabled]
  rw [runAlone_silent hrequest, runAlone_silent rfl, runAlone_silent rfl]

theorem waited_cases (registry : LosslessActionRegistry)
    (delay : Option LosslessDelayRegisterPlan) (answer : HealthAnswer) :
    waited registry delay answer = .registerFind ∨
      waited registry delay answer = .delayed delay := by
  unfold waited
  split
  · split
    · exact .inl rfl
    · exact .inr rfl
  · exact .inl rfl

theorem wakeTask_alone (self : DefaultLosslessAPI) (ins : BaseInstance) (index : Nat)
    (answer : HealthAnswer) :
    let thread := callThread self ⟨ins, .wakeTask index answer⟩
    let alone := runAlone answer thread.2 (self.registryOf ins) thread.1
    Shows alone.1 (self.wakeTask ins index answer).1 ins ∧
      alone.2 = (self.wakeTask ins index answer).2 := by
  have hself : Shows (self.registryOf ins) self ins := ⟨rfl, rfl⟩
  obtain ⟨found, htask⟩ : ∃ found, (self.tasks ins)[index]? = found := ⟨_, rfl⟩
  simp only [callThread, DefaultLosslessAPI.wakeTask, DefaultLosslessAPI.taskDue, htask]
  cases found with
  | none => exact ⟨hself, rfl⟩
  | some task =>
      cases task with
      | finished => exact ⟨hself, rfl⟩
      | waiting delay =>
          rcases waited_cases (self.registryOf ins) delay answer with hdue | hdelayed
          · have hstep : losslessProgram (self.registryOf ins) (.delayed delay) answer =
                ⟨self.registryOf ins, .registerFind, none⟩ := by
              rw [losslessProgram, hdue]
            have hregister := runAlone_registerFind hself answer
            simp only [runAlone_silent hstep, hdue, decide_true, if_true]
            exact ⟨⟨hregister.1.provider, hregister.1.state⟩, hregister.2⟩
          · simp only [runAlone_delayed hdelayed, hdelayed]
            exact ⟨hself, rfl⟩

/-- A call is what its thread does when it runs alone. -/
theorem outcome_alone (self : DefaultLosslessAPI) (move : InstanceMove) :
    let alone := runAlone (callAnswer move) (callThread self move).2 (self.registryOf move.ins)
      (callThread self move).1
    Shows alone.1 (instanceStep self move) move.ins ∧ alone.2 = (instanceOutcome self move).2 := by
  obtain ⟨ins, call⟩ := move
  have hself : Shows (self.registryOf ins) self ins := ⟨rfl, rfl⟩
  cases call with
  | setActionProvider =>
      refine ⟨⟨?_, rfl⟩, rfl⟩
      show true = Function.update self.actionProviders (instanceKey ins) true (instanceKey ins)
      rw [Function.update_self]
  | losslessRegister => exact runAlone_registerFind hself _
  | losslessDeregister => exact runAlone_deregisterFind hself _ false
  | scheduleRegister rule => exact ⟨⟨rfl, rfl⟩, rfl⟩
  | wakeTask index answer => exact wakeTask_alone self ins index answer
  | request path =>
      simp only [callThread, callAnswer, instanceStep, instanceOutcome]
      by_cases hserved : path = "/offline" ∧ self.endpointState.offlineEnabled = true
      · obtain ⟨rfl, henabled⟩ := hserved
        have hregistered := shows_modify hself fun state => { state with registered := false }
        have hmarked := shows_modify hregistered fun state => { state with offline := true }
        rw [runAlone_request_served hself _ henabled,
          DefaultLosslessAPI.handleEndpointPath_served henabled]
        exact runAlone_deregisterFind hmarked _ true
      · have hunserved : path = "/offline" → self.endpointState.offlineEnabled = false := by
          simpa using hserved
        rw [runAlone_request_unserved hself _ hunserved,
          DefaultLosslessAPI.handleEndpointPath_unserved hunserved]
        exact ⟨hself, rfl⟩

end PoleClient.Discovery
