import PoleClient.Lib.Threads

/-! # Lossless registration and offline

The registry of one instance: its action provider, and the endpoint state with
its two flags. Every lock and every access to a flag is a step of its own, so
calls, scheduled registrations and endpoint requests interleave at those points.
Timers are moves like others: a task that sleeps may go on at any time.
-/

namespace PoleClient.Discovery

open Lib

/-! ## Plans -/

/-- Durations are in nanoseconds. -/
structure LosslessHealthCheckPlan where
  protocol : String
  method : String
  path : String
  interval : Nat
deriving DecidableEq, Repr

inductive LosslessDelayRegisterPlan where
  | delayByTime (delay : Nat)
  | delayByHealthCheck (healthCheck : LosslessHealthCheckPlan)
deriving DecidableEq, Repr

structure LosslessExecutionPlan where
  delayRegister : Option LosslessDelayRegisterPlan
  readinessEnabled : Bool
  offlineEnabled : Bool
deriving DecidableEq, Repr

/-! ## The endpoint state -/

structure LosslessEndpointResponse where
  statusCode : UInt16
  body : String
deriving DecidableEq, Repr

structure LosslessEndpointState where
  readinessEnabled : Bool
  offlineEnabled : Bool
  registered : Bool
  offline : Bool
deriving DecidableEq, Repr

def LosslessEndpointState.new (readinessEnabled offlineEnabled : Bool) : LosslessEndpointState where
  readinessEnabled := readinessEnabled
  offlineEnabled := offlineEnabled
  registered := !readinessEnabled
  offline := false

def LosslessEndpointState.fromPlan (plan : LosslessExecutionPlan) : LosslessEndpointState :=
  .new plan.readinessEnabled plan.offlineEnabled

/-! ## The registry -/

/-- The endpoint states are numbered in the order in which they are set; a request that has taken
one keeps its number when another one is set. -/
structure LosslessActionRegistry where
  hasActionProvider : Bool
  endpointStates : Nat → LosslessEndpointState
  endpointState : Nat

def LosslessActionRegistry.new : LosslessActionRegistry where
  hasActionProvider := false
  endpointStates := fun _ => .new false false
  endpointState := 0

/-- What the action provider answers when it is asked about the health of the instance. -/
structure HealthAnswer where
  isEnableHealthcheck : Bool
  doHealthcheck : Bool
deriving DecidableEq, Repr

namespace LosslessActionRegistry

def setActionProvider (self : LosslessActionRegistry) : LosslessActionRegistry :=
  { self with hasActionProvider := true }

def setEndpointState (self : LosslessActionRegistry) (endpointState : LosslessEndpointState) :
    LosslessActionRegistry :=
  { self with
    endpointStates := fun ref =>
      if ref = self.endpointState + 1 then endpointState else self.endpointStates ref
    endpointState := self.endpointState + 1 }

def modifyEndpointState (self : LosslessActionRegistry) (ref : Nat)
    (f : LosslessEndpointState → LosslessEndpointState) : LosslessActionRegistry :=
  { self with
    endpointStates := fun other =>
      if other = ref then f (self.endpointStates ref) else self.endpointStates other }

def storeRegistered (self : LosslessActionRegistry) (ref : Nat) (value : Bool) :
    LosslessActionRegistry :=
  self.modifyEndpointState ref fun state => { state with registered := value }

def storeOffline (self : LosslessActionRegistry) (ref : Nat) (value : Bool) :
    LosslessActionRegistry :=
  self.modifyEndpointState ref fun state => { state with offline := value }

def losslessHealthcheckReady (self : LosslessActionRegistry) (answer : HealthAnswer) : Bool :=
  if !self.hasActionProvider then true
  else if !answer.isEnableHealthcheck then true
  else answer.doHealthcheck

end LosslessActionRegistry

/-! ## Threads -/

inductive LosslessThread where
  | setActionProvider
  /-- `schedule_register_plan`, before it sets the endpoint state -/
  | schedule (plan : LosslessExecutionPlan)
  /-- the spawned task, which waits -/
  | delayed (delay : Option LosslessDelayRegisterPlan)
  | registerFind
  | registerAct
  | registerState
  /-- `mark_registered` on the endpoint state of the number -/
  | registerStoreOffline (ref : Nat)
  | registerStoreRegistered (ref : Nat)
  /-- `lossless_deregister`, called or for a request that was served -/
  | deregisterFind (served : Bool)
  | deregisterAct (served : Bool)
  | deregisterState (served : Bool)
  | deregisterStoreRegistered (served : Bool) (ref : Nat)
  | deregisterStoreOffline (served : Bool) (ref : Nat)
  /-- `handle_endpoint_path`, before it takes the endpoint state -/
  | request (path : String)
  | readinessRegistered (ref : Nat)
  | readinessOffline (ref : Nat)
  | offlineStoreRegistered (ref : Nat)
  | offlineStoreOffline (ref : Nat)
  | finished
deriving DecidableEq, Repr

inductive LosslessEvent where
  | doRegister
  | doDeregister
  | deregistered
  | answered (path : String) (response : LosslessEndpointResponse)
deriving DecidableEq, Repr

def offlineServed : LosslessEvent :=
  .answered "/offline" ⟨200, "offline"⟩

def ready : LosslessEndpointResponse := ⟨200, "ready"⟩

def notReady : LosslessEndpointResponse := ⟨503, "not ready"⟩

/-- `handle_path` on the endpoint state that the request has taken; the flags are read later. -/
def handlePath (self : LosslessActionRegistry) (path : String) :
    LosslessThread × Option LosslessEvent :=
  let ref := self.endpointState
  let state := self.endpointStates ref
  if path = "/readiness" then
    if !state.readinessEnabled then
      (.finished, some (.answered path ⟨404, "readiness disabled"⟩))
    else (.readinessRegistered ref, none)
  else if path = "/offline" then
    if !state.offlineEnabled then (.finished, some (.answered path ⟨404, "offline disabled"⟩))
    else (.offlineStoreRegistered ref, none)
  else (.finished, some (.answered path ⟨404, "not found"⟩))

/-- `schedule_lossless_register`, one look at whether the wait is over. -/
def waited (self : LosslessActionRegistry) (delay : Option LosslessDelayRegisterPlan)
    (answer : HealthAnswer) : LosslessThread :=
  match delay with
  | some (.delayByHealthCheck _) =>
      if self.losslessHealthcheckReady answer then .registerFind else .delayed delay
  | _ => .registerFind

/-- One step of a thread. -/
def losslessProgram (self : LosslessActionRegistry) (thread : LosslessThread)
    (answer : HealthAnswer) :
    Threads.Effect LosslessActionRegistry LosslessThread LosslessEvent :=
  match thread with
  | .setActionProvider => ⟨self.setActionProvider, .finished, none⟩
  | .schedule plan => ⟨self.setEndpointState (.fromPlan plan), .delayed plan.delayRegister, none⟩
  | .delayed delay => ⟨self, waited self delay answer, none⟩
  | .registerFind =>
      ⟨self, if self.hasActionProvider then .registerAct else .registerState, none⟩
  | .registerAct => ⟨self, .registerState, some .doRegister⟩
  | .registerState => ⟨self, .registerStoreOffline self.endpointState, none⟩
  | .registerStoreOffline ref => ⟨self.storeOffline ref false, .registerStoreRegistered ref, none⟩
  | .registerStoreRegistered ref => ⟨self.storeRegistered ref true, .finished, none⟩
  | .deregisterFind served =>
      ⟨self, if self.hasActionProvider then .deregisterAct served else .deregisterState served,
        none⟩
  | .deregisterAct served => ⟨self, .deregisterState served, some .doDeregister⟩
  | .deregisterState served =>
      ⟨self, .deregisterStoreRegistered served self.endpointState, none⟩
  | .deregisterStoreRegistered served ref =>
      ⟨self.storeRegistered ref false, .deregisterStoreOffline served ref, none⟩
  | .deregisterStoreOffline served ref =>
      ⟨self.storeOffline ref true, .finished,
        some (if served then offlineServed else .deregistered)⟩
  | .request path => ⟨self, (handlePath self path).1, (handlePath self path).2⟩
  | .readinessRegistered ref =>
      -- The second flag is read only if the first one is set.
      if (self.endpointStates ref).registered then ⟨self, .readinessOffline ref, none⟩
      else ⟨self, .finished, some (.answered "/readiness" notReady)⟩
  | .readinessOffline ref =>
      ⟨self, .finished, some (.answered "/readiness"
        (if !(self.endpointStates ref).offline then ready else notReady))⟩
  | .offlineStoreRegistered ref =>
      ⟨self.storeRegistered ref false, .offlineStoreOffline ref, none⟩
  | .offlineStoreOffline ref => ⟨self.storeOffline ref true, .deregisterFind true, none⟩
  | .finished => ⟨self, .finished, none⟩

/-! ## Runs -/

inductive LosslessCall where
  | setActionProvider
  | losslessRegister
  | losslessDeregister
  | scheduleRegister (plan : LosslessExecutionPlan)
  | request (path : String)

def LosslessCall.thread : LosslessCall → LosslessThread
  | setActionProvider => .setActionProvider
  | losslessRegister => .registerFind
  | losslessDeregister => .deregisterFind false
  | scheduleRegister plan => .schedule plan
  | request path => .request path

inductive LosslessMove where
  | call (call : LosslessCall)
  | advance (index : Nat) (answer : HealthAnswer)

def LosslessMove.move : LosslessMove → Threads.Move LosslessThread HealthAnswer
  | call begun => .start begun.thread
  | advance index answer => .advance index answer

abbrev LosslessState : Type := Threads LosslessActionRegistry LosslessThread

def LosslessState.start : LosslessState := ⟨.new, []⟩

def losslessStep (s : LosslessState) (move : LosslessMove) : LosslessState :=
  Threads.moveStep losslessProgram s move.move

def losslessEvent (s : LosslessState) (move : LosslessMove) : Option LosslessEvent :=
  Threads.emitted losslessProgram s move.move

end PoleClient.Discovery
