import PoleClient.Core.Model
import PoleClient.Lib.Run

/-! # Automatic heartbeats

A registration with automatic heartbeat spawns a task and keeps its handle in a
map, under a text that joins the parts of the instance's identity. A handle that
leaves the map without an abort leaves its task running.
-/

namespace PoleClient.Discovery

open Lib

/-! ## Requests -/

/-- What tells instances apart. -/
structure InstanceIdentity where
  namespaceName : String
  service : String
  ip : String
  port : UInt32
  vpcId : String
deriving DecidableEq, Repr

structure InstanceHeartbeatRequest where
  flowId : String
  timeout : Nat
  id : Option String
  namespaceName : String
  service : String
  ip : String
  port : UInt32
  vpcId : String
deriving DecidableEq, Repr

def InstanceHeartbeatRequest.beatKey (self : InstanceHeartbeatRequest) : String :=
  self.namespaceName ++ "_" ++ self.service ++ "_" ++ self.ip ++ "_" ++
    toString self.port.toNat ++ "_" ++ self.vpcId

def InstanceHeartbeatRequest.identity (self : InstanceHeartbeatRequest) : InstanceIdentity :=
  ⟨self.namespaceName, self.service, self.ip, self.port, self.vpcId⟩

/-- The parts of a registration that the heartbeat depends on. -/
structure InstanceRegisterRequest where
  flowId : String
  timeout : Nat
  id : Option String
  namespaceName : String
  service : String
  ip : String
  port : UInt32
  vpcId : String
  ttl : UInt32
  autoHeartbeat : Bool
deriving DecidableEq, Repr

def InstanceRegisterRequest.toHeartbeatRequest (self : InstanceRegisterRequest) :
    InstanceHeartbeatRequest where
  flowId := ""
  timeout := self.timeout
  id := none
  namespaceName := self.namespaceName
  service := self.service
  ip := self.ip
  port := self.port
  vpcId := self.vpcId

structure InstanceDeregisterRequest where
  flowId : String
  timeout : Nat
  namespaceName : String
  service : String
  ip : String
  port : UInt32
  vpcId : String
deriving DecidableEq, Repr

def InstanceDeregisterRequest.toHeartbeatRequest (self : InstanceDeregisterRequest) :
    InstanceHeartbeatRequest where
  flowId := self.flowId
  timeout := self.timeout
  id := some ""
  namespaceName := self.namespaceName
  service := self.service
  ip := self.ip
  port := self.port
  vpcId := self.vpcId

structure InstanceRegisterResponse where
  instanceId : String
  exist : Bool
deriving DecidableEq, Repr

/-! ## Tasks -/

abbrev JoinHandle : Type := Nat

/-- A spawned heartbeat, which sends its request once every `ttl` seconds until it is aborted. -/
structure HeartbeatTask where
  handle : JoinHandle
  ttl : UInt32
  beatReq : InstanceHeartbeatRequest
deriving DecidableEq, Repr

structure ProviderState where
  beatTasks : String → Option JoinHandle
  live : List HeartbeatTask
  spawned : Nat

def ProviderState.new : ProviderState := ⟨fun _ => none, [], 0⟩

/-- The executor numbers the tasks in the order in which it spawns them. -/
def ProviderState.spawn (self : ProviderState) (ttl : UInt32) (beatReq : InstanceHeartbeatRequest) :
    ProviderState :=
  { self with
    live := ⟨self.spawned, ttl, beatReq⟩ :: self.live
    spawned := self.spawned + 1 }

def ProviderState.abort (self : ProviderState) (handle : JoinHandle) : ProviderState :=
  { self with live := self.live.filter fun task => task.handle ≠ handle }

def ProviderState.setBeatTask (self : ProviderState) (key : String) (handle : Option JoinHandle) :
    ProviderState :=
  { self with beatTasks := fun other => if other = key then handle else self.beatTasks other }

/-! ## The provider's calls -/

/-- `ProviderAPI::register`, with the answer of the engine. The handle that the insertion replaces
is dropped, which does not abort its task. -/
def register (self : ProviderState) (req : InstanceRegisterRequest)
    (rsp : Except PoleError InstanceRegisterResponse) :
    ProviderState × Except PoleError InstanceRegisterResponse :=
  let beatReq := req.toHeartbeatRequest
  match rsp with
  | .error err => (self, .error err)
  | .ok response =>
      if req.autoHeartbeat then
        ((self.spawn req.ttl beatReq).setBeatTask beatReq.beatKey (some self.spawned), .ok response)
      else (self, .ok response)

/-- `ProviderAPI::deregister`. The task is gone whatever the engine answers. -/
def deregister (self : ProviderState) (req : InstanceDeregisterRequest)
    (rsp : Except PoleError Unit) : ProviderState × Except PoleError Unit :=
  let taskKey := req.toHeartbeatRequest.beatKey
  match self.beatTasks taskKey with
  | none => (self, rsp)
  | some task => ((self.setBeatTask taskKey none).abort task, rsp)

inductive ProviderCall where
  | register (req : InstanceRegisterRequest) (rsp : Except PoleError InstanceRegisterResponse)
  | deregister (req : InstanceDeregisterRequest) (rsp : Except PoleError Unit)

namespace ProviderCall

def beatReq : ProviderCall → InstanceHeartbeatRequest
  | register req _ => req.toHeartbeatRequest
  | deregister req _ => req.toHeartbeatRequest

def identity (call : ProviderCall) : InstanceIdentity :=
  call.beatReq.identity

def Starts : ProviderCall → Prop
  | register req rsp => (∃ response, rsp = .ok response) ∧ req.autoHeartbeat = true
  | deregister _ _ => False

def IsDeregister : ProviderCall → Prop
  | register _ _ => False
  | deregister _ _ => True

end ProviderCall

def step (self : ProviderState) : ProviderCall → ProviderState
  | .register req rsp => (register self req rsp).1
  | .deregister req rsp => (deregister self req rsp).1

/-! ## What one call does -/

theorem step_cases (s : ProviderState) (call : ProviderCall) :
    (call.Starts ∧ ∃ ttl, step s call =
      (s.spawn ttl call.beatReq).setBeatTask call.beatReq.beatKey (some s.spawned)) ∨
    (¬ call.Starts ∧ step s call = s ∧
      (call.IsDeregister → s.beatTasks call.beatReq.beatKey = none)) ∨
    (call.IsDeregister ∧ ∃ handle, s.beatTasks call.beatReq.beatKey = some handle ∧
      step s call = (s.setBeatTask call.beatReq.beatKey none).abort handle) := by
  cases call with
  | register req rsp =>
      cases rsp with
      | error err =>
          refine .inr (.inl ⟨?_, rfl, False.elim⟩)
          rintro ⟨⟨response, hresponse⟩, -⟩
          cases hresponse
      | ok response =>
          cases hauto : req.autoHeartbeat with
          | false =>
              refine .inr (.inl ⟨fun h => ?_, by simp [step, register, hauto], False.elim⟩)
              rw [h.2] at hauto
              cases hauto
          | true =>
              refine .inl ⟨⟨⟨response, rfl⟩, hauto⟩, req.ttl, ?_⟩
              simp [step, register, hauto, ProviderCall.beatReq]
  | deregister req rsp =>
      cases hkey : s.beatTasks req.toHeartbeatRequest.beatKey with
      | none => exact .inr (.inl ⟨id, by simp [step, deregister, hkey], fun _ => hkey⟩)
      | some handle =>
          refine .inr (.inr ⟨trivial, handle, hkey, ?_⟩)
          simp [step, deregister, hkey, ProviderCall.beatReq]

end PoleClient.Discovery
