import PoleClient.FaultDetect.Model
import PoleClient.Lib.Threads

/-! # Concurrent reloads

An event or a snapshot writes to the maps and then reloads: it copies the plans,
copies the instances, stops all tasks and starts those of its targets. Each of
these holds one mutex, so the steps of several reloads interleave.
-/

namespace PoleClient.FaultDetect

open Lib Cache

/-! ## The program -/

/-- The two maps, and the tasks whose handles the owner keeps: those that run. -/
structure ProbeState where
  plans : PlanTable
  instances : InstanceTable
  handles : List ProbeTask

def ProbeState.new : ProbeState := ⟨.empty, .empty, []⟩

def ProbeState.apply (self : ProbeState) : SnapshotUpdate → ProbeState
  | .insertPlans key plans => { self with plans := self.plans.insert key plans }
  | .removePlans key => { self with plans := self.plans.erase key }
  | .insertInstances key instances => { self with instances := self.instances.insert key instances }
  | .removeInstances key => { self with instances := self.instances.erase key }

/-- What an event or a snapshot does next. -/
inductive ReloadThread where
  | updating (updates : List SnapshotUpdate)
  | readPlans
  | readInstances (plans : PlanTable)
  | stop (targets : List FaultDetectTarget)
  | start (targets : List FaultDetectTarget)
  | finished

/-- The writes that are left, and then the reload. -/
def remaining : List SnapshotUpdate → ReloadThread
  | [] => .readPlans
  | updates => .updating updates

/-- `reload_targets` after the writes. Without targets it starts nothing. -/
def reloadProgram (self : ProbeState) (thread : ReloadThread) (_ : Unit) :
    Threads.Effect ProbeState ReloadThread Unit :=
  match thread with
  | .updating [] => ⟨self, .readPlans, none⟩
  | .updating (update :: updates) => ⟨self.apply update, remaining updates, none⟩
  | .readPlans => ⟨self, .readInstances self.plans, none⟩
  | .readInstances plans => ⟨self, .stop (targetsOf plans self.instances), none⟩
  | .stop targets =>
      ⟨{ self with handles := [] }, if targets.isEmpty then .finished else .start targets, none⟩
  | .start targets =>
      ⟨{ self with handles := self.handles ++ tasksOf targets }, .finished, none⟩
  | .finished => ⟨self, .finished, none⟩

/-! ## Runs -/

inductive ReloadCall where
  | event (action : Action) (ev : ServerEvent FaultDetectRule)
  | initialSnapshot (namespaceName service : String) (serviceRule : List LoadedRule)
      (instances : ServiceInstancesCacheItem)
  /-- the instances alone, where the rules of an accessed service are not to be had -/
  | instanceSnapshot (namespaceName service : String) (instances : ServiceInstancesCacheItem)

/-- What the call writes; it returns without a reload where it writes nothing. -/
def ReloadCall.updates : ReloadCall → Option (List SnapshotUpdate)
  | event action ev => (eventUpdate action ev).map fun update => [update]
  | initialSnapshot namespaceName service serviceRule instances =>
      (initialSnapshotUpdates namespaceName service serviceRule instances).toOption
  | instanceSnapshot namespaceName service instances =>
      some [.insertInstances (namespaceName ++ "#" ++ service) (snapshotOf instances)]

def ReloadCall.thread (call : ReloadCall) : ReloadThread :=
  match call.updates with
  | none => .finished
  | some updates => remaining updates

inductive ReloadMove where
  | call (call : ReloadCall)
  | advance (index : Nat)

def ReloadMove.move : ReloadMove → Threads.Move ReloadThread Unit
  | call begun => .start begun.thread
  | advance index => .advance index ()

abbrev ReloadState : Type := Threads ProbeState ReloadThread

def ReloadState.start : ReloadState := ⟨.new, []⟩

def reloadStep (s : ReloadState) (move : ReloadMove) : ReloadState :=
  Threads.moveStep reloadProgram s move.move

/-! ## Stages -/

namespace ReloadThread

def Early : ReloadThread → Prop
  | updating _ => True
  | readPlans => True
  | readInstances _ => True
  | stop _ => True
  | start _ => False
  | finished => False

def Waiting : ReloadThread → Prop
  | updating _ => True
  | readPlans => True
  | _ => False

def Reloading : ReloadThread → Prop
  | readInstances _ => True
  | stop _ => True
  | start _ => True
  | _ => False

def pending : ReloadThread → List ProbeTask
  | start targets => tasksOf targets
  | _ => []

end ReloadThread

theorem remaining_waiting (updates : List SnapshotUpdate) : (remaining updates).Waiting := by
  cases updates <;> trivial

/-- A call begins with its writes, or is finished at once. -/
theorem thread_cases (call : ReloadCall) : call.thread = .finished ∨ call.thread.Waiting := by
  unfold ReloadCall.thread
  cases call.updates with
  | none => exact .inl rfl
  | some updates => exact .inr (remaining_waiting updates)

theorem Waiting.early {thread : ReloadThread} (h : thread.Waiting) : thread.Early := by
  cases thread with
  | updating updates => trivial
  | readPlans => trivial
  | _ => exact absurd h id

/-- Only its stop takes a thread out of the early stages. -/
theorem early_program {self : ProbeState} {thread : ReloadThread} (early : thread.Early)
    (h : ∀ targets, thread ≠ .stop targets) : (reloadProgram self thread ()).thread.Early := by
  cases thread with
  | updating updates =>
      cases updates with
      | nil => trivial
      | cons update updates => exact Waiting.early (remaining_waiting updates)
  | readPlans => trivial
  | readInstances plans => trivial
  | stop targets => exact absurd rfl (h targets)
  | start targets => exact absurd early id
  | finished => exact absurd early id

end PoleClient.FaultDetect
