import Mathlib.Data.List.Sort
import PoleClient.Cache.Model
import PoleClient.Lib.Table

/-! # Plans, targets and events of active probing

The rules of a service are expanded to plans, and the plans with the instances of
the service to targets. The listener keeps the latest plans and instances of each
service, which its events and snapshots replace.
-/

namespace PoleClient.FaultDetect

open Lib Cache

/-! ## Rules and plans -/

structure HttpFaultDetectConfig where
  method : String
  url : String
  headers : List (String × String)
  body : String
deriving DecidableEq, Repr

structure TcpFaultDetectConfig where
  send : String
  receive : List String
deriving DecidableEq, Repr

structure UdpFaultDetectConfig where
  send : String
  receive : List String
deriving DecidableEq, Repr

/-- The protocol of a rule as its getter reads it. -/
inductive Protocol where
  | unknown
  | http
  | tcp
  | udp
deriving DecidableEq, Repr

inductive FaultDetectProtocol where
  | http
  | tcp
  | udp
deriving DecidableEq, Repr

structure FaultDetectSubRule where
  disable : Bool
  protocol : Protocol
  interval : UInt32
  timeout : UInt32
  port : UInt32
  httpConfig : Option HttpFaultDetectConfig
  tcpConfig : Option TcpFaultDetectConfig
  udpConfig : Option UdpFaultDetectConfig
deriving DecidableEq, Repr

structure DestinationService where
  namespaceName : String
  service : String
deriving DecidableEq, Repr

structure FaultDetectRule where
  id : String
  priority : UInt32
  targetService : Option DestinationService
  rules : List FaultDetectSubRule
deriving DecidableEq, Repr

structure FaultDetectPlan where
  ruleId : String
  namespaceName : String
  service : String
  intervalSecs : UInt32
  timeoutSecs : UInt32
  port : UInt32
  protocol : FaultDetectProtocol
  httpConfig : Option HttpFaultDetectConfig
  tcpConfig : Option TcpFaultDetectConfig
  udpConfig : Option UdpFaultDetectConfig
deriving DecidableEq, Repr

def protocolFromSpec : Protocol → Option FaultDetectProtocol
  | .http => some .http
  | .tcp => some .tcp
  | .udp => some .udp
  | .unknown => none

def buildFaultDetectPlan (rule : FaultDetectRule) (target : DestinationService)
    (subRule : FaultDetectSubRule) : Option FaultDetectPlan :=
  if subRule.disable then none
  else do
    let protocol ← protocolFromSpec subRule.protocol
    return {
      ruleId := rule.id
      namespaceName := target.namespaceName
      service := target.service
      intervalSecs := subRule.interval
      timeoutSecs := subRule.timeout
      port := subRule.port
      protocol := protocol
      httpConfig := subRule.httpConfig
      tcpConfig := subRule.tcpConfig
      udpConfig := subRule.udpConfig }

/-- The rules are sorted by priority, stably, before they are expanded. -/
def buildFaultDetectPlans (rules : List FaultDetectRule) : List FaultDetectPlan :=
  (rules.insertionSort fun a b => a.priority ≤ b.priority).flatMap fun rule =>
    match rule.targetService with
    | none => []
    | some target => rule.rules.filterMap (buildFaultDetectPlan rule target)

/-! ## Targets -/

structure FaultDetectTarget where
  host : String
  plans : List FaultDetectPlan
deriving DecidableEq, Repr

def buildFaultDetectTargets (serviceInstances : ServiceInstances) (plans : List FaultDetectPlan) :
    List FaultDetectTarget :=
  let matchingPlans := plans.filter fun plan =>
    plan.namespaceName = serviceInstances.service.namespaceName &&
      plan.service = serviceInstances.service.name
  if matchingPlans.isEmpty then []
  else
    (serviceInstances.instances.filter Instance.isAvailable).map fun ins => ⟨ins.ip, matchingPlans⟩

abbrev PlanTable : Type := Table String (List FaultDetectPlan)

abbrev InstanceTable : Type := Table String ServiceInstances

/-- The targets of all services, in the order of the table. A hash map fixes no order: what is
said about targets is said up to their order. -/
def targetsOf (plansByService : PlanTable) (instancesByService : InstanceTable) :
    List FaultDetectTarget :=
  instancesByService.rows.flatMap fun entry =>
    buildFaultDetectTargets entry.2 ((plansByService.lookup entry.1).getD [])

/-! ## Probe tasks -/

structure ProbeTask where
  host : String
  plan : FaultDetectPlan
deriving DecidableEq, Repr

/-- `FaultDetectScheduler::spawn` for each of the targets. -/
def tasksOf (targets : List FaultDetectTarget) : List ProbeTask :=
  targets.flatMap fun target => target.plans.map fun plan => ⟨target.host, plan⟩

/-! ## Events and snapshots -/

inductive Action where
  | add
  | update
  | delete
deriving DecidableEq, Repr

inductive SnapshotUpdate where
  | insertPlans (key : String) (plans : List FaultDetectPlan)
  | removePlans (key : String)
  | insertInstances (key : String) (instances : ServiceInstances)
  | removeInstances (key : String)

def faultDetectServiceKey (event : ServerEvent FaultDetectRule) : String :=
  event.eventKey.namespaceName ++ "#" ++ (event.eventKey.filter "service").getD ""

def snapshotOf (item : ServiceInstancesCacheItem) : ServiceInstances :=
  .new item.getServiceInfo (item.listInstances false)

/-- What `apply_event` writes before it reloads the targets; nothing, and it does not reload, for
an event of another kind. -/
def eventUpdate (action : Action) (event : ServerEvent FaultDetectRule) : Option SnapshotUpdate :=
  let key := faultDetectServiceKey event
  match action, event.value with
  | .delete, .governance .faultDetectRule _ => some (.removePlans key)
  | .delete, .«instance» _ => some (.removeInstances key)
  | _, .governance .faultDetectRule item =>
      some (.insertPlans key (buildFaultDetectPlans item.value))
  | _, .«instance» item => some (.insertInstances key (snapshotOf item))
  | _, _ => none

/-- A rule of a loaded service rule, which may be of another type than expected. -/
inductive LoadedRule where
  | faultDetect (rule : FaultDetectRule)
  | other (typeId : String)
deriving DecidableEq, Repr

def faultDetectRules : List LoadedRule → Except PoleError (List FaultDetectRule)
  | [] => .ok []
  | .faultDetect rule :: rules => do
      let rest ← faultDetectRules rules
      return rule :: rest
  | .other typeId :: _ =>
      .error (.new .invalidRule ("rule type error, expect FaultDetectRule, but got " ++ typeId))

/-- What `apply_initial_snapshot` writes, one map after the other, before it reloads. -/
def initialSnapshotUpdates (namespaceName service : String) (serviceRule : List LoadedRule)
    (instances : ServiceInstancesCacheItem) : Except PoleError (List SnapshotUpdate) := do
  let rules ← faultDetectRules serviceRule
  let key := namespaceName ++ "#" ++ service
  return [.insertPlans key (buildFaultDetectPlans rules),
    .insertInstances key (snapshotOf instances)]

end PoleClient.FaultDetect
