import Mathlib.Data.List.Sort
import PoleClient.Cache.MemoryCache
import PoleClient.Core.Naming
import PoleClient.Traffic.LabelMatch

/-! # The service routers

The five built-in routers and the flow that chains them. Each takes the
instances that the one before it has left. What they ask of the rest of the
client, cached rules, the location and the state of circuit breakers, is
answered anew at each use.
-/

namespace PoleClient

open Cache

/-! ## Rules -/

structure DestinationGroup where
  service : String
  namespaceName : String
  labels : List (String × MatchString)
  priority : UInt32
  isolate : Bool

structure CustomRouteRule where
  arguments : Option TrafficMatchRule
  destinations : List DestinationGroup

structure CustomRoute where
  rules : List CustomRouteRule

/-- `routing_config` is a message in its encoded form. -/
structure RouteRule where
  enable : Bool
  priority : UInt32
  routingConfig : Option (List UInt8)

inductive LaneMatchMode where
  | strict
  | permissive
deriving DecidableEq, Repr

structure LaneRule where
  enable : Bool
  priority : UInt32
  trafficMatchRule : Option TrafficMatchRule
  labelKey : String
  defaultLabelValue : String
  matchMode : LaneMatchMode

structure LaneGroup where
  rules : List LaneRule

/-- A rule as the cache hands it out, of any type. -/
inductive CachedRule where
  | routeRule (rule : RouteRule)
  | laneGroup (group : LaneGroup)
  | other (typeId : String)

/-! ## The request -/

inductive MetadataFailoverType where
  | metadataFailoverNone
  | metadataFailoverAll
  | metadataFailoverNoKey
deriving DecidableEq, Repr

structure RouterChain where
  before : List String
  core : List String
  after : List String

/-- The metadata are the entries of the map, in the order it is walked. -/
structure RoutingInfo extends RouteInfo where
  chain : RouterChain
  metadata : List (String × String)
  metadataFailover : MetadataFailoverType

/-- What the routers use of other libraries: regular expressions, the decoding of a custom route,
the text of a type identifier, and whether a map is empty. -/
structure RouterLibrary where
  regex : RegexEngine
  decodeCustomRoute : List UInt8 → Except String CustomRoute
  typeId : CachedRule → String
  isEmpty : StringMap → Bool

/-- The answers that one router gets: to its loads and checks in turn, and for the location. -/
structure Extensions where
  loadServiceRule : Nat → ResourceEventKey → Except PoleError (ServiceRule CachedRule)
  checkResource : Nat → Except PoleError Bool
  getLocation : Location

structure RoutingContext where
  routeInfo : RoutingInfo
  extensions : Option Extensions

def RoutingContext.toRouteContext (self : RoutingContext) : RouteContext :=
  ⟨self.routeInfo.toRouteInfo, none⟩

inductive RouteFault where
  | panicked
  | failed (error : PoleError)

inductive RouteState where
  | next
  | retry
deriving DecidableEq, Repr

structure RouteResult where
  state : RouteState
  instances : ServiceInstances

/-- The loop by which the routers rebuild a list: an instance is kept by a test that may look at
the weight so far. The sums stay below the input's, and so fit their 64 bits. -/
def collect (keep : Nat → Instance → Bool) (instances : List Instance) : List Instance × Nat :=
  instances.foldl (fun (ret, totalWeight) «instance» =>
    if keep totalWeight «instance» then
      (ret ++ [«instance»], totalWeight + «instance».weight.toNat)
    else (ret, totalWeight)) ([], 0)

/-- A list that was collected for a service. -/
def collected (instances : ServiceInstances) (ret : List Instance × Nat) : ServiceInstances :=
  ⟨instances.service, ret.1, ret.2⟩

/-! ## The rule router -/

inductive Direction where
  | callee
  | caller
deriving DecidableEq, Repr

inductive RouteFailoverPolicy where
  | all
  | none
deriving DecidableEq, Repr

inductive RuleStatus where
  | noRule
  | destRuleSucc
  | destRuleFail
  | sourceRuleSucc
  | sourceRuleFail
deriving DecidableEq, Repr

/-- The rules that are enabled, by priority. -/
def decodeCustomRouteRules (library : RouterLibrary) (rules : List RouteRule) :
    Except RouteFault (List CustomRouteRule) := do
  let ordered := (rules.filter fun rule => rule.enable).insertionSort
    fun left right => left.priority ≤ right.priority
  ordered.foldlM (fun routeRules rule =>
    match rule.routingConfig with
    | none => .ok routeRules
    | some config =>
        match library.decodeCustomRoute config with
        | .error err =>
            .error (.failed (.new .invalidRule ("decode custom route rule fail: " ++ err)))
        | .ok customRoute => .ok (routeRules ++ customRoute.rules)) []

def downcastRules {α : Type} (library : RouterLibrary) (expected : String)
    (downcast : CachedRule → Option α) (rules : List CachedRule) : Except RouteFault (List α) :=
  rules.mapM fun rule =>
    match downcast rule with
    | some rule => .ok rule
    | none => .error (.failed (.new .invalidRule
        ("rule type error, expect " ++ expected ++ ", but got " ++ library.typeId rule)))

def CachedRule.downcastRouteRule : CachedRule → Option RouteRule
  | .routeRule rule => some rule
  | _ => none

def CachedRule.downcastLaneGroup : CachedRule → Option LaneGroup
  | .laneGroup group => some group
  | _ => none

def serviceRuleKey (svc : ServiceKey) (type : GovernanceType) : ResourceEventKey :=
  ⟨svc.namespaceName, .governance type, fun name =>
    if name = "service" then some svc.name else none⟩

/-- The first load of the router is for the callee, the second for the caller. -/
def fetchRule (library : RouterLibrary) (extensions : Extensions) (info : RoutingInfo)
    (dir : Direction) : Except RouteFault (List CustomRouteRule) :=
  let load :=
    match dir with
    | .callee => extensions.loadServiceRule 0 (serviceRuleKey info.callee .routerRule)
    | .caller => extensions.loadServiceRule 1 (serviceRuleKey info.caller .routerRule)
  match load with
  | .error err => .error (.failed err)
  | .ok ret => do
      let rules ← downcastRules library "RouteRule" CachedRule.downcastRouteRule ret.rules
      decodeCustomRouteRules library rules

def matchCalleeCaller (info : RoutingInfo) (rule : CustomRouteRule) : Bool :=
  rule.destinations.all fun dest =>
    (dest.service == info.callee.name || isMatchAll dest.service) &&
      (dest.namespaceName == info.callee.namespaceName || isMatchAll dest.namespaceName)

def routeTrafficMatch (library : RouterLibrary) (ctx : RoutingContext) (rule : CustomRouteRule) :
    Bool :=
  if !matchCalleeCaller ctx.routeInfo rule then false
  else
    match rule.arguments with
    | none => true
    | some arguments => trafficMatchRuleMatch library.regex ctx.toRouteContext arguments

/-- The request values that a rule captures by an empty parameter. -/
def trafficMatchRuleRequestParameters (ctx : RouteContext) (rule : TrafficMatchRule) : StringMap :=
  rule.arguments.foldl (fun parameters sourceMatch =>
    match sourceMatch.value with
    | none => parameters
    | some ruleValue =>
        if ruleValue.valueType.get ≠ .parameter ∨ ¬ ruleValue.value.isEmpty then parameters
        else
          match currentSourceValue ctx sourceMatch with
          | none => parameters
          | some value => Function.update parameters sourceMatch.key (some value)) .empty

def matchCalleeGroup (library : RouterLibrary) (dest : DestinationGroup)
    (instances : ServiceInstances) (requestParameters : StringMap) : List Instance :=
  (instances.instances.filter fun «instance» => «instance».isAvailable).filter fun «instance» =>
    if dest.service ≠ "*" ∧ dest.service ≠ «instance».service then false
    else if dest.namespaceName ≠ "*" ∧ dest.namespaceName ≠ «instance».namespaceName then false
    else
      dest.labels.all fun (key, ruleValue) =>
        match «instance».metadata key with
        | none => false
        | some actual =>
            if ruleValue.valueType.get = .parameter ∧ ruleValue.value.isEmpty then
              requestParameters key == some actual
            else matchLabelValue library.regex ruleValue actual

/-- The groups that are not isolated, by priority. -/
def filterAvailableDestinations (dests : List DestinationGroup) : List DestinationGroup :=
  (dests.filter fun dest => !dest.isolate).insertionSort
    fun a b => a.priority ≤ b.priority

/-- The first group of a rule that has an instance. -/
def firstGroup (library : RouterLibrary) (instances : ServiceInstances)
    (requestParameters : StringMap) : List DestinationGroup → List Instance
  | [] => []
  | dest :: destination =>
      let ret := matchCalleeGroup library dest instances requestParameters
      if ret.isEmpty then firstGroup library instances requestParameters destination else ret

def filterInstances (library : RouterLibrary) (ctx : RoutingContext)
    (instances : ServiceInstances) : List CustomRouteRule → List Instance
  | [] => []
  | rule :: rules =>
      if !routeTrafficMatch library ctx rule then filterInstances library ctx instances rules
      else
        let requestParameters :=
          match rule.arguments with
          | none => .empty
          | some arguments => trafficMatchRuleRequestParameters ctx.toRouteContext arguments
        let ret := firstGroup library instances requestParameters
          (filterAvailableDestinations rule.destinations)
        if ret.isEmpty then filterInstances library ctx instances rules else ret

structure RuleRouter where
  failoverPolicy : RouteFailoverPolicy

/-- The rules of the callee come first. Those of the caller are asked only where they fail, and
then decide alone. -/
def ruleStatus (library : RouterLibrary) (ctx : RoutingContext) (extensions : Extensions)
    (instances : ServiceInstances) : Except RouteFault (RuleStatus × List Instance) := do
  let calleeRules ← fetchRule library extensions ctx.routeInfo .callee
  let calleeIns := filterInstances library ctx instances calleeRules
  if !calleeIns.isEmpty then pure (.destRuleSucc, calleeIns)
  else
    let callerRules ← fetchRule library extensions ctx.routeInfo .caller
    let callerIns := filterInstances library ctx instances callerRules
    if !callerIns.isEmpty then pure (.sourceRuleSucc, callerIns)
    else if !callerRules.isEmpty then pure (.sourceRuleFail, [])
    else if !calleeRules.isEmpty then pure (.destRuleFail, [])
    else pure (.noRule, [])

def RuleRouter.chooseInstances (self : RuleRouter) (library : RouterLibrary)
    (ctx : RoutingContext) (instances : ServiceInstances) : Except RouteFault RouteResult :=
  match ctx.extensions with
  | none => .error .panicked
  | some extensions => do
      let (status, filteredIns) ← ruleStatus library ctx extensions instances
      match status with
      | .noRule => pure ⟨.next, instances⟩
      | .destRuleSucc | .sourceRuleSucc =>
          pure ⟨.next, collected instances (collect (fun _ _ => true) filteredIns)⟩
      | .destRuleFail | .sourceRuleFail =>
          match self.failoverPolicy with
          | .all => pure ⟨.next, instances⟩
          | .none => pure ⟨.next, ⟨instances.service, [], 0⟩⟩

/-! ## The lane router -/

def fetchLaneGroups (library : RouterLibrary) (extensions : Extensions) (info : RoutingInfo) :
    Except RouteFault (List LaneGroup) :=
  match extensions.loadServiceRule 0 (serviceRuleKey info.callee .laneRule) with
  | .error err => .error (.failed err)
  | .ok serviceRule =>
      downcastRules library "LaneGroup" CachedRule.downcastLaneGroup serviceRule.rules

/-- The first rule that the request matches decides, with or without a lane instance. -/
def firstLane (library : RouterLibrary) (ctx : RoutingContext) (instances : ServiceInstances) :
    List LaneRule → ServiceInstances
  | [] => instances
  | rule :: rules =>
      match rule.trafficMatchRule with
      | none => firstLane library ctx instances rules
      | some trafficMatchRule =>
          if !trafficMatchRuleMatch library.regex ctx.toRouteContext trafficMatchRule then
            firstLane library ctx instances rules
          else
            let labelKey := if rule.labelKey.isEmpty then "lane" else rule.labelKey
            let filtered := (instances.instances.filter fun «instance» =>
              «instance».isAvailable).filter fun «instance» =>
                «instance».metadata labelKey == some rule.defaultLabelValue
            if !filtered.isEmpty then .new instances.service filtered
            else
              match rule.matchMode with
              | .permissive => instances
              | .strict => .new instances.service []

def filterInstancesByLaneGroups (library : RouterLibrary) (ctx : RoutingContext)
    (instances : ServiceInstances) (laneGroups : List LaneGroup) : ServiceInstances :=
  firstLane library ctx instances
    (((laneGroups.flatMap fun group => group.rules).filter fun rule => rule.enable).insertionSort
      fun a b => a.priority ≤ b.priority)

def LaneRouter.chooseInstances (library : RouterLibrary) (ctx : RoutingContext)
    (instances : ServiceInstances) : Except RouteFault RouteResult :=
  match ctx.extensions with
  | none => pure ⟨.next, instances⟩
  | some extensions => do
      let laneGroups ← fetchLaneGroups library extensions ctx.routeInfo
      if laneGroups.isEmpty then pure ⟨.next, instances⟩
      else pure ⟨.next, filterInstancesByLaneGroups library ctx instances laneGroups⟩

/-! ## The metadata router -/

/-- The entries of the request that an instance has, up to the first it contradicts. -/
def matchCount (metadata : StringMap) : List (String × String) → Nat
  | [] => 0
  | (key, value) :: reqMeta =>
      match metadata key with
      | none => matchCount metadata reqMeta
      | some v => if v = value then matchCount metadata reqMeta + 1 else 0

def parseCustomFailoverType (v : String) : MetadataFailoverType :=
  if v = "none" then .metadataFailoverNone
  else if v = "all" then .metadataFailoverAll
  else if v = "others" then .metadataFailoverNoKey
  else .metadataFailoverNone

def MetadataRouter.chooseInstances (library : RouterLibrary) (ctx : RoutingContext)
    (instances : ServiceInstances) : Except RouteFault RouteResult :=
  let svcInfo := instances.service
  let failoverType :=
    match svcInfo.metadata "internal-metadata-failover-type" with
    | some customFailoverType => parseCustomFailoverType customFailoverType
    | none => ctx.routeInfo.metadataFailover
  let reqMeta := ctx.routeInfo.metadata
  let ret := collect (fun _ «instance» =>
    let count := matchCount «instance».metadata reqMeta
    decide (count ≠ 0 ∧ count = reqMeta.length)) instances.instances
  if !ret.1.isEmpty then pure ⟨.next, collected instances ret⟩
  else
    match failoverType with
    | .metadataFailoverAll =>
        pure ⟨.next, collected instances (collect (fun _ _ => true) instances.instances)⟩
    | .metadataFailoverNoKey =>
        pure ⟨.next, collected instances (collect (fun _ «instance» =>
          let existMeta := !library.isEmpty «instance».metadata ||
            reqMeta.any fun entry => («instance».metadata entry.1).isSome
          !existMeta) instances.instances)⟩
    | .metadataFailoverNone =>
        .error (.failed (.new .metadataMismatch
          ("can not find any instance by service namespace(" ++ svcInfo.namespaceName ++
            ") name(" ++ svcInfo.name ++ ")")))

/-! ## The nearby router -/

def matchLevel : String → Option Nat
  | "unknown" => some 0
  | "campus" => some 1
  | "zone" => some 2
  | "region" => some 3
  | "all" => some 4
  | _ => none

def orderMatchLevel : Nat → Option String
  | 0 => some "unknown"
  | 1 => some "campus"
  | 2 => some "zone"
  | 3 => some "region"
  | 4 => some "all"
  | _ => none

structure NearbyRouter where
  strictNearby : Bool
  matchLevel : String
  maxMatchLevel : String
  enableDegradeUnhealthyPercent : Bool
  unhealthyPercentToDegrade : UInt16

namespace NearbyRouter

/-- The second part counts the healthy instances. -/
def selectInstances (localLoc : Location) (level : String) (instances : ServiceInstances) :
    ServiceInstances × UInt32 :=
  let ret := collect (fun _ ins =>
    if level = "campus" then localLoc.campus = "" || ins.location.campus = localLoc.campus
    else if level = "zone" then localLoc.zone = "" || ins.location.zone = localLoc.zone
    else if level = "region" then localLoc.region = "" || ins.location.region = localLoc.region
    else true) instances.instances
  (collected instances ret, .ofNat (ret.1.countP fun ins => ins.health))

/-- The arithmetic wraps, as in a release build; a division by zero panics. -/
def shouldDegrade (self : NearbyRouter) (level : String) (instances : ServiceInstances)
    (healthCnt : UInt32) : Except RouteFault Bool :=
  if !self.enableDegradeUnhealthyPercent || level == "all" then .ok false
  else if instances.instances.isEmpty then .ok true
  else
    let len : UInt32 := .ofNat instances.instances.length
    let unhealthyCnt := len - healthCnt
    if len = 0 then .error .panicked
    else .ok (decide (unhealthyCnt * 100 / len ≥ self.unhealthyPercentToDegrade.toUInt32))

/-- The levels from `i` on, up to the first that need not be degraded; with the list of the last
level that has instances. -/
def chooseLevel (self : NearbyRouter) (location : Location) (instances : ServiceInstances) :
    List Nat → String × Option ServiceInstances →
      Except RouteFault (String × Option ServiceInstances)
  | [], state => .ok state
  | i :: levels, (_, retIns) =>
      match orderMatchLevel i with
      | none => .error .panicked
      | some curMatchLevel => do
          let (tmpIns, healthCnt) := selectInstances location curMatchLevel instances
          if tmpIns.instances.isEmpty then
            chooseLevel self location instances levels (curMatchLevel, retIns)
          else
            let degrade ← self.shouldDegrade curMatchLevel tmpIns healthCnt
            if degrade then
              chooseLevel self location instances levels (curMatchLevel, some tmpIns)
            else pure (curMatchLevel, some tmpIns)

def chooseInstancesWithLocation (self : NearbyRouter) (location : Location)
    (instances : ServiceInstances) : Except RouteFault RouteResult :=
  let minAvailableLevel := if self.matchLevel.isEmpty then "zone" else self.matchLevel
  let maxMatchLevel := if self.strictNearby then minAvailableLevel else self.maxMatchLevel
  let maxMatchLevel := if maxMatchLevel.isEmpty then "all" else maxMatchLevel
  match PoleClient.matchLevel minAvailableLevel, PoleClient.matchLevel maxMatchLevel with
  | some minLevelOrd, some maxLevelOrd =>
      if minLevelOrd > maxLevelOrd then
        let (retIns, _) := selectInstances location minAvailableLevel instances
        if retIns.instances.isEmpty then .error (.failed (.new .locationMismatch ""))
        else .ok ⟨.next, retIns⟩
      else do
        let (curLevel, retIns) ← self.chooseLevel location instances
          (List.range' minLevelOrd (maxLevelOrd + 1 - minLevelOrd)) (minAvailableLevel, none)
        match retIns with
        | none => .error (.failed (.new .locationMismatch
            ("can not find any instance by level " ++ curLevel)))
        | some retIns => .ok ⟨.next, retIns⟩
  | _, _ => .error .panicked

def chooseInstances (self : NearbyRouter) (ctx : RoutingContext) (instances : ServiceInstances) :
    Except RouteFault RouteResult :=
  match ctx.extensions with
  | none => .error .panicked
  | some extensions => self.chooseInstancesWithLocation extensions.getLocation instances

end NearbyRouter

/-! ## The health router -/

/-- The available instances are checked in turn; only an error of a check has an effect. -/
def checkInstances (extensions : Extensions) : Nat → List Instance → Except RouteFault Unit
  | _, [] => .ok ()
  | number, ins :: instances =>
      if !ins.isAvailable then checkInstances extensions number instances
      else
        match extensions.checkResource number with
        | .error e => .error (.failed e)
        | .ok _ => checkInstances extensions (number + 1) instances

def HealthRouter.chooseInstances (ctx : RoutingContext) (instances : ServiceInstances) :
    Except RouteFault RouteResult :=
  match ctx.extensions with
  | none => .error .panicked
  | some extensions => do
      checkInstances extensions 0 instances.instances
      pure ⟨.next, collected instances (collect (fun totalWeight «instance» =>
        «instance».isAvailable || decide (totalWeight = 0)) instances.instances)⟩

/-! ## The flow -/

/-- A built-in router with its configuration. -/
inductive ServiceRouter where
  | rule (router : RuleRouter)
  | lane
  | metadata
  | nearby (router : NearbyRouter)
  | health

def ServiceRouter.chooseInstances (library : RouterLibrary) (ctx : RoutingContext)
    (instances : ServiceInstances) : ServiceRouter → Except RouteFault RouteResult
  | .rule router => router.chooseInstances library ctx instances
  | .lane => LaneRouter.chooseInstances library ctx instances
  | .metadata => MetadataRouter.chooseInstances library ctx instances
  | .nearby router => router.chooseInstances ctx instances
  | .health => HealthRouter.chooseInstances ctx instances

structure RouterContainer where
  beforeRouters : String → Option ServiceRouter
  coreRouters : String → Option ServiceRouter
  afterRouters : String → Option ServiceRouter

/-- The routers in turn, on what the one before has left, with the answers for each. -/
def runRouters (library : RouterLibrary) (routeInfo : RoutingInfo) (extensions : Nat → Extensions) :
    Nat → List ServiceRouter → ServiceInstances → Except RouteFault ServiceInstances
  | _, [], tmpInstance => .ok tmpInstance
  | number, ele :: routers, tmpInstance => do
      let ret ← ele.chooseInstances library ⟨routeInfo, some (extensions number)⟩ tmpInstance
      runRouters library routeInfo extensions (number + 1) routers ret.instances

/-- `RouterFlow::choose_instances`. Names without a router are passed over. -/
def RouterFlow.chooseInstances (library : RouterLibrary) (container : RouterContainer)
    (extensions : Nat → Extensions) (routeInfo : RoutingInfo) (instances : ServiceInstances) :
    Except RouteFault ServiceInstances := do
  let before := routeInfo.chain.before.filterMap container.beforeRouters
  let core := routeInfo.chain.core.filterMap container.coreRouters
  let after := routeInfo.chain.after.filterMap container.afterRouters
  let tmpInstance ← runRouters library routeInfo extensions 0 before instances
  let tmpInstance ← runRouters library routeInfo extensions before.length core tmpInstance
  runRouters library routeInfo extensions (before.length + core.length) after tmpInstance

end PoleClient
