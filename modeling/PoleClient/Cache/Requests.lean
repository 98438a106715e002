import PoleClient.Cache.Model
import PoleClient.Core.Text

/-! # Keys as texts and as requests

A resource key has a text, under which its watch is registered, and a request,
which is sent for it. Both read the filter of the key, and a value that is
missing there is a panic.
-/

namespace PoleClient.Cache

/-- `Option::unwrap` on an absent value. -/
inductive Panic where
  | unwrapNone
deriving DecidableEq, Repr

def unwrap {α : Type} : Option α → Except Panic α
  | none => .error .unwrapNone
  | some a => .ok a

/-! ## Texts -/

def GovernanceType.name : GovernanceType → String
  | .routerRule => "RouterRule"
  | .circuitBreakerRule => "CircuitBreakerRule"
  | .rateLimitRule => "RateLimitRule"
  | .faultDetectRule => "FaultDetectRule"
  | .laneRule => "LaneRule"
  | .losslessRule => "LosslessRule"
  | .trafficSecurityRule => "TrafficSecurityRule"
  | .trafficMirrorRule => "TrafficMirrorRule"
  | .trafficMockRule => "TrafficMockRule"

/-- The form that `{:?}` writes: the name of the variant. -/
def EventType.debug : EventType → String
  | .unknown => "Unknown"
  | .«instance» => "Instance"
  | .governance type => type.name
  | .service => "Service"
  | .serviceContract => "ServiceContract"
  | .serviceIdentity => "ServiceIdentity"
  | .serviceIdentityBundle => "ServiceIdentityBundle"
  | .namespaces => "Namespaces"
  | .configFile => "ConfigFile"
  | .configGroup => "ConfigGroup"
  | .configGroups => "ConfigGroups"

/-- `EventType::to_string`. -/
def EventType.toText : EventType → String
  | .unknown => "unknown"
  | .«instance» => "Instance"
  | .governance type => type.name
  | .service => "Service"
  | .serviceContract => "ServiceContract"
  | .serviceIdentity => "ServiceIdentity"
  | .serviceIdentityBundle => "ServiceIdentityBundle"
  | .namespaces => "Namespaces"
  | .configFile => "ConfigFile"
  | .configGroup => "ConfigGroup"
  | .configGroups => "ConfigGroups"

/-- `ResourceEventKey::to_string`. -/
def ResourceEventKey.toText (self : ResourceEventKey) : Except Panic String :=
  let start := self.eventType.toText ++ "#" ++ self.namespaceName ++ "#"
  match self.eventType with
  | .configFile => do
      let group ← unwrap (self.filter "group")
      let file ← unwrap (self.filter "file")
      return start ++ group ++ "#" ++ file
  | .configGroup => do
      let group ← unwrap (self.filter "group")
      return start ++ group
  | _ => do
      let service ← unwrap (self.filter "service")
      return start ++ service

/-! ## Discover requests -/

inductive DiscoverRequestType where
  | «instance»
  | customRouteRule
  | circuitBreaker
  | rateLimit
  | services
  | faultDetector
  | lane
  | lossless
  | trafficSecurityRule
  | trafficMirrorRule
  | trafficMockRule
  | serviceIdentity
  | serviceIdentityBundle
deriving DecidableEq, Repr

structure Caller where
  labels : List ClientLabel
deriving DecidableEq, Repr

structure DiscoverFilter where
  caller : Option Caller
deriving DecidableEq, Repr

instance : Inhabited DiscoverFilter := ⟨⟨none⟩⟩

structure TrustBundleQuery where
  knownVersion : String
  knownSequence : UInt64
deriving DecidableEq, Repr

structure DiscoverRequest where
  type : DiscoverRequestType
  service : Option SpecService
  filter : Option DiscoverFilter
  trustBundleQuery : Option TrustBundleQuery

def ResourceEventKey.toSpecService (self : ResourceEventKey) (revision : String) :
    Except Panic SpecService := do
  let svc ← unwrap (self.filter "service")
  return { (default : SpecService) with
    namespaceName := self.namespaceName
    name := svc
    revision := revision }

/-- The request of all types but the trust bundle's. -/
def ResourceEventKey.serviceRequest (self : ResourceEventKey) (type : DiscoverRequestType)
    (revision : String) : Except Panic (Option DiscoverRequest) := do
  let service ← self.toSpecService revision
  return some {
    type := type
    service := some service
    filter := some default
    trustBundleQuery := none }

def GovernanceType.requestType : GovernanceType → DiscoverRequestType
  | .routerRule => .customRouteRule
  | .circuitBreakerRule => .circuitBreaker
  | .rateLimitRule => .rateLimit
  | .faultDetectRule => .faultDetector
  | .laneRule => .lane
  | .losslessRule => .lossless
  | .trafficSecurityRule => .trafficSecurityRule
  | .trafficMirrorRule => .trafficMirrorRule
  | .trafficMockRule => .trafficMockRule

def ResourceEventKey.toDiscoverRequest (self : ResourceEventKey) (revision : String) :
    Except Panic (Option DiscoverRequest) :=
  match self.eventType with
  | .«instance» => self.serviceRequest .«instance» revision
  | .governance type => self.serviceRequest type.requestType revision
  | .service => self.serviceRequest .services revision
  | .serviceIdentity => self.serviceRequest .serviceIdentity revision
  | .serviceIdentityBundle => .ok (some {
      type := .serviceIdentityBundle
      service := none
      filter := none
      trustBundleQuery := some {
        knownVersion := revision
        knownSequence := ((self.filter "sequence").bind Text.parseU64).getD 0 } })
  | _ => .ok none

/-! ## Config requests -/

inductive ConfigDiscoverRequestType where
  | configFile
  | configFileNames
deriving DecidableEq, Repr

/-- The file of a request; of its other fields all are left at their defaults. -/
structure SpecConfigFile where
  namespaceName : String
  group : String
  name : String
deriving DecidableEq, Repr

structure ConfigDiscoverRequest where
  type : ConfigDiscoverRequestType
  file : Option SpecConfigFile
  revision : String
deriving DecidableEq, Repr

def ResourceEventKey.toSpecConfigFile (self : ResourceEventKey) : Except Panic SpecConfigFile := do
  let group ← unwrap (self.filter "group")
  let fileName ← unwrap (self.filter "file")
  return ⟨self.namespaceName, group, fileName⟩

def ResourceEventKey.toSpecConfigGroup (self : ResourceEventKey) :
    Except Panic SpecConfigFile := do
  let group ← unwrap (self.filter "group")
  return ⟨self.namespaceName, group, ""⟩

def ResourceEventKey.toConfigRequest (self : ResourceEventKey) (revision : String) :
    Except Panic (Option ConfigDiscoverRequest) :=
  match self.eventType with
  | .configFile => do
      let file ← self.toSpecConfigFile
      return some ⟨.configFile, some file, revision⟩
  | .configGroup => do
      let file ← self.toSpecConfigGroup
      return some ⟨.configFileNames, some file, revision⟩
  | _ => .ok none

/-! ## What a built request tells about the key -/

theorem service_of_serviceRequest {key : ResourceEventKey} {type : DiscoverRequestType}
    {revision : String} {request : DiscoverRequest}
    (built : key.serviceRequest type revision = .ok (some request)) :
    ∃ service, key.filter "service" = some service ∧ request.type = type := by
  unfold ResourceEventKey.serviceRequest ResourceEventKey.toSpecService at built
  cases hservice : key.filter "service" with
  | none =>
      rw [hservice] at built
      cases built
  | some service =>
      rw [hservice] at built
      cases built
      exact ⟨service, rfl, rfl⟩

end PoleClient.Cache
