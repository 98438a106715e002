import Mathlib.Logic.Function.Basic
import PoleClient.Core.Model
import PoleClient.Core.Naming

/-! # Data of the resource cache

The responses of the server, the keys they are watched under, and the cache
items. Rules of all kinds are messages that the cache stores as they are; the
type `ρ` stands for them.
-/

namespace PoleClient.Cache

/-! ## Keys -/

/-- The kinds of rules that are cached for a service, each in a map of its own. -/
inductive GovernanceType where
  | routerRule
  | circuitBreakerRule
  | rateLimitRule
  | faultDetectRule
  | laneRule
  | losslessRule
  | trafficSecurityRule
  | trafficMirrorRule
  | trafficMockRule
deriving DecidableEq, Repr

inductive EventType where
  | unknown
  | «instance»
  | governance (type : GovernanceType)
  | service
  | serviceContract
  | serviceIdentity
  | serviceIdentityBundle
  | namespaces
  | configFile
  | configGroup
  | configGroups
deriving DecidableEq, Repr

structure ResourceEventKey where
  namespaceName : String
  eventType : EventType
  filter : StringMap

structure Filter where
  resourceKey : ResourceEventKey
  includeCache : Bool

def Filter.getEventType (self : Filter) : EventType := self.resourceKey.eventType

/-! ## Responses -/

variable (ρ : Type)

structure DiscoverResponse where
  service : Option SpecService
  instances : List SpecInstance
  customRouteRules : List ρ
  circuitBreaker : List ρ
  rateLimit : List ρ
  faultDetectRules : List ρ
  lanes : List ρ
  losslessRules : List ρ
  trafficSecurityRules : List ρ
  trafficMirrorRules : List ρ
  trafficMockRules : List ρ

/-- A client label with its matcher, as the release carries it. -/
structure ClientLabel where
  key : String
  value : Option MatchString
deriving DecidableEq, Repr

structure ConfigFileRelease where
  name : String
  namespaceName : String
  group : String
  fileName : String
  version : UInt64
  content : String
  labels : StringMap
  releaseType : String
  active : Bool
  betaLabels : List ClientLabel
  encryptAlgo : String

instance : Inhabited ConfigFileRelease := ⟨⟨"", "", "", "", 0, "", .empty, "", false, [], ""⟩⟩

structure ConfigDiscoverResponse where
  revision : String
  file : Option ConfigFileRelease
  fileNames : List ConfigFileRelease

structure RemoteData where
  eventKey : ResourceEventKey
  discoverValue : Option (DiscoverResponse ρ)
  configValue : Option ConfigDiscoverResponse

variable {ρ}

/-- The list of a response that holds the rules of one kind. -/
def DiscoverResponse.rules (self : DiscoverResponse ρ) : GovernanceType → List ρ
  | .routerRule => self.customRouteRules
  | .circuitBreakerRule => self.circuitBreaker
  | .rateLimitRule => self.rateLimit
  | .faultDetectRule => self.faultDetectRules
  | .laneRule => self.lanes
  | .losslessRule => self.losslessRules
  | .trafficSecurityRule => self.trafficSecurityRules
  | .trafficMirrorRule => self.trafficMirrorRules
  | .trafficMockRule => self.trafficMockRules

/-! ## Configuration files -/

structure ConfigFile where
  namespaceName : String
  group : String
  name : String
  version : UInt64
  content : String
  labels : StringMap
  releaseName : String
  releaseType : String
  active : Bool
  betaLabels : List ClientLabel
  encryptAlgo : String
  encryptKey : String

def getEncryptDataKey (file : ConfigFileRelease) : String :=
  (file.labels "internal-datakey").getD ""

def getEncryptAlgo (file : ConfigFileRelease) : String :=
  (file.labels "internal-encryptalgo").getD ""

def ConfigFile.convertFromSpec (f : ConfigFileRelease) : ConfigFile where
  namespaceName := f.namespaceName
  group := f.group
  name := f.fileName
  version := f.version
  content := f.content
  labels := f.labels
  releaseName := f.name
  releaseType := f.releaseType
  active := f.active
  betaLabels := f.betaLabels
  encryptAlgo := getEncryptAlgo f
  encryptKey := getEncryptDataKey f

/-! ## Cache items -/

structure ServicesCacheItem where
  initialized : Bool
  namespaceName : String
  value : List ServiceInfo
  revision : String

def ServicesCacheItem.new : ServicesCacheItem := ⟨false, "", [], ""⟩

structure ServiceInstancesCacheItem where
  initialized : Bool
  svcInfo : SpecService
  value : List Instance
  availableInstances : List Instance
  totalWeight : Nat
  revision : String

namespace ServiceInstancesCacheItem

def new : ServiceInstancesCacheItem := ⟨false, default, [], [], 0, ""⟩

def listInstances (self : ServiceInstancesCacheItem) (onlyAvailable : Bool) : List Instance :=
  if onlyAvailable then self.availableInstances else self.value

def getServiceInfo (self : ServiceInstancesCacheItem) : ServiceInfo where
  id := self.svcInfo.id
  namespaceName := self.svcInfo.namespaceName
  name := self.svcInfo.name
  metadata := self.svcInfo.metadata
  revision := self.svcInfo.revision

end ServiceInstancesCacheItem

variable (ρ) in
/-- The items of all rule kinds have these fields. -/
structure RulesCacheItem where
  initialized : Bool
  revision : String
  value : List ρ

def RulesCacheItem.new : RulesCacheItem ρ := ⟨false, "", []⟩

structure ConfigFileCacheItem where
  initialized : Bool
  value : ConfigFileRelease
  revision : String

def ConfigFileCacheItem.new : ConfigFileCacheItem := ⟨false, default, ""⟩

structure ConfigGroupCacheItem where
  initialized : Bool
  namespaceName : String
  group : String
  files : List ConfigFile
  revision : String

def ConfigGroupCacheItem.new : ConfigGroupCacheItem := ⟨false, "", "", [], ""⟩

variable (ρ) in
/-- What a listener is told. -/
inductive CacheItemType where
  | unknown
  | «instance» (item : ServiceInstancesCacheItem)
  | governance (type : GovernanceType) (item : RulesCacheItem ρ)
  | configFile (item : ConfigFileCacheItem)
  | configGroup (item : ConfigGroupCacheItem)

variable (ρ) in
structure ServerEvent where
  eventKey : ResourceEventKey
  value : CacheItemType ρ

end PoleClient.Cache
