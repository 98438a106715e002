import PoleClient.Cache.Lists
import PoleClient.Connector.Watch
import PoleClient.Core.Joined
import PoleClient.Lib.Run

/-! # The failover files

Responses are kept on disk for the time without a server. A response is saved
under the names that it carries, and loaded under those of the requested key.
-/

namespace PoleClient.Cache

open Lib

variable {ρ β : Type}

/-! ## File names -/

def GovernanceType.toPersistFile : GovernanceType → String
  | .routerRule => "router_rule.data"
  | .circuitBreakerRule => "circuit_breaker_rule.data"
  | .rateLimitRule => "rate_limit_rule.data"
  | .faultDetectRule => "fault_detect_rule.data"
  | .laneRule => "lane_rule.data"
  | .losslessRule => "lossless_rule.data"
  | .trafficSecurityRule => "traffic_security_rule.data"
  | .trafficMirrorRule => "traffic_mirror_rule.data"
  | .trafficMockRule => "traffic_mock_rule.data"

def EventType.toPersistFile : EventType → String
  | .«instance» => "instance.data"
  | .governance type => type.toPersistFile
  | .service => "service.data"
  | .serviceContract => "service_contract.data"
  | .serviceIdentity => "unknown"
  | .serviceIdentityBundle => "unknown"
  | .namespaces => "namespaces.data"
  | .configFile => "config_file.data"
  | .configGroup => "config_group.data"
  | _ => "unknown"

def namingSpecToPersistFile : Connector.DiscoverResponseType → String
  | .«instance» => "instance.data"
  | .customRouteRule => "router_rule.data"
  | .circuitBreaker => "circuit_breaker_rule.data"
  | .rateLimit => "rate_limit_rule.data"
  | .services => "service.data"
  | .faultDetector => "fault_detect_rule.data"
  | .lane => "lane_rule.data"
  | .lossless => "lossless_rule.data"
  | .trafficSecurityRule => "traffic_security_rule.data"
  | .trafficMirrorRule => "traffic_mirror_rule.data"
  | .trafficMockRule => "traffic_mock_rule.data"
  | .namespaces => "namespaces.data"
  | _ => "unknown"

/-- The choice of a file: a missing part panics, a type without a file is an error. -/
inductive FileChoice where
  | panicked
  | unsupported
  | file (persistFile : String)
deriving DecidableEq

def namingLoadFile (persistDir : String) (key : ResourceEventKey) : FileChoice :=
  match key.eventType with
  | .service => .file (persistDir ++ "/svc#" ++ key.namespaceName ++ "#services.data")
  | .«instance» | .governance _ =>
      match key.filter "service" with
      | none => .panicked
      | some service =>
          .file (persistDir ++ "/svc#" ++ key.namespaceName ++ "#" ++ service ++ "#" ++
            key.eventType.toPersistFile)
  | _ => .unsupported

def namingSaveFile (persistDir : String) (value : Connector.DiscoverResponse ρ) : FileChoice :=
  match value.service with
  | none => .panicked
  | some svc =>
      match value.type with
      | .services => .file (persistDir ++ "/svc#" ++ svc.namespaceName ++ "#services.data")
      | .«instance» | .customRouteRule | .rateLimit | .circuitBreaker | .faultDetector | .lane
      | .lossless | .trafficSecurityRule | .trafficMirrorRule | .trafficMockRule =>
          .file (persistDir ++ "/svc#" ++ svc.namespaceName ++ "#" ++ svc.name ++ "#" ++
            namingSpecToPersistFile value.type)
      | _ => .unsupported

def configLoadFile (persistDir : String) (key : ResourceEventKey) : FileChoice :=
  match key.eventType with
  | .configFile =>
      match key.filter "group", key.filter "file" with
      | some group, some file =>
          .file (persistDir ++ "/config#" ++ key.namespaceName ++ "#" ++ group ++ "#" ++ file ++
            "#config_file.data")
      | _, _ => .panicked
  | .configGroup =>
      match key.filter "group" with
      | none => .panicked
      | some group =>
          .file (persistDir ++ "/config#" ++ key.namespaceName ++ "#" ++ group ++
            "#config_group.data")
  | _ => .unsupported

/-- The release whose names a configuration response is saved under. -/
def savedConf (value : Connector.ConfigDiscoverResponse) : ConfigFileRelease :=
  (value.file.or value.fileNames.head?).getD default

def configSaveFile (persistDir : String) (value : Connector.ConfigDiscoverResponse) : FileChoice :=
  match value.type with
  | .configFile =>
      .file (persistDir ++ "/config#" ++ (savedConf value).namespaceName ++ "#" ++
        (savedConf value).group ++ "#" ++ (savedConf value).fileName ++ "#config_file.data")
  | .configFileNames =>
      .file (persistDir ++ "/config#" ++ (savedConf value).namespaceName ++ "#" ++
        (savedConf value).group ++ "#config_group.data")
  | _ => .unsupported

/-! ## Loads and saves -/

/-- The wire format of a message. -/
structure Codec (α β : Type) where
  encode : α → β
  decode : β → Except String α
  decode_encode : ∀ value, decode (encode value) = .ok value

variable (ρ β) in
/-- The formats of the responses, and how the platform prints a path and the error of a file that
is not there. -/
structure Platform where
  naming : Codec (Connector.DiscoverResponse ρ) β
  config : Codec Connector.ConfigDiscoverResponse β
  debug : String → String
  notFound : String

structure LocalCacheConfig where
  persistEnable : Bool
  persistDir : String

variable (β) in
abbrev Files : Type := String → Option β

def noFiles : Files β := fun _ => none

def readFile {α : Type} (codec : Codec α β) (platform : Platform ρ β) (files : Files β)
    (persistFile : String) : Except PoleError α :=
  match files persistFile with
  | none => .error (.new .internalError
      ("open file:" ++ platform.debug persistFile ++ " error: " ++ platform.notFound))
  | some buf =>
      match codec.decode buf with
      | .ok value => .ok value
      | .error e => .error (.new .internalError
          ("decode file:" ++ platform.debug persistFile ++ " error: " ++ e))

def loadFile {α : Type} (conf : LocalCacheConfig) (platform : Platform ρ β) (codec : Codec α β)
    (files : Files β) (choice : FileChoice) : LoadResult α :=
  if ¬ conf.persistEnable then
    .done (.error (.new .internalError "local cache persistence is disabled"))
  else
    match choice with
    | .panicked => .panicked
    | .unsupported => .done (.error (.new .internalError "unsupported event type"))
    | .file persistFile => .done (readFile codec platform files persistFile)

def failoverNamingLoad (conf : LocalCacheConfig) (platform : Platform ρ β) (files : Files β)
    (key : ResourceEventKey) : LoadResult (Connector.DiscoverResponse ρ) :=
  loadFile conf platform platform.naming files (namingLoadFile conf.persistDir key)

def failoverConfigLoad (conf : LocalCacheConfig) (platform : Platform ρ β) (files : Files β)
    (key : ResourceEventKey) : LoadResult Connector.ConfigDiscoverResponse :=
  loadFile conf platform platform.config files (configLoadFile conf.persistDir key)

def saveFile {α : Type} (conf : LocalCacheConfig) (codec : Codec α β) (files : Files β) (value : α)
    (choice : FileChoice) (unsupported : String) : LoadResult Unit × Files β :=
  if ¬ conf.persistEnable then (.done (.ok ()), files)
  else
    match choice with
    | .panicked => (.panicked, files)
    | .unsupported => (.done (.error (.new .internalError unsupported)), files)
    | .file persistFile =>
        (.done (.ok ()), Function.update files persistFile (some (codec.encode value)))

def saveNamingFailover (conf : LocalCacheConfig) (platform : Platform ρ β) (files : Files β)
    (value : Connector.DiscoverResponse ρ) : LoadResult Unit × Files β :=
  saveFile conf platform.naming files value (namingSaveFile conf.persistDir value)
    "unsupported discover response type"

def saveConfigFailover (conf : LocalCacheConfig) (platform : Platform ρ β) (files : Files β)
    (value : Connector.ConfigDiscoverResponse) : LoadResult Unit × Files β :=
  saveFile conf platform.config files value (configSaveFile conf.persistDir value)
    "unsupported config response type"

/-! ## Resources -/

inductive FailoverResource where
  | services (namespaceName : String)
  | «instance» (namespaceName service : String)
  | governance (type : GovernanceType) (namespaceName service : String)
  | configFile (namespaceName group file : String)
  | configGroup (namespaceName group : String)
deriving DecidableEq

def ResourceEventKey.failoverResource (self : ResourceEventKey) : Option FailoverResource :=
  match self.eventType with
  | .service => some (.services self.namespaceName)
  | .«instance» =>
      (self.filter "service").map fun service => .«instance» self.namespaceName service
  | .governance type =>
      (self.filter "service").map fun service => .governance type self.namespaceName service
  | .configFile => do
      let group ← self.filter "group"
      let file ← self.filter "file"
      pure (.configFile self.namespaceName group file)
  | .configGroup =>
      (self.filter "group").map fun group => .configGroup self.namespaceName group
  | _ => none

variable (ρ) in
inductive FailoverResponse where
  | naming (value : Connector.DiscoverResponse ρ)
  | config (value : Connector.ConfigDiscoverResponse)

def GovernanceType.responseType : GovernanceType → Connector.DiscoverResponseType
  | .routerRule => .customRouteRule
  | .circuitBreakerRule => .circuitBreaker
  | .rateLimitRule => .rateLimit
  | .faultDetectRule => .faultDetector
  | .laneRule => .lane
  | .losslessRule => .lossless
  | .trafficSecurityRule => .trafficSecurityRule
  | .trafficMirrorRule => .trafficMirrorRule
  | .trafficMockRule => .trafficMockRule

def releases (value : Connector.ConfigDiscoverResponse) : List ConfigFileRelease :=
  value.file.toList ++ value.fileNames

def IsServiceAnswer (type : Connector.DiscoverResponseType) (namespaceName service : String)
    (value : Connector.DiscoverResponse ρ) : Prop :=
  value.type = type ∧ ∃ svc, value.service = some svc ∧ svc.namespaceName = namespaceName ∧
    svc.name = service

/-- The response is one for the resource: of its type, and naming no other. -/
def Answers : FailoverResource → FailoverResponse ρ → Prop
  | .services namespaceName, .naming value =>
      ∃ service, IsServiceAnswer .services namespaceName service value
  | .«instance» namespaceName service, .naming value =>
      IsServiceAnswer .«instance» namespaceName service value
  | .governance type namespaceName service, .naming value =>
      IsServiceAnswer type.responseType namespaceName service value
  | .configFile namespaceName group file, .config value =>
      value.type = .configFile ∧ ∀ release ∈ releases value,
        release.namespaceName = namespaceName ∧ release.group = group ∧ release.fileName = file
  | .configGroup namespaceName group, .config value =>
      value.type = .configFileNames ∧ ∀ release ∈ releases value,
        release.namespaceName = namespaceName ∧ release.group = group
  | _, _ => False

variable (ρ) in
/-- A response that is saved, with the resource it was received for. -/
structure FailoverSave where
  resource : FailoverResource
  response : FailoverResponse ρ

def failoverSave (conf : LocalCacheConfig) (platform : Platform ρ β) (files : Files β)
    (save : FailoverSave ρ) : Files β :=
  match save.response with
  | .naming value => (saveNamingFailover conf platform files value).2
  | .config value => (saveConfigFailover conf platform files value).2

def failoverLoad (conf : LocalCacheConfig) (platform : Platform ρ β) (files : Files β)
    (key : ResourceEventKey) : LoadResult (FailoverResponse ρ) :=
  match key.eventType with
  | .configFile | .configGroup =>
      match failoverConfigLoad conf platform files key with
      | .panicked => .panicked
      | .done result => .done (result.map .config)
  | _ =>
      match failoverNamingLoad conf platform files key with
      | .panicked => .panicked
      | .done result => .done (result.map .naming)

def lastSaved (saves : List (FailoverSave ρ)) (resource : FailoverResource) :
    Option (FailoverResponse ρ) :=
  ((saves.filter fun save => save.resource = resource).getLast?).map FailoverSave.response

/-- Every load gives the last response saved for its resource, or an error. -/
def RoundTrips (conf : LocalCacheConfig) (platform : Platform ρ β)
    (saves : List (FailoverSave ρ)) : Prop :=
  ∀ key resource, key.failoverResource = some resource →
    match lastSaved saves resource with
    | some response =>
        failoverLoad conf platform (run (failoverSave conf platform) noFiles saves) key =
          .done (.ok response)
    | none => ∃ error,
        failoverLoad conf platform (run (failoverSave conf platform) noFiles saves) key =
          .done (.error error)

/-! ## The file of a resource -/

inductive FailoverKind where
  | services
  | «instance»
  | governance (type : GovernanceType)
  | configFile
  | configGroup
deriving DecidableEq

namespace FailoverKind

def start : FailoverKind → String
  | services | «instance» | governance _ => "/svc#"
  | configFile | configGroup => "/config#"

def suffix : FailoverKind → String
  | services => "services.data"
  | «instance» => "instance.data"
  | governance type => type.toPersistFile
  | configFile => "config_file.data"
  | configGroup => "config_group.data"

end FailoverKind

namespace FailoverResource

def names : FailoverResource → List String
  | services namespaceName => [namespaceName]
  | «instance» namespaceName service => [namespaceName, service]
  | governance _ namespaceName service => [namespaceName, service]
  | configFile namespaceName group file => [namespaceName, group, file]
  | configGroup namespaceName group => [namespaceName, group]

def kind : FailoverResource → FailoverKind
  | services _ => .services
  | «instance» .. => .«instance»
  | governance type .. => .governance type
  | configFile .. => .configFile
  | configGroup .. => .configGroup

def file (persistDir : String) (self : FailoverResource) : String :=
  persistDir ++ self.kind.start ++ Text.join '#' self.names ++ "#" ++ self.kind.suffix

/-- Its names can be told from the name of the file: there is one, or none has the separator. -/
def Plain (self : FailoverResource) : Prop :=
  self.names.length ≤ 1 ∨ ∀ name ∈ self.names, '#' ∉ name.toList

end FailoverResource

/-- A configuration response carries a release, if its resource has a name at all. -/
def Carried (save : FailoverSave ρ) : Prop :=
  match save.response with
  | .naming _ => True
  | .config value => releases value ≠ [] ∨ ∀ name ∈ save.resource.names, name = ""

end PoleClient.Cache
