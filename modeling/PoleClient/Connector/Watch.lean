import PoleClient.Cache.Requests
import PoleClient.Identity.Model

/-! # Watches of the connector

Each resource handler is registered under the text of its key, with the revision
that the next request for it carries. A response is taken apart twice: for the
text of the watch it belongs to and for the revision to record there.
-/

namespace PoleClient.Connector

open Cache Identity

/-! ## Responses -/

inductive Code where
  | executeSuccess
  | dataNoChange
  | other (code : UInt32)
deriving DecidableEq, Repr

/-- The type of a response as its getter reads it. -/
inductive DiscoverResponseType where
  | unknown
  | «instance»
  | customRouteRule
  | circuitBreaker
  | rateLimit
  | services
  | faultDetector
  | lane
  | lossless
  | trafficSecurityRule
  | trafficMirrorRule
  | trafficMockRule
  | serviceIdentity
  | serviceIdentityBundle
  | namespaces
  | serviceContracts
deriving DecidableEq, Repr

inductive WorkloadCredentialFormat where
  | jwtEd25519
  | other (format : Int32)
deriving DecidableEq, Repr

structure ServiceIdentityDescriptor where
  subject : String
  namespaceName : String
  service : String
  revision : String
  trustBundleVersion : String
  trustDomain : String
  audience : String
  credentialEndpoint : String
  identityProtocolVersion : UInt32
  credentialFormats : List WorkloadCredentialFormat
deriving DecidableEq, Repr

/-- The parts of a response that only the connector and the identity handlers read. -/
structure DiscoverResponse (ρ : Type) extends Cache.DiscoverResponse ρ where
  code : Code
  type : DiscoverResponseType
  serviceIdentity : Option ServiceIdentityDescriptor
  serviceIdentityBundle : Option WorkloadTrustBundle

inductive ConfigDiscoverResponseType where
  | unknown
  | configFile
  | configFileNames
  | configFileGroups
deriving DecidableEq, Repr

structure ConfigDiscoverResponse extends Cache.ConfigDiscoverResponse where
  code : Code
  type : ConfigDiscoverResponseType

/-- What a handler is given. -/
structure RemoteData (ρ : Type) where
  eventKey : ResourceEventKey
  discoverValue : Option (DiscoverResponse ρ)
  configValue : Option ConfigDiscoverResponse

/-- The service whose identity the client is configured with. -/
structure ServiceIdentityDiscoveryConfig where
  namespaceName : String
  service : String
deriving DecidableEq, Repr

variable {ρ : Type}

/-! ## The watch of a response -/

def serviceRuleWatchKey (resp : DiscoverResponse ρ) (eventType : EventType) : Option String := do
  let svc ← resp.service
  return eventType.debug ++ "#" ++ svc.namespaceName ++ "#" ++ svc.name

def discoverResponseWatchKey (resp : DiscoverResponse ρ)
    (identity : Option ServiceIdentityDiscoveryConfig) : Option String :=
  match resp.type with
  | .services => resp.service.map fun svc => svc.namespaceName
  | .«instance» => serviceRuleWatchKey resp .«instance»
  | .customRouteRule => serviceRuleWatchKey resp (.governance .routerRule)
  | .rateLimit => serviceRuleWatchKey resp (.governance .rateLimitRule)
  | .circuitBreaker => serviceRuleWatchKey resp (.governance .circuitBreakerRule)
  | .faultDetector => serviceRuleWatchKey resp (.governance .faultDetectRule)
  | .lane => serviceRuleWatchKey resp (.governance .laneRule)
  | .lossless => serviceRuleWatchKey resp (.governance .losslessRule)
  | .trafficSecurityRule => serviceRuleWatchKey resp (.governance .trafficSecurityRule)
  | .trafficMirrorRule => serviceRuleWatchKey resp (.governance .trafficMirrorRule)
  | .trafficMockRule => serviceRuleWatchKey resp (.governance .trafficMockRule)
  | .serviceIdentity => resp.serviceIdentity.map fun identity =>
      EventType.serviceIdentity.debug ++ "#" ++ identity.namespaceName ++ "#" ++ identity.service
  | .serviceIdentityBundle => do
      let identity ← identity
      let _ ← resp.serviceIdentityBundle
      return EventType.serviceIdentityBundle.debug ++ "#" ++ identity.namespaceName ++ "#" ++
        identity.service
  | _ => none

def configResponseWatchKey (resp : ConfigDiscoverResponse) : Option String :=
  match resp.type with
  | .configFile => do
      let file ← resp.file
      return EventType.configFile.debug ++ "#" ++ file.namespaceName ++ "#" ++ file.group ++ "#" ++
        file.fileName
  | .configFileNames => do
      let file ← resp.fileNames.head?
      return EventType.configGroup.debug ++ "#" ++ file.namespaceName ++ "#" ++ file.group
  | .configFileGroups => none
  | _ => none

/-! ## The revision of a response -/

/-- What the connector asks of a descriptor before it takes its revision. -/
def ServiceIdentityDescriptor.revisionValid (identity : ServiceIdentityDescriptor) : Bool :=
  !isBlank identity.subject && !isBlank identity.namespaceName && !isBlank identity.service &&
    !isBlank identity.revision

/-- What the connector asks of a bundle before it takes its version as the revision. -/
def bundleRevisionValid (bundle : WorkloadTrustBundle) : Bool :=
  bundle.schemaVersion == 1 && bundle.sequence > 0 && !isBlank bundle.trustDomain &&
    !isBlank bundle.issuer && !isBlank bundle.version

def discoverResponseRevision (resp : DiscoverResponse ρ) : Option String :=
  match resp.type with
  | .serviceIdentity =>
      (resp.serviceIdentity.filter ServiceIdentityDescriptor.revisionValid).map
        ServiceIdentityDescriptor.revision
  | .serviceIdentityBundle =>
      (resp.serviceIdentityBundle.filter bundleRevisionValid).map WorkloadTrustBundle.version
  | _ => resp.service.map SpecService.revision

/-- An empty revision is replaced by the version of the file. -/
def normalizeConfigResponseRevision (resp : ConfigDiscoverResponse) : ConfigDiscoverResponse :=
  if !resp.revision.isEmpty then resp
  else
    match resp.file with
    | none => resp
    | some file => { resp with revision := toString file.version.toNat }

/-! ## Handlers and their watches -/

/-- The two methods of a resource handler, on its state. -/
structure ResourceHandler (ρ η : Type) where
  interestResource : η → ResourceEventKey
  handleEvent : η → RemoteData ρ → η

structure ResourceHandlerWrapper (η : Type) where
  handler : η
  revision : String

/-- `GrpcConnector.watch_resources`. -/
abbrev Watches (η : Type) : Type := String → Option (ResourceHandlerWrapper η)

variable {η : Type}

def setWatch (watches : Watches η) (key : String) (wrapper : ResourceHandlerWrapper η) :
    Watches η :=
  fun other => if other = key then some wrapper else watches other

/-- The requests that go out at once are those of the refresh with an empty revision. -/
def registerResourceHandler (ops : ResourceHandler ρ η) (watches : Watches η) (handler : η) :
    Except Panic (Watches η × Except PoleError Bool) := do
  let watchKey ← (ops.interestResource handler).toText
  match watches watchKey with
  | some _ =>
      return (watches, .error (.new .serverError
        ("[pole][discovery][connector] resource handler already exist: " ++ watchKey)))
  | none => return (setWatch watches watchKey ⟨handler, ""⟩, .ok true)

/-- The discover request that the next refresh sends for a watch. -/
def refreshDiscover (ops : ResourceHandler ρ η) (wrapper : ResourceHandlerWrapper η) :
    Except Panic (Option DiscoverRequest) :=
  (ops.interestResource wrapper.handler).toDiscoverRequest wrapper.revision

/-- The event reaches the handler after its revision is recorded. -/
def ResourceHandlerWrapper.deliver (ops : ResourceHandler ρ η) (wrapper : ResourceHandlerWrapper η)
    (revision : String) (discoverValue : Option (DiscoverResponse ρ))
    (configValue : Option ConfigDiscoverResponse) : ResourceHandlerWrapper η where
  revision := revision
  handler := ops.handleEvent wrapper.handler
    ⟨ops.interestResource wrapper.handler, discoverValue, configValue⟩

def receiveDiscoverResponse (ops : ResourceHandler ρ η)
    (identity : Option ServiceIdentityDiscoveryConfig) (watches : Watches η)
    (resp : DiscoverResponse ρ) : Watches η :=
  if resp.code = .dataNoChange then watches
  else if resp.code ≠ .executeSuccess then watches
  else
    match discoverResponseWatchKey resp identity with
    | none => watches
    | some watchKey =>
        match watches watchKey with
        | none => watches
        | some handle =>
            match discoverResponseRevision resp with
            | none => watches
            | some revision =>
                setWatch watches watchKey (handle.deliver ops revision (some resp) none)

/-- `response_process` of a configuration filter, on configuration responses. -/
abbrev ConfigFilter : Type := ConfigDiscoverResponse → Except PoleError ConfigDiscoverResponse

def filterResponse (filters : List ConfigFilter) (resp : ConfigDiscoverResponse) :
    Except PoleError ConfigDiscoverResponse :=
  filters.foldlM (fun resp filter => filter resp) resp

def receiveConfigResponse (ops : ResourceHandler ρ η) (filters : List ConfigFilter)
    (watches : Watches η) (resp : ConfigDiscoverResponse) : Watches η :=
  match filterResponse filters resp with
  | .error _ => watches
  | .ok filtered =>
      let resp := normalizeConfigResponseRevision filtered
      if resp.code = .dataNoChange then watches
      else if resp.code ≠ .executeSuccess then watches
      else
        match configResponseWatchKey resp with
        | none => watches
        | some watchKey =>
            match watches watchKey with
            | none => watches
            | some handle =>
                setWatch watches watchKey (handle.deliver ops resp.revision none (some resp))

end PoleClient.Connector
