import PoleClient.Connector.Watch

/-! # From a key to its answer and back

A key has a text and a request; the answer to the request, echoing the resource,
is taken back to a text. The texts agree for every kind of resource but two: the
answer for a list of services, and the answer for a configuration group that
lists no file.
-/

namespace PoleClient.Connector

open Cache Identity

variable {ρ η : Type}

/-! ## Answers -/

def answerType : DiscoverRequestType → DiscoverResponseType
  | .«instance» => .«instance»
  | .customRouteRule => .customRouteRule
  | .circuitBreaker => .circuitBreaker
  | .rateLimit => .rateLimit
  | .services => .services
  | .faultDetector => .faultDetector
  | .lane => .lane
  | .lossless => .lossless
  | .trafficSecurityRule => .trafficSecurityRule
  | .trafficMirrorRule => .trafficMirrorRule
  | .trafficMockRule => .trafficMockRule
  | .serviceIdentity => .serviceIdentity
  | .serviceIdentityBundle => .serviceIdentityBundle

def configAnswerType : ConfigDiscoverRequestType → ConfigDiscoverResponseType
  | .configFile => .configFile
  | .configFileNames => .configFileNames

/-- The response names the resource of the key. A trust bundle names none: its watch is the one
of the configured identity. -/
def Echoes (identity : Option ServiceIdentityDiscoveryConfig) (key : ResourceEventKey)
    (resp : DiscoverResponse ρ) : Prop :=
  match key.eventType with
  | .serviceIdentity => ∃ descriptor, resp.serviceIdentity = some descriptor ∧
      descriptor.namespaceName = key.namespaceName ∧
      key.filter "service" = some descriptor.service
  | .serviceIdentityBundle => ∃ config, identity = some config ∧
      config.namespaceName = key.namespaceName ∧ key.filter "service" = some config.service
  | _ => ∃ service, resp.service = some service ∧
      service.namespaceName = key.namespaceName ∧ key.filter "service" = some service.name

structure DiscoverAnswers (identity : Option ServiceIdentityDiscoveryConfig)
    (key : ResourceEventKey) (request : DiscoverRequest) (resp : DiscoverResponse ρ) : Prop where
  success : resp.code = .executeSuccess
  type : resp.type = answerType request.type
  echo : Echoes identity key resp

/-- A listing of a group names it with each of its files. -/
def ConfigEchoes (key : ResourceEventKey) (resp : ConfigDiscoverResponse) : Prop :=
  match key.eventType with
  | .configFile => ∃ file, resp.file = some file ∧ file.namespaceName = key.namespaceName ∧
      key.filter "group" = some file.group ∧ key.filter "file" = some file.fileName
  | _ => ∀ file ∈ resp.fileNames, file.namespaceName = key.namespaceName ∧
      key.filter "group" = some file.group

structure ConfigAnswers (key : ResourceEventKey) (request : ConfigDiscoverRequest)
    (resp : ConfigDiscoverResponse) : Prop where
  success : resp.code = .executeSuccess
  type : resp.type = configAnswerType request.type
  echo : ConfigEchoes key resp

/-! ## What the answers should do -/

/-- The text a response is taken back to is the one of the key. -/
def Returns (key : ResourceEventKey) (watchKey : Option String) : Prop :=
  ∃ text, key.toText = .ok text ∧ watchKey = some text

/-- The watch of the key, where there is one, records the revision and gets the response. -/
def DiscoverDelivered (ops : ResourceHandler ρ η)
    (identity : Option ServiceIdentityDiscoveryConfig) (key : ResourceEventKey)
    (resp : DiscoverResponse ρ) : Prop :=
  ∃ text revision, key.toText = .ok text ∧ discoverResponseRevision resp = some revision ∧
    ∀ (watches : Watches η) handle, watches text = some handle →
      receiveDiscoverResponse ops identity watches resp =
        setWatch watches text (handle.deliver ops revision (some resp) none)

/-- The same for a response as the filters leave it. -/
def ConfigDelivered (ops : ResourceHandler ρ η) (filters : List ConfigFilter)
    (key : ResourceEventKey) (resp : ConfigDiscoverResponse) : Prop :=
  ∃ text, key.toText = .ok text ∧
    ∀ received, filterResponse filters received = .ok resp →
    ∀ (watches : Watches η) handle, watches text = some handle →
      receiveConfigResponse ops filters watches received =
        setWatch watches text (handle.deliver ops (normalizeConfigResponseRevision resp).revision
          none (some (normalizeConfigResponseRevision resp)))

/-! ## When they do -/

/-- No list of services, and no trust bundle left out. -/
def DiscoverCovered (key : ResourceEventKey) (resp : DiscoverResponse ρ) : Prop :=
  key.eventType ≠ .service ∧
    (key.eventType = .serviceIdentityBundle → resp.serviceIdentityBundle ≠ none)

/-- No group without files. -/
def ConfigCovered (key : ResourceEventKey) (resp : ConfigDiscoverResponse) : Prop :=
  key.eventType = .configGroup → resp.fileNames ≠ []

/-- The descriptor or the bundle has what the connector asks for before it takes a revision. -/
def RevisionValid (resp : DiscoverResponse ρ) : Prop :=
  (resp.type = .serviceIdentity →
    ∀ descriptor ∈ resp.serviceIdentity, descriptor.revisionValid = true) ∧
  (resp.type = .serviceIdentityBundle →
    ∀ bundle ∈ resp.serviceIdentityBundle, bundleRevisionValid bundle = true)

/-! ## Texts -/

theorem debug_eq_toText {eventType : EventType} (h : eventType ≠ .unknown) :
    eventType.debug = eventType.toText := by
  cases eventType with
  | unknown => exact absurd rfl h
  | _ => rfl

theorem toText_of_service {key : ResourceEventKey} {service : String}
    (hfile : key.eventType ≠ .configFile) (hgroup : key.eventType ≠ .configGroup)
    (hservice : key.filter "service" = some service) :
    key.toText = .ok (key.eventType.toText ++ "#" ++ key.namespaceName ++ "#" ++ service) := by
  unfold ResourceEventKey.toText
  rw [hservice]
  split
  · rename_i h
    exact absurd h hfile
  · rename_i h
    exact absurd h hgroup
  · rfl

theorem returns_iff {key : ResourceEventKey} {watchKey : Option String} {text : String}
    (h : key.toText = .ok text) : Returns key watchKey ↔ watchKey = some text := by
  unfold Returns
  rw [h]
  constructor
  · rintro ⟨other, hother, hkey⟩
    cases hother
    exact hkey
  · exact fun hkey => ⟨text, rfl, hkey⟩

/-- A text with a namespace in its middle is longer than the namespace. -/
theorem ne_of_inner (start inner rest : String) (h : start ≠ "") :
    inner ≠ start ++ inner ++ rest := by
  intro heq
  have hlength := congrArg String.length heq
  rw [String.length_append, String.length_append] at hlength
  have hzero : start.length = 0 := by omega
  exact h (String.length_eq_zero_iff.mp hzero)

/-! ## Discover answers -/

theorem serviceRule_returns {key : ResourceEventKey} {resp : DiscoverResponse ρ}
    (hunknown : key.eventType ≠ .unknown) (hfile : key.eventType ≠ .configFile)
    (hgroup : key.eventType ≠ .configGroup)
    (echo : ∃ service, resp.service = some service ∧
      service.namespaceName = key.namespaceName ∧ key.filter "service" = some service.name) :
    Returns key (serviceRuleWatchKey resp key.eventType) := by
  obtain ⟨service, hresp, hnamespace, hservice⟩ := echo
  rw [returns_iff (toText_of_service hfile hgroup hservice)]
  unfold serviceRuleWatchKey
  rw [hresp, ← debug_eq_toText hunknown, ← hnamespace]
  rfl

theorem governance_watchKey {type : GovernanceType} {resp : DiscoverResponse ρ}
    (identity : Option ServiceIdentityDiscoveryConfig)
    (h : resp.type = answerType type.requestType) :
    discoverResponseWatchKey resp identity = serviceRuleWatchKey resp (.governance type) := by
  unfold discoverResponseWatchKey
  rw [h]
  cases type <;> rfl

/-- An answer for a list of services is taken back to the namespace alone. -/
theorem services_not_returns {key : ResourceEventKey} {resp : DiscoverResponse ρ}
    (identity : Option ServiceIdentityDiscoveryConfig) (hkey : key.eventType = .service)
    (htype : resp.type = .services)
    (echo : ∃ service, resp.service = some service ∧
      service.namespaceName = key.namespaceName ∧ key.filter "service" = some service.name) :
    ¬ Returns key (discoverResponseWatchKey resp identity) := by
  obtain ⟨service, hresp, hnamespace, hservice⟩ := echo
  rw [returns_iff (toText_of_service (by rw [hkey]; decide) (by rw [hkey]; decide) hservice)]
  unfold discoverResponseWatchKey
  rw [htype, hresp, hkey]
  intro heq
  have htext : service.namespaceName =
      "Service#" ++ service.namespaceName ++ ("#" ++ service.name) := by
    rw [← hnamespace] at heq
    simpa [EventType.toText, String.append_assoc] using heq
  exact ne_of_inner "Service#" service.namespaceName ("#" ++ service.name) (by decide) htext

theorem identity_returns {key : ResourceEventKey} {resp : DiscoverResponse ρ}
    (identity : Option ServiceIdentityDiscoveryConfig) (hkey : key.eventType = .serviceIdentity)
    (htype : resp.type = .serviceIdentity)
    (echo : ∃ descriptor, resp.serviceIdentity = some descriptor ∧
      descriptor.namespaceName = key.namespaceName ∧
      key.filter "service" = some descriptor.service) :
    Returns key (discoverResponseWatchKey resp identity) := by
  obtain ⟨descriptor, hresp, hnamespace, hservice⟩ := echo
  rw [returns_iff (toText_of_service (by rw [hkey]; decide) (by rw [hkey]; decide) hservice)]
  unfold discoverResponseWatchKey
  rw [htype, hresp, hkey, ← hnamespace]
  rfl

/-- An answer for the trust bundle is taken back to the configured identity, if it has a bundle. -/
theorem bundle_returns_iff {key : ResourceEventKey} {resp : DiscoverResponse ρ}
    {identity : Option ServiceIdentityDiscoveryConfig}
    (hkey : key.eventType = .serviceIdentityBundle) (htype : resp.type = .serviceIdentityBundle)
    (echo : ∃ config, identity = some config ∧ config.namespaceName = key.namespaceName ∧
      key.filter "service" = some config.service) :
    Returns key (discoverResponseWatchKey resp identity) ↔ resp.serviceIdentityBundle ≠ none := by
  obtain ⟨config, hidentity, hnamespace, hservice⟩ := echo
  rw [returns_iff (toText_of_service (by rw [hkey]; decide) (by rw [hkey]; decide) hservice)]
  unfold discoverResponseWatchKey
  rw [htype, hidentity, hkey]
  cases hbundle : resp.serviceIdentityBundle with
  | none => exact ⟨fun h => (nomatch h), fun h => absurd rfl h⟩
  | some bundle =>
      rw [← hnamespace]
      exact ⟨fun _ => (nomatch ·), fun _ => rfl⟩

theorem built_cases {key : ResourceEventKey} {revision : String} {request : DiscoverRequest}
    (built : key.toDiscoverRequest revision = .ok (some request)) :
    (key.eventType = .«instance» ∧ request.type = .«instance») ∨
    (∃ type, key.eventType = .governance type ∧ request.type = type.requestType) ∨
    (key.eventType = .service ∧ request.type = .services) ∨
    (key.eventType = .serviceIdentity ∧ request.type = .serviceIdentity) ∨
    (key.eventType = .serviceIdentityBundle ∧ request.type = .serviceIdentityBundle) := by
  unfold ResourceEventKey.toDiscoverRequest at built
  split at built
  · rename_i hkey
    obtain ⟨-, -, htype⟩ := service_of_serviceRequest built
    exact .inl ⟨hkey, htype⟩
  · rename_i type hkey
    obtain ⟨-, -, htype⟩ := service_of_serviceRequest built
    exact .inr (.inl ⟨type, hkey, htype⟩)
  · rename_i hkey
    obtain ⟨-, -, htype⟩ := service_of_serviceRequest built
    exact .inr (.inr (.inl ⟨hkey, htype⟩))
  · rename_i hkey
    obtain ⟨-, -, htype⟩ := service_of_serviceRequest built
    exact .inr (.inr (.inr (.inl ⟨hkey, htype⟩)))
  · rename_i hkey
    cases built
    exact .inr (.inr (.inr (.inr ⟨hkey, rfl⟩)))
  · cases built

/-- One case for each kind of request. -/
theorem discover_returns_iff {identity : Option ServiceIdentityDiscoveryConfig}
    {key : ResourceEventKey} {revision : String} {request : DiscoverRequest}
    {resp : DiscoverResponse ρ} (built : key.toDiscoverRequest revision = .ok (some request))
    (answer : DiscoverAnswers identity key request resp) :
    Returns key (discoverResponseWatchKey resp identity) ↔ DiscoverCovered key resp := by
  have hecho := answer.echo
  have htype := answer.type
  unfold Echoes at hecho
  unfold DiscoverCovered
  rcases built_cases built with ⟨hkey, hrequest⟩ | ⟨type, hkey, hrequest⟩ | ⟨hkey, hrequest⟩ |
    ⟨hkey, hrequest⟩ | ⟨hkey, hrequest⟩
  · rw [hkey] at hecho
    rw [hrequest] at htype
    have hreturns := serviceRule_returns (by rw [hkey]; decide) (by rw [hkey]; decide)
      (by rw [hkey]; decide) hecho
    have hwatch : discoverResponseWatchKey resp identity =
        serviceRuleWatchKey resp key.eventType := by
      unfold discoverResponseWatchKey
      rw [htype, hkey]
      rfl
    rw [hwatch]
    exact ⟨fun _ => by rw [hkey]; simp, fun _ => hreturns⟩
  · rw [hkey] at hecho
    rw [hrequest] at htype
    have hreturns := serviceRule_returns (by rw [hkey]; simp) (by rw [hkey]; simp)
      (by rw [hkey]; simp) hecho
    rw [governance_watchKey identity htype, ← hkey]
    exact ⟨fun _ => by rw [hkey]; simp, fun _ => hreturns⟩
  · rw [hkey] at hecho
    rw [hrequest] at htype
    have hnot := services_not_returns identity hkey htype hecho
    exact ⟨fun h => absurd h hnot, fun h => absurd hkey h.1⟩
  · rw [hkey] at hecho
    rw [hrequest] at htype
    have hreturns := identity_returns identity hkey htype hecho
    exact ⟨fun _ => by rw [hkey]; simp, fun _ => hreturns⟩
  · rw [hkey] at hecho
    rw [hrequest] at htype
    rw [bundle_returns_iff hkey htype hecho, hkey]
    simp

/-! ## Configuration answers -/

theorem configFile_returns {key : ResourceEventKey} {resp : ConfigDiscoverResponse}
    (hkey : key.eventType = .configFile) (htype : resp.type = .configFile)
    (echo : ∃ file, resp.file = some file ∧ file.namespaceName = key.namespaceName ∧
      key.filter "group" = some file.group ∧ key.filter "file" = some file.fileName) :
    Returns key (configResponseWatchKey resp) := by
  obtain ⟨file, hresp, hnamespace, hgroup, hfile⟩ := echo
  have htext : key.toText = .ok ("ConfigFile" ++ "#" ++ file.namespaceName ++ "#" ++
      file.group ++ "#" ++ file.fileName) := by
    unfold ResourceEventKey.toText
    rw [hkey, hgroup, hfile, hnamespace]
    rfl
  rw [returns_iff htext]
  unfold configResponseWatchKey
  rw [htype, hresp]
  rfl

/-- The first file listed names the group; without a file nothing does. -/
theorem configGroup_returns_iff {key : ResourceEventKey} {resp : ConfigDiscoverResponse}
    {group : String} (hkey : key.eventType = .configGroup) (htype : resp.type = .configFileNames)
    (hgroup : key.filter "group" = some group)
    (echo : ∀ file ∈ resp.fileNames, file.namespaceName = key.namespaceName ∧
      key.filter "group" = some file.group) :
    Returns key (configResponseWatchKey resp) ↔ resp.fileNames ≠ [] := by
  have htext : key.toText = .ok ("ConfigGroup" ++ "#" ++ key.namespaceName ++ "#" ++ group) := by
    unfold ResourceEventKey.toText
    rw [hkey, hgroup]
    rfl
  rw [returns_iff htext]
  unfold configResponseWatchKey
  rw [htype]
  cases hfiles : resp.fileNames with
  | nil => exact ⟨fun h => (nomatch h), fun h => absurd rfl h⟩
  | cons file files =>
      have hfile := echo file (hfiles ▸ List.mem_cons_self)
      rw [hgroup] at hfile
      obtain rfl : group = file.group := Option.some.inj hfile.2
      rw [← hfile.1]
      exact ⟨fun _ => (nomatch ·), fun _ => rfl⟩

theorem config_built_cases {key : ResourceEventKey} {revision : String}
    {request : ConfigDiscoverRequest}
    (built : key.toConfigRequest revision = .ok (some request)) :
    (key.eventType = .configFile ∧ request.type = .configFile) ∨
    (∃ group, key.eventType = .configGroup ∧ request.type = .configFileNames ∧
      key.filter "group" = some group) := by
  unfold ResourceEventKey.toConfigRequest at built
  split at built
  · rename_i hkey
    cases hfile : key.toSpecConfigFile with
    | error err =>
        rw [hfile] at built
        cases built
    | ok file =>
        rw [hfile] at built
        cases built
        exact .inl ⟨hkey, rfl⟩
  · rename_i hkey
    unfold ResourceEventKey.toSpecConfigGroup at built
    cases hgroup : key.filter "group" with
    | none =>
        rw [hgroup] at built
        cases built
    | some group =>
        rw [hgroup] at built
        cases built
        exact .inr ⟨group, hkey, rfl, rfl⟩
  · cases built

theorem config_returns_iff {key : ResourceEventKey} {revision : String}
    {request : ConfigDiscoverRequest} {resp : ConfigDiscoverResponse}
    (built : key.toConfigRequest revision = .ok (some request))
    (answer : ConfigAnswers key request resp) :
    Returns key (configResponseWatchKey resp) ↔ ConfigCovered key resp := by
  have hecho := answer.echo
  have htype := answer.type
  unfold ConfigEchoes at hecho
  unfold ConfigCovered
  rcases config_built_cases built with ⟨hkey, hrequest⟩ | ⟨group, hkey, hrequest, hgroup⟩
  · rw [hkey] at hecho
    rw [hrequest] at htype
    have hreturns := configFile_returns hkey htype hecho
    have hother : key.eventType ≠ .configGroup := by
      rw [hkey]
      decide
    exact ⟨fun _ h => absurd h hother, fun _ => hreturns⟩
  · rw [hkey] at hecho
    rw [hrequest] at htype
    rw [configGroup_returns_iff hkey htype hgroup hecho, hkey]
    simp

/-! ## Delivery -/

/-- The answer to a covered key has a revision if and only if it passes the check for one. -/
theorem revision_iff {identity : Option ServiceIdentityDiscoveryConfig}
    {key : ResourceEventKey} {revision : String} {request : DiscoverRequest}
    {resp : DiscoverResponse ρ} (built : key.toDiscoverRequest revision = .ok (some request))
    (answer : DiscoverAnswers identity key request resp) (covered : DiscoverCovered key resp) :
    (∃ revision, discoverResponseRevision resp = some revision) ↔ RevisionValid resp := by
  have hecho := answer.echo
  have htype := answer.type
  unfold Echoes at hecho
  unfold RevisionValid discoverResponseRevision
  rcases built_cases built with ⟨hkey, hrequest⟩ | ⟨type, hkey, hrequest⟩ | ⟨hkey, hrequest⟩ |
    ⟨hkey, hrequest⟩ | ⟨hkey, hrequest⟩
  · rw [hkey] at hecho
    rw [hrequest] at htype
    obtain ⟨service, hresp, -⟩ := hecho
    simp [htype, answerType, hresp]
  · rw [hkey] at hecho
    rw [hrequest] at htype
    obtain ⟨service, hresp, -⟩ := hecho
    cases type <;> simp [htype, GovernanceType.requestType, answerType, hresp]
  · exact absurd hkey covered.1
  · rw [hkey] at hecho
    rw [hrequest] at htype
    obtain ⟨descriptor, hresp, -⟩ := hecho
    simp [htype, answerType, hresp, Option.filter]
  · rw [hrequest] at htype
    have hbundle := covered.2 hkey
    cases hresp : resp.serviceIdentityBundle with
    | none => exact absurd hresp hbundle
    | some bundle => simp [htype, answerType, Option.filter]

theorem discover_delivered_iff (ops : ResourceHandler ρ η)
    {identity : Option ServiceIdentityDiscoveryConfig} {key : ResourceEventKey}
    {resp : DiscoverResponse ρ} (success : resp.code = .executeSuccess)
    (returns : Returns key (discoverResponseWatchKey resp identity)) :
    DiscoverDelivered ops identity key resp ↔
      ∃ revision, discoverResponseRevision resp = some revision := by
  obtain ⟨text, htext, hwatch⟩ := returns
  constructor
  · rintro ⟨-, revision, -, hrevision, -⟩
    exact ⟨revision, hrevision⟩
  · rintro ⟨revision, hrevision⟩
    refine ⟨text, revision, htext, hrevision, fun watches handle hhandle => ?_⟩
    unfold receiveDiscoverResponse
    rw [if_neg (by rw [success]; decide), if_neg (by rw [success]; decide), hwatch]
    simp only [hhandle, hrevision]

theorem normalize_watchKey (resp : ConfigDiscoverResponse) :
    configResponseWatchKey (normalizeConfigResponseRevision resp) = configResponseWatchKey resp ∧
      (normalizeConfigResponseRevision resp).code = resp.code := by
  unfold normalizeConfigResponseRevision
  split
  · exact ⟨rfl, rfl⟩
  · split
    · exact ⟨rfl, rfl⟩
    · exact ⟨rfl, rfl⟩

theorem config_delivered (ops : ResourceHandler ρ η) (filters : List ConfigFilter)
    {key : ResourceEventKey} {resp : ConfigDiscoverResponse} (success : resp.code = .executeSuccess)
    (returns : Returns key (configResponseWatchKey resp)) :
    ConfigDelivered ops filters key resp := by
  obtain ⟨text, htext, hwatch⟩ := returns
  obtain ⟨hsame, hcode⟩ := normalize_watchKey resp
  refine ⟨text, htext, fun received hreceived watches handle hhandle => ?_⟩
  unfold receiveConfigResponse
  rw [hreceived]
  simp only [hcode, hsame, success, hwatch, hhandle]
  rfl

/-! ## The round trip -/

/-- The answer to a discover request is taken back to the text of its key if and only if the key
is not one for a list of services and a trust bundle is not left out, and the watch then records
and gets it if and only if it passes the check of its revision. The answer to a configuration
request is taken back, and recorded and given to the watch, if and only if it is not for a group
without files. -/
theorem watch_key_round_trip_iff (ops : ResourceHandler ρ η) (filters : List ConfigFilter)
    (identity : Option ServiceIdentityDiscoveryConfig) (key : ResourceEventKey)
    (revision : String) :
    (∀ (request : DiscoverRequest) (resp : DiscoverResponse ρ),
      key.toDiscoverRequest revision = .ok (some request) →
      DiscoverAnswers identity key request resp →
        (Returns key (discoverResponseWatchKey resp identity) ↔ DiscoverCovered key resp) ∧
        (Returns key (discoverResponseWatchKey resp identity) ∧
            DiscoverDelivered ops identity key resp ↔
          DiscoverCovered key resp ∧ RevisionValid resp)) ∧
    (∀ (request : ConfigDiscoverRequest) (resp : ConfigDiscoverResponse),
      key.toConfigRequest revision = .ok (some request) →
      ConfigAnswers key request resp →
        (Returns key (configResponseWatchKey resp) ∧ ConfigDelivered ops filters key resp ↔
          ConfigCovered key resp)) := by
  constructor
  · intro request resp built answer
    have hreturns := discover_returns_iff built answer
    refine ⟨hreturns, ?_⟩
    constructor
    · rintro ⟨hback, hdelivered⟩
      have hcovered := hreturns.mp hback
      have hrevision := (discover_delivered_iff ops answer.success hback).mp hdelivered
      exact ⟨hcovered, (revision_iff built answer hcovered).mp hrevision⟩
    · rintro ⟨hcovered, hvalid⟩
      have hback := hreturns.mpr hcovered
      have hrevision := (revision_iff built answer hcovered).mpr hvalid
      exact ⟨hback, (discover_delivered_iff ops answer.success hback).mpr hrevision⟩
  · intro request resp built answer
    have hreturns := config_returns_iff built answer
    constructor
    · exact fun h => hreturns.mp h.1
    · intro hcovered
      have hback := hreturns.mpr hcovered
      exact ⟨hback, config_delivered ops filters answer.success hback⟩

/-! ## Answers for the service orders -/

def orderFilter : StringMap := fun name =>
  if name = "service" then some "orders" else if name = "group" then some "settings" else none

def ordersInstances : ResourceEventKey := ⟨"prod", .«instance», orderFilter⟩

def ordersServices : ResourceEventKey := ⟨"prod", .service, orderFilter⟩

def settingsGroup : ResourceEventKey := ⟨"prod", .configGroup, orderFilter⟩

def ordersAnswer (type : DiscoverResponseType) : DiscoverResponse ρ where
  service := some { (default : SpecService) with namespaceName := "prod", name := "orders" }
  instances := []
  customRouteRules := []
  circuitBreaker := []
  rateLimit := []
  faultDetectRules := []
  lanes := []
  losslessRules := []
  trafficSecurityRules := []
  trafficMirrorRules := []
  trafficMockRules := []
  code := .executeSuccess
  type := type
  serviceIdentity := none
  serviceIdentityBundle := none

def settingsAnswer : ConfigDiscoverResponse where
  revision := "2"
  file := none
  fileNames := []
  code := .executeSuccess
  type := .configFileNames

def ordersHandler : ResourceHandler Unit ResourceEventKey where
  interestResource := id
  handleEvent := fun key _ => key

theorem instance_answer_delivered :
    Returns ordersInstances (discoverResponseWatchKey (ordersAnswer .«instance»
        : DiscoverResponse Unit) none) ∧
      DiscoverDelivered ordersHandler none ordersInstances
        (ordersAnswer .«instance» : DiscoverResponse Unit) := by
  have hanswer : DiscoverAnswers none ordersInstances
      ⟨.«instance», some { (default : SpecService) with namespaceName := "prod", name := "orders" },
        some default, none⟩ (ordersAnswer .«instance» : DiscoverResponse Unit) :=
    ⟨rfl, rfl, _, rfl, rfl, rfl⟩
  have htrip :=
    (watch_key_round_trip_iff ordersHandler [] none ordersInstances "").1 _ _ rfl hanswer
  exact htrip.2.mpr ⟨⟨by decide, by decide⟩, ⟨by decide, by decide⟩⟩

/-- The list of services goes to the watch of the text "prod", the emptied group to none. -/
theorem services_and_empty_group_lost :
    (ordersServices.toText = .ok "Service#prod#orders" ∧
      (∃ request, ordersServices.toDiscoverRequest "" = .ok (some request) ∧
        DiscoverAnswers none ordersServices request
          (ordersAnswer .services : DiscoverResponse Unit)) ∧
      discoverResponseWatchKey (ordersAnswer .services : DiscoverResponse Unit) none =
        some "prod") ∧
    (settingsGroup.toText = .ok "ConfigGroup#prod#settings" ∧
      (∃ request, settingsGroup.toConfigRequest "" = .ok (some request) ∧
        ConfigAnswers settingsGroup request settingsAnswer) ∧
      configResponseWatchKey settingsAnswer = none) := by
  refine ⟨⟨by decide, ?_, rfl⟩, ⟨by decide, ?_, rfl⟩⟩
  · exact ⟨_, rfl, rfl, rfl, _, rfl, rfl, rfl⟩
  · refine ⟨_, rfl, rfl, rfl, fun file hfile => ?_⟩
    cases hfile

end PoleClient.Connector
