import PoleClient.Cache.Model

/-! # The memory cache

The maps of the resource handler, the event path that writes them and the
loads that create and read their entries. One map is locked for the whole of an
update, so an update is one step; what follows it, saving the response and
telling the listeners, happens outside the lock.
-/

namespace PoleClient.Cache

variable {ρ : Type}

/-! ## State -/

variable (ρ) in
/-- `governance` is one map for each kind of rules. -/
structure MemoryResourceHandler where
  services : String → Option ServicesCacheItem
  instances : String → Option ServiceInstancesCacheItem
  governance : GovernanceType → String → Option (RulesCacheItem ρ)
  configGroups : String → Option ConfigGroupCacheItem
  configFiles : String → Option ConfigFileCacheItem

def MemoryResourceHandler.new : MemoryResourceHandler ρ where
  services := fun _ => none
  instances := fun _ => none
  governance := fun _ _ => none
  configGroups := fun _ => none
  configFiles := fun _ => none

def serviceKey (namespaceName service : String) : String := namespaceName ++ "#" ++ service

def searchKey (svc : SpecService) : String := serviceKey svc.namespaceName svc.name

def setEntry {α : Type} (map : String → Option α) (key : String) (item : α) :
    String → Option α :=
  Function.update map key (some item)

def setRules {α : Type} (maps : GovernanceType → String → Option α) (type : GovernanceType)
    (key : String) (item : α) : GovernanceType → String → Option α :=
  Function.update maps type (setEntry (maps type) key item)

theorem setRules_self {α : Type} (maps : GovernanceType → String → Option α)
    (type : GovernanceType) (key : String) (item : α) :
    setRules maps type key item type key = some item := by
  unfold setRules setEntry
  rw [Function.update_self, Function.update_self]

theorem setRules_of_ne {α : Type} (maps : GovernanceType → String → Option α)
    {type other : GovernanceType} {key otherKey : String} (item : α)
    (h : ¬ (other = type ∧ otherKey = key)) :
    setRules maps type key item other otherKey = maps other otherKey := by
  unfold setRules setEntry
  by_cases htype : other = type
  · have hkey : otherKey ≠ key := fun hkey => h ⟨htype, hkey⟩
    rw [htype, Function.update_self, Function.update_of_ne hkey]
  · rw [Function.update_of_ne htype]

/-! ## The event path -/

variable (ρ) in
/-- An update of the cache: a missing part of the event panics, an entry that nobody has loaded
is logged and left. -/
inductive SpecEventResult where
  | panicked
  | notFound
  | applied (handler : MemoryResourceHandler ρ) (value : CacheItemType ρ)

def applyInstances (handler : MemoryResourceHandler ρ) (remoteVal : DiscoverResponse ρ)
    (svc : SpecService) : SpecEventResult ρ :=
  match handler.instances (searchKey svc) with
  | none => .notFound
  | some cacheVal =>
      let instances := remoteVal.instances.map Instance.convertFromSpec
      let item := { cacheVal with
        value := instances
        availableInstances := instances.filter Instance.isAvailable
        revision := svc.revision
        initialized := true }
      .applied { handler with
        instances := setEntry handler.instances (searchKey svc) item } (.«instance» item)

def applyRules (type : GovernanceType) (handler : MemoryResourceHandler ρ)
    (remoteVal : DiscoverResponse ρ) (svc : SpecService) : SpecEventResult ρ :=
  match handler.governance type (searchKey svc) with
  | none => .notFound
  | some _ =>
      let item : RulesCacheItem ρ := ⟨true, svc.revision, remoteVal.rules type⟩
      .applied { handler with
        governance := setRules handler.governance type (searchKey svc) item }
        (.governance type item)

/-- The arms that take a discover response with a service. -/
def applyDiscover (event : RemoteData ρ)
    (apply : DiscoverResponse ρ → SpecService → SpecEventResult ρ) : SpecEventResult ρ :=
  match event.discoverValue with
  | none => .panicked
  | some remoteVal =>
      match remoteVal.service with
      | none => .panicked
      | some svc => apply remoteVal svc

def applyConfigFile (handler : MemoryResourceHandler ρ) (event : RemoteData ρ) :
    SpecEventResult ρ :=
  match event.eventKey.filter "group", event.eventKey.filter "file" with
  | some group, some file =>
      let searchKey := event.eventKey.namespaceName ++ "#" ++ group ++ "#" ++ file
      match handler.configFiles searchKey, event.configValue with
      | none, _ => .notFound
      | some _, none => .panicked
      | some _, some remoteValue =>
          let item : ConfigFileCacheItem :=
            ⟨true, remoteValue.file.getD default, remoteValue.revision⟩
          .applied { handler with configFiles := setEntry handler.configFiles searchKey item }
            (.configFile item)
  | _, _ => .panicked

def applyConfigGroup (handler : MemoryResourceHandler ρ) (event : RemoteData ρ) :
    SpecEventResult ρ :=
  match event.configValue, event.eventKey.filter "group" with
  | some remoteVal, some group =>
      let searchKey := event.eventKey.namespaceName ++ "#" ++ group
      match handler.configGroups searchKey with
      | none => .notFound
      | some cacheVal =>
          let item := { cacheVal with
            files := remoteVal.fileNames.map ConfigFile.convertFromSpec
            revision := remoteVal.revision
            initialized := true }
          .applied { handler with configGroups := setEntry handler.configGroups searchKey item }
            (.configGroup item)
  | _, _ => .panicked

def applyEvent (handler : MemoryResourceHandler ρ) (event : RemoteData ρ) : SpecEventResult ρ :=
  match event.eventKey.eventType with
  | .«instance» => applyDiscover event (applyInstances handler)
  | .governance type => applyDiscover event (applyRules type handler)
  | .configFile => applyConfigFile handler event
  | .configGroup => applyConfigGroup handler event
  | .service | .unknown | .serviceContract | .serviceIdentity | .serviceIdentityBundle
  | .namespaces | .configGroups => .applied handler .unknown

variable (ρ) in
/-- What an event does once the cache is updated. -/
inductive SpecEffect where
  | saveNamingFailover (value : DiscoverResponse ρ)
  | saveConfigFailover (value : ConfigDiscoverResponse)
  | notify (event : ServerEvent ρ)

def onSpecEvent (handler : MemoryResourceHandler ρ) (event : RemoteData ρ) :
    MemoryResourceHandler ρ × List (SpecEffect ρ) :=
  match applyEvent handler event with
  | .panicked | .notFound => (handler, [])
  | .applied handler value =>
      (handler,
        (event.discoverValue.map SpecEffect.saveNamingFailover).toList ++
          (event.configValue.map SpecEffect.saveConfigFailover).toList ++
            [.notify ⟨event.eventKey, value⟩])

/-! ## Frames -/

theorem applyDiscover_cases (event : RemoteData ρ)
    (apply : DiscoverResponse ρ → SpecService → SpecEventResult ρ) :
    applyDiscover event apply = .panicked ∨
      ∃ remoteVal svc, event.discoverValue = some remoteVal ∧ remoteVal.service = some svc ∧
        applyDiscover event apply = apply remoteVal svc := by
  unfold applyDiscover
  cases hvalue : event.discoverValue with
  | none => exact .inl rfl
  | some remoteVal =>
      simp only
      cases hservice : remoteVal.service with
      | none => exact .inl rfl
      | some svc => exact .inr ⟨remoteVal, svc, rfl, hservice, rfl⟩

section Frames

variable {handler after : MemoryResourceHandler ρ} {event : RemoteData ρ} {value : CacheItemType ρ}

theorem applyInstances_frame {remoteVal : DiscoverResponse ρ} {svc : SpecService}
    (h : applyInstances handler remoteVal svc = .applied after value) :
    after = { handler with instances := after.instances } := by
  unfold applyInstances at h
  split at h <;> cases h
  rfl

theorem applyRules_frame {type : GovernanceType} {remoteVal : DiscoverResponse ρ}
    {svc : SpecService} (h : applyRules type handler remoteVal svc = .applied after value) :
    after = { handler with governance := after.governance } := by
  unfold applyRules at h
  split at h <;> cases h
  rfl

theorem applyConfigFile_frame (h : applyConfigFile handler event = .applied after value) :
    after = { handler with configFiles := after.configFiles } := by
  unfold applyConfigFile at h
  split at h
  · simp only at h
    split at h <;> cases h
    rfl
  · cases h

theorem applyConfigGroup_frame (h : applyConfigGroup handler event = .applied after value) :
    after = { handler with configGroups := after.configGroups } := by
  unfold applyConfigGroup at h
  split at h
  · simp only at h
    split at h <;> cases h
    rfl
  · cases h

/-- An applied event has written to the map of its type, or to none. -/
theorem applyEvent_cases (h : applyEvent handler event = .applied after value) :
    (event.eventKey.eventType = .«instance» ∧
        after = { handler with instances := after.instances }) ∨
      (∃ type remoteVal svc, event.eventKey.eventType = .governance type ∧
        event.discoverValue = some remoteVal ∧ remoteVal.service = some svc ∧
          after = { handler with governance := after.governance }) ∨
      (event.eventKey.eventType = .configFile ∧
        after = { handler with configFiles := after.configFiles }) ∨
      (event.eventKey.eventType = .configGroup ∧
        after = { handler with configGroups := after.configGroups }) ∨
      after = handler := by
  unfold applyEvent at h
  cases htype : event.eventKey.eventType with
  | «instance» =>
      simp only [htype] at h
      rcases applyDiscover_cases event (applyInstances handler) with
        hpanicked | ⟨remoteVal, svc, -, -, heq⟩
      · rw [hpanicked] at h
        cases h
      · rw [heq] at h
        exact .inl ⟨rfl, applyInstances_frame h⟩
  | governance type =>
      simp only [htype] at h
      rcases applyDiscover_cases event (applyRules type handler) with
        hpanicked | ⟨remoteVal, svc, hvalue, hservice, heq⟩
      · rw [hpanicked] at h
        cases h
      · rw [heq] at h
        exact .inr (.inl ⟨type, remoteVal, svc, rfl, hvalue, hservice, applyRules_frame h⟩)
  | configFile =>
      simp only [htype] at h
      exact .inr (.inr (.inl ⟨rfl, applyConfigFile_frame h⟩))
  | configGroup =>
      simp only [htype] at h
      exact .inr (.inr (.inr (.inl ⟨rfl, applyConfigGroup_frame h⟩)))
  | service | unknown | serviceContract | serviceIdentity | serviceIdentityBundle | namespaces
  | configGroups =>
      simp only [htype] at h
      cases h
      exact .inr (.inr (.inr (.inr rfl)))

end Frames

/-! ## Loads -/

def orInsert {α : Type} (map : String → Option α) (key : String) (item : α) :
    String → Option α :=
  setEntry map key ((map key).getD item)

theorem orInsert_cases {α : Type} (map : String → Option α) (inserted key : String) (item : α) :
    orInsert map inserted item key = map key ∨
      (map key = none ∧ orInsert map inserted item key = some item) := by
  unfold orInsert setEntry
  by_cases hkey : key = inserted
  · rw [hkey, Function.update_self]
    cases map inserted with
    | none => exact .inr ⟨rfl, rfl⟩
    | some old => exact .inl rfl
  · exact .inl (Function.update_of_ne hkey ..)

/-- The first step of a load: the entry is there, and watched, from now on. A key without the
parameters of its type panics. -/
def ensureEntry (handler : MemoryResourceHandler ρ) (key : ResourceEventKey) :
    MemoryResourceHandler ρ :=
  match key.eventType with
  | .service =>
      { handler with services := orInsert handler.services key.namespaceName .new }
  | .«instance» =>
      match key.filter "service" with
      | none => handler
      | some service =>
          { handler with
            instances := orInsert handler.instances (serviceKey key.namespaceName service) .new }
  | .governance type =>
      match key.filter "service" with
      | none => handler
      | some service =>
          { handler with
            governance := setRules handler.governance type
              (serviceKey key.namespaceName service)
              ((handler.governance type (serviceKey key.namespaceName service)).getD .new) }
  | .configFile =>
      match key.filter "group", key.filter "file" with
      | some group, some file =>
          { handler with
            configFiles := orInsert handler.configFiles
              (key.namespaceName ++ "#" ++ group ++ "#" ++ file) .new }
      | _, _ => handler
  | .configGroup =>
      match key.filter "group" with
      | none => handler
      | some group =>
          { handler with
            configGroups := orInsert handler.configGroups (key.namespaceName ++ "#" ++ group)
              .new }
  | .unknown | .serviceContract | .serviceIdentity | .serviceIdentityBundle | .namespaces
  | .configGroups => handler

def loadTimeout : PoleError := .new .internalError "load remote resource timeout"

/-- The last step of `load_service_instances`, on an entry that is there. -/
def ServiceInstancesCacheItem.read (item : ServiceInstancesCacheItem) :
    Except PoleError ServiceInstancesCacheItem :=
  if item.initialized then .ok item else .error loadTimeout

/-- `Engine::get_service_instances` on the item that was loaded. -/
def getServiceInstances (svcIns : ServiceInstancesCacheItem) (onlyAvailable : Bool) :
    ServiceInstances :=
  .new svcIns.getServiceInfo (svcIns.listInstances onlyAvailable)

variable (ρ) in
structure ServiceRule where
  rules : List ρ
  revision : String
  initialized : Bool

variable (ρ) in
/-- What `load_service_rule` puts behind `Box<dyn Any>`. -/
inductive BoxedRule where
  | rule (value : ρ)
  | list (value : List ρ)

/-- The rules are boxed one by one, but fault detect rules all in one box. -/
def boxedRules (type : GovernanceType) (value : List ρ) : List (BoxedRule ρ) :=
  match type with
  | .faultDetectRule => [.list value]
  | _ => value.map .rule

/-- The last step of `load_service_rule`. -/
def RulesCacheItem.read (type : GovernanceType) (item : RulesCacheItem ρ) :
    Except PoleError (ServiceRule (BoxedRule ρ)) :=
  if item.initialized then .ok ⟨boxedRules type item.value, item.revision, item.initialized⟩
  else .error loadTimeout

end PoleClient.Cache
