import PoleClient.Cache.InstanceIdentity

/-! # Cached lists

The services of a namespace and the files of a configuration group are loaded as
lists. An event fills the entry of a group except for its names, which stay as
the entry was created, and does not touch the entry of a service list at all.
-/

namespace PoleClient.Cache

open Lib

variable {ρ : Type}

/-! ## Loads -/

structure Services where
  serviceList : List ServiceInfo
  revision : String
  initialized : Bool

structure ConfigGroup where
  namespaceName : String
  group : String
  files : List ConfigFile
  revision : String

inductive LoadResult (α : Type) where
  | panicked
  | done (result : Except PoleError α)

/-- The last step of `load_services`. The items are cloned into a new vector, which panics on any
length but its own. -/
def ServicesCacheItem.read (item : ServicesCacheItem) : LoadResult Services :=
  if ¬ item.initialized then .done (.error loadTimeout)
  else if item.value.length = ([] : List ServiceInfo).length then
    .done (.ok ⟨item.value, item.revision, item.initialized⟩)
  else .panicked

/-- The last step of `load_config_group_files`. -/
def ConfigGroupCacheItem.read (item : ConfigGroupCacheItem) : LoadResult ConfigGroup :=
  if ¬ item.initialized then .done (.error loadTimeout)
  else .done (.ok ⟨item.namespaceName, item.group, item.files, item.revision⟩)

/-- The entry is created, and read once the time to wait is over. -/
def loadServices (handler : MemoryResourceHandler ρ) (key : ResourceEventKey) :
    LoadResult Services :=
  match (ensureEntry handler key).services key.namespaceName with
  | none => .panicked
  | some item => item.read

def loadConfigGroupFiles (handler : MemoryResourceHandler ρ) (key : ResourceEventKey) :
    LoadResult ConfigGroup :=
  match key.filter "group" with
  | none => .panicked
  | some group =>
      match (ensureEntry handler key).configGroups (key.namespaceName ++ "#" ++ group) with
      | none => .panicked
      | some item => item.read

/-! ## The resources -/

inductive ListResource where
  | services (namespaceName : String)
  | configGroup (namespaceName group : String)
deriving DecidableEq

def ResourceEventKey.listResource (self : ResourceEventKey) : Option ListResource :=
  match self.eventType with
  | .service => some (.services self.namespaceName)
  | .configGroup => (self.filter "group").map (.configGroup self.namespaceName)
  | _ => none

theorem listResource_services_iff {key : ResourceEventKey} {namespaceName : String} :
    key.listResource = some (.services namespaceName) ↔
      key.eventType = .service ∧ key.namespaceName = namespaceName := by
  unfold ResourceEventKey.listResource
  cases key.eventType <;> simp

theorem listResource_configGroup_iff {key : ResourceEventKey} {namespaceName group : String} :
    key.listResource = some (.configGroup namespaceName group) ↔
      key.eventType = .configGroup ∧ key.namespaceName = namespaceName ∧
        key.filter "group" = some group := by
  unfold ResourceEventKey.listResource
  cases key.eventType with
  | configGroup =>
      simp only [Option.map_eq_some_iff, ListResource.configGroup.injEq, true_and]
      constructor
      · rintro ⟨found, hfound, hname, rfl⟩
        exact ⟨hname, hfound⟩
      · rintro ⟨hname, hfound⟩
        exact ⟨group, hfound, hname, rfl⟩
  | _ => simp

variable (ρ) in
/-- An event with the services of its response, which no arm of the cache reads. -/
structure ListEvent extends RemoteData ρ where
  services : List SpecService

/-- The event carries what the list consists of. -/
def ListEvent.CarriesList (event : ListEvent ρ) : ListResource → Prop
  | .services _ => ∃ remoteVal svc, event.discoverValue = some remoteVal ∧
      remoteVal.service = some svc
  | .configGroup _ _ => ∃ remoteVal, event.configValue = some remoteVal

structure ListEvent.IsFor (event : ListEvent ρ) (resource : ListResource) : Prop where
  key : event.eventKey.listResource = some resource
  value : event.CarriesList resource

def SpecService.toServiceInfo (svc : SpecService) : ServiceInfo :=
  ⟨svc.id, svc.namespaceName, svc.name, svc.metadata, svc.revision⟩

def ListEvent.Loaded (event : ListEvent ρ) (handler : MemoryResourceHandler ρ)
    (key : ResourceEventKey) : ListResource → Prop
  | .services _ => ∃ remoteVal svc services,
      event.discoverValue = some remoteVal ∧ remoteVal.service = some svc ∧
        loadServices handler key = .done (.ok services) ∧
          services.serviceList = event.services.map SpecService.toServiceInfo ∧
            services.revision = svc.revision
  | .configGroup namespaceName group => ∃ remoteVal,
      event.configValue = some remoteVal ∧
        loadConfigGroupFiles handler key = .done (.ok
          ⟨namespaceName, group, remoteVal.fileNames.map ConfigFile.convertFromSpec,
            remoteVal.revision⟩)

/-! ## What an action does to the lists -/

def groupKey (namespaceName group : String) : String := namespaceName ++ "#" ++ group

def ConfigGroupCacheItem.updated (cacheVal : ConfigGroupCacheItem)
    (remoteVal : ConfigDiscoverResponse) : ConfigGroupCacheItem :=
  { cacheVal with
    files := remoteVal.fileNames.map ConfigFile.convertFromSpec
    revision := remoteVal.revision
    initialized := true }

theorem applyEvent_lists {handler after : MemoryResourceHandler ρ} {event : RemoteData ρ}
    {value : CacheItemType ρ} (h : applyEvent handler event = .applied after value) :
    after.services = handler.services ∧
      (event.eventKey.eventType ≠ .configGroup → after.configGroups = handler.configGroups) := by
  rcases applyEvent_cases h with ⟨-, heq⟩ | ⟨type, remoteVal, svc, -, -, -, heq⟩ | ⟨-, heq⟩ |
    ⟨htype, heq⟩ | rfl
  · rw [heq]
    exact ⟨rfl, fun _ => rfl⟩
  · rw [heq]
    exact ⟨rfl, fun _ => rfl⟩
  · rw [heq]
    exact ⟨rfl, fun _ => rfl⟩
  · rw [heq]
    exact ⟨rfl, fun hne => absurd htype hne⟩
  · exact ⟨rfl, fun _ => rfl⟩

theorem onSpecEvent_services (handler : MemoryResourceHandler ρ) (event : RemoteData ρ) :
    (onSpecEvent handler event).1.services = handler.services := by
  unfold onSpecEvent
  cases happly : applyEvent handler event with
  | panicked => rfl
  | notFound => rfl
  | applied after value => exact (applyEvent_lists happly).1

theorem onSpecEvent_configGroups {handler : MemoryResourceHandler ρ} {event : RemoteData ρ}
    {remoteVal : ConfigDiscoverResponse} {group : String}
    (htype : event.eventKey.eventType = .configGroup) (hvalue : event.configValue = some remoteVal)
    (hgroup : event.eventKey.filter "group" = some group) :
    (onSpecEvent handler event).1.configGroups =
      match handler.configGroups (groupKey event.eventKey.namespaceName group) with
      | none => handler.configGroups
      | some item =>
          setEntry handler.configGroups (groupKey event.eventKey.namespaceName group)
            (item.updated remoteVal) := by
  have hevent : applyEvent handler event = applyConfigGroup handler event := by
    unfold applyEvent
    rw [htype]
  unfold onSpecEvent
  rw [hevent]
  unfold applyConfigGroup
  simp only [hvalue, hgroup]
  show _ = match handler.configGroups (event.eventKey.namespaceName ++ "#" ++ group) with
    | none => _
    | some item => _
  cases handler.configGroups (event.eventKey.namespaceName ++ "#" ++ group) <;> rfl

theorem onSpecEvent_group_missing {handler : MemoryResourceHandler ρ} {event : RemoteData ρ}
    (htype : event.eventKey.eventType = .configGroup)
    (hmissing : event.configValue = none ∨ event.eventKey.filter "group" = none) :
    (onSpecEvent handler event).1 = handler := by
  have hevent : applyEvent handler event = .panicked := by
    unfold applyEvent applyConfigGroup
    rcases hmissing with hvalue | hgroup
    · simp only [htype, hvalue]
    · simp only [htype, hgroup]
      cases event.configValue <;> rfl
  unfold onSpecEvent
  rw [hevent]

def CacheAction.WritesGroup (key : String) : CacheAction ρ → Prop
  | .load _ => False
  | .event data => ∃ namespaceName group,
      data.eventKey.listResource = some (.configGroup namespaceName group) ∧
        groupKey namespaceName group = key

theorem onSpecEvent_configGroups_of_not_writes {handler : MemoryResourceHandler ρ}
    {event : RemoteData ρ} {key : String} (h : ¬ (CacheAction.event event).WritesGroup key) :
    (onSpecEvent handler event).1.configGroups key = handler.configGroups key := by
  by_cases htype : event.eventKey.eventType = .configGroup
  · cases hgroup : event.eventKey.filter "group" with
    | none => rw [onSpecEvent_group_missing htype (.inr hgroup)]
    | some group =>
        cases hvalue : event.configValue with
        | none => rw [onSpecEvent_group_missing htype (.inl hvalue)]
        | some remoteVal =>
            have hne : key ≠ groupKey event.eventKey.namespaceName group := fun heq =>
              h ⟨_, group, listResource_configGroup_iff.mpr ⟨htype, rfl, hgroup⟩, heq.symm⟩
            rw [onSpecEvent_configGroups htype hvalue hgroup]
            cases handler.configGroups (groupKey event.eventKey.namespaceName group) with
            | none => rfl
            | some item => exact Function.update_of_ne hne ..
  · unfold onSpecEvent
    cases happly : applyEvent handler event with
    | panicked => rfl
    | notFound => rfl
    | applied after value => exact congrFun ((applyEvent_lists happly).2 htype) key

theorem ensureEntry_services (handler : MemoryResourceHandler ρ) (resource : ResourceEventKey)
    (key : String) :
    (ensureEntry handler resource).services key = handler.services key ∨
      (handler.services key = none ∧ (ensureEntry handler resource).services key = some .new) := by
  unfold ensureEntry
  cases resource.eventType with
  | service => exact orInsert_cases ..
  | «instance» | governance =>
      simp only
      cases resource.filter "service" <;> exact .inl rfl
  | configFile =>
      simp only
      cases resource.filter "group" <;> cases resource.filter "file" <;> exact .inl rfl
  | configGroup =>
      simp only
      cases resource.filter "group" <;> exact .inl rfl
  | unknown | serviceContract | serviceIdentity | serviceIdentityBundle | namespaces
  | configGroups => exact .inl rfl

theorem ensureEntry_configGroups (handler : MemoryResourceHandler ρ)
    (resource : ResourceEventKey) (key : String) :
    (ensureEntry handler resource).configGroups key = handler.configGroups key ∨
      (handler.configGroups key = none ∧
        (ensureEntry handler resource).configGroups key = some .new) := by
  unfold ensureEntry
  cases resource.eventType with
  | configGroup =>
      simp only
      cases resource.filter "group" with
      | none => exact .inl rfl
      | some group => exact orInsert_cases ..
  | «instance» | governance =>
      simp only
      cases resource.filter "service" <;> exact .inl rfl
  | configFile =>
      simp only
      cases resource.filter "group" <;> cases resource.filter "file" <;> exact .inl rfl
  | service | unknown | serviceContract | serviceIdentity | serviceIdentityBundle | namespaces
  | configGroups => exact .inl rfl

/-! ## Runs -/

/-- No event initialises a service list or names a group. -/
structure ListsAsCreated (handler : MemoryResourceHandler ρ) : Prop where
  services : ∀ key item, handler.services key = some item → item = .new
  groups : ∀ key item, handler.configGroups key = some item →
    item.namespaceName = "" ∧ item.group = ""

theorem listsAsCreated_load {handler : MemoryResourceHandler ρ} (inv : ListsAsCreated handler)
    (resource : ResourceEventKey) : ListsAsCreated (ensureEntry handler resource) := by
  constructor
  · intro key item h
    rcases ensureEntry_services handler resource key with hsame | ⟨-, hnew⟩
    · exact inv.services key item (hsame ▸ h)
    · cases hnew.symm.trans h
      rfl
  · intro key item h
    rcases ensureEntry_configGroups handler resource key with hsame | ⟨-, hnew⟩
    · exact inv.groups key item (hsame ▸ h)
    · cases hnew.symm.trans h
      exact ⟨rfl, rfl⟩

theorem listsAsCreated_event {handler : MemoryResourceHandler ρ} (inv : ListsAsCreated handler)
    (event : RemoteData ρ) : ListsAsCreated (onSpecEvent handler event).1 := by
  constructor
  · rw [onSpecEvent_services]
    exact inv.services
  · intro key item h
    by_cases hwrites : (CacheAction.event event).WritesGroup key
    · rcases hwrites with ⟨namespaceName, group, hresource, rfl⟩
      rcases listResource_configGroup_iff.mp hresource with ⟨htype, rfl, hgroup⟩
      cases hvalue : event.configValue with
      | none =>
          rw [onSpecEvent_group_missing htype (.inl hvalue)] at h
          exact inv.groups _ item h
      | some remoteVal =>
          rw [onSpecEvent_configGroups htype hvalue hgroup] at h
          cases hold : handler.configGroups (groupKey event.eventKey.namespaceName group) with
          | none =>
              simp only [hold] at h
              cases h
          | some old =>
              simp only [hold, setEntry, Function.update_self, Option.some.injEq] at h
              rw [← h]
              exact inv.groups _ old hold
    · exact inv.groups key item ((onSpecEvent_configGroups_of_not_writes hwrites).symm.trans h)

theorem listsAsCreated_run (actions : List (CacheAction ρ)) :
    ListsAsCreated (run cacheStep .new actions) := by
  apply run_preserves ListsAsCreated _ actions
  · exact ⟨nofun, nofun⟩
  · intro handler action inv
    cases action with
    | load resource => exact listsAsCreated_load inv resource
    | event event => exact listsAsCreated_event inv event

theorem configGroups_kept {handler : MemoryResourceHandler ρ} {key : String}
    {item : ConfigGroupCacheItem} (h : handler.configGroups key = some item)
    {actions : List (CacheAction ρ)} (others : ∀ action ∈ actions, ¬ action.WritesGroup key) :
    (run cacheStep handler actions).configGroups key = some item := by
  induction actions generalizing handler with
  | nil => exact h
  | cons action actions ih =>
      apply ih _ fun other hother => others other (List.mem_cons_of_mem action hother)
      cases action with
      | load resource =>
          rcases ensureEntry_configGroups handler resource key with hsame | ⟨hnone, -⟩
          · exact hsame.trans h
          · rw [hnone] at h
            cases h
      | event event =>
          have hnot := others _ List.mem_cons_self
          exact (onSpecEvent_configGroups_of_not_writes hnot).trans h

theorem configGroups_present {handler : MemoryResourceHandler ρ} {key : String}
    (h : handler.configGroups key ≠ none) (actions : List (CacheAction ρ)) :
    (run cacheStep handler actions).configGroups key ≠ none := by
  apply run_preserves (fun handler : MemoryResourceHandler ρ => handler.configGroups key ≠ none)
    _ actions h
  intro handler action present
  cases action with
  | load resource =>
      show (ensureEntry handler resource).configGroups key ≠ none
      rcases ensureEntry_configGroups handler resource key with hsame | ⟨-, hnew⟩
      · rw [hsame]
        exact present
      · rw [hnew]
        exact fun h => nomatch h
  | event event =>
      show (onSpecEvent handler event).1.configGroups key ≠ none
      by_cases hwrites : (CacheAction.event event).WritesGroup key
      · rcases hwrites with ⟨namespaceName, group, hresource, rfl⟩
        rcases listResource_configGroup_iff.mp hresource with ⟨htype, rfl, hgroup⟩
        cases hvalue : event.configValue with
        | none =>
            rw [onSpecEvent_group_missing htype (.inl hvalue)]
            exact present
        | some remoteVal =>
            rw [onSpecEvent_configGroups htype hvalue hgroup]
            cases hold : handler.configGroups (groupKey event.eventKey.namespaceName group) with
            | none => exact absurd hold present
            | some old => simp [setEntry]
      · rw [onSpecEvent_configGroups_of_not_writes hwrites]
        exact present

/-! ## What a load gives -/

def CacheAction.listEvent : CacheAction ρ → Option ListResource
  | .load _ => none
  | .event data => data.eventKey.listResource

structure ListEvent.Served (event : ListEvent ρ) (before after : List (CacheAction ρ))
    (resource : ListResource) : Prop where
  applied : applyEvent (run cacheStep .new before) event.toRemoteData ≠ .panicked
  loaded : ∀ key : ResourceEventKey, key.listResource = some resource →
    event.Loaded (run cacheStep .new (before ++ .event event.toRemoteData :: after)) key resource

theorem loadServices_of_run (actions : List (CacheAction ρ)) {key : ResourceEventKey}
    (htype : key.eventType = .service) :
    loadServices (run cacheStep .new actions) key = .done (.error loadTimeout) := by
  have hensured := listsAsCreated_load (listsAsCreated_run actions) key
  have hentry : (ensureEntry (run cacheStep .new actions) key).services key.namespaceName =
      some (((run cacheStep .new actions).services key.namespaceName).getD .new) := by
    unfold ensureEntry
    simp only [htype]
    exact Function.update_self ..
  unfold loadServices
  rw [hentry]
  simp only
  rw [hensured.services _ _ hentry]
  rfl

theorem loadConfigGroupFiles_of_entry {handler : MemoryResourceHandler ρ}
    {key : ResourceEventKey} {group : String} {item : ConfigGroupCacheItem}
    (hgroup : key.filter "group" = some group)
    (hentry : handler.configGroups (groupKey key.namespaceName group) = some item) :
    loadConfigGroupFiles handler key = item.read := by
  have hensured : (ensureEntry handler key).configGroups (groupKey key.namespaceName group) =
      some item := by
    rcases ensureEntry_configGroups handler key (groupKey key.namespaceName group) with
      hsame | ⟨hnone, -⟩
    · rw [hsame]
      exact hentry
    · rw [hnone] at hentry
      cases hentry
  unfold loadConfigGroupFiles
  rw [hgroup]
  simp only
  show (match (ensureEntry handler key).configGroups (groupKey key.namespaceName group) with
    | none => LoadResult.panicked
    | some item => item.read) = _
  rw [hensured]

/-- No other group shares the key of the nameless one. -/
theorem groupKey_nameless {namespaceName group : String}
    (h : groupKey namespaceName group = groupKey "" "") : namespaceName = "" ∧ group = "" := by
  have hlength := congrArg String.length h
  unfold groupKey at hlength
  simp only [String.length_append] at hlength
  constructor
  · apply String.length_eq_zero_iff.mp
    simp at hlength
    omega
  · apply String.length_eq_zero_iff.mp
    simp at hlength
    omega

theorem configGroups_of_load {before : List (CacheAction ρ)} {key : ResourceEventKey}
    {namespaceName group : String} (hload : .load key ∈ before)
    (hresource : key.listResource = some (.configGroup namespaceName group)) :
    (run cacheStep .new before).configGroups (groupKey namespaceName group) ≠ none := by
  rcases listResource_configGroup_iff.mp hresource with ⟨htype, rfl, hgroup⟩
  rcases List.append_of_mem hload with ⟨first, rest, rfl⟩
  rw [run_append, run_cons]
  apply configGroups_present
  show (ensureEntry _ key).configGroups _ ≠ none
  unfold ensureEntry
  simp only [htype, hgroup]
  show orInsert _ (groupKey key.namespaceName group) _ (groupKey key.namespaceName group) ≠ none
  unfold orInsert setEntry
  rw [Function.update_self]
  exact fun h => nomatch h

theorem applyEvent_group_ne_panicked {handler : MemoryResourceHandler ρ} {event : RemoteData ρ}
    {remoteVal : ConfigDiscoverResponse} {group : String}
    (htype : event.eventKey.eventType = .configGroup) (hvalue : event.configValue = some remoteVal)
    (hgroup : event.eventKey.filter "group" = some group) :
    applyEvent handler event ≠ .panicked := by
  unfold applyEvent applyConfigGroup
  simp only [htype, hvalue, hgroup]
  cases handler.configGroups (event.eventKey.namespaceName ++ "#" ++ group) <;>
    exact fun h => nomatch h

/-- A loaded group has the empty names it was created with. -/
theorem loadConfigGroupFiles_of_run (actions : List (CacheAction ρ)) {key : ResourceEventKey}
    {namespaceName group : String} {result : ConfigGroup}
    (hresource : key.listResource = some (.configGroup namespaceName group))
    (hpresent : (run cacheStep .new actions).configGroups (groupKey namespaceName group) ≠ none)
    (h : loadConfigGroupFiles (run cacheStep .new actions) key = .done (.ok result)) :
    result.namespaceName = "" ∧ result.group = "" := by
  rcases listResource_configGroup_iff.mp hresource with ⟨-, rfl, hgroup⟩
  rcases Option.ne_none_iff_exists'.mp hpresent with ⟨item, hentry⟩
  rw [loadConfigGroupFiles_of_entry hgroup hentry] at h
  unfold ConfigGroupCacheItem.read at h
  split at h
  · cases h
  · cases h
    exact (listsAsCreated_run actions).groups _ item hentry

/-- After the last event with its cache key, a group is served with the files and the revision
of the event, in order, and without its names. -/
theorem loadConfigGroupFiles_after_event (before after : List (CacheAction ρ))
    {event : RemoteData ρ} {remoteVal : ConfigDiscoverResponse} {namespaceName group : String}
    (hresource : event.eventKey.listResource = some (.configGroup namespaceName group))
    (hvalue : event.configValue = some remoteVal)
    (hpresent : (run cacheStep .new before).configGroups (groupKey namespaceName group) ≠ none)
    (others : ∀ action ∈ after, ¬ action.WritesGroup (groupKey namespaceName group))
    {key : ResourceEventKey} (hkey : key.listResource = some (.configGroup namespaceName group)) :
    loadConfigGroupFiles (run cacheStep .new (before ++ .event event :: after)) key =
      .done (.ok ⟨"", "", remoteVal.fileNames.map ConfigFile.convertFromSpec,
        remoteVal.revision⟩) := by
  rcases listResource_configGroup_iff.mp hresource with ⟨htype, rfl, hgroup⟩
  rcases listResource_configGroup_iff.mp hkey with ⟨-, hname, hkeyGroup⟩
  rcases Option.ne_none_iff_exists'.mp hpresent with ⟨old, hold⟩
  have hupdated : (cacheStep (run cacheStep .new before) (.event event)).configGroups
      (groupKey event.eventKey.namespaceName group) = some (old.updated remoteVal) := by
    show (onSpecEvent _ event).1.configGroups _ = _
    rw [onSpecEvent_configGroups htype hvalue hgroup, hold]
    exact Function.update_self ..
  have hkept := configGroups_kept hupdated others
  rw [← hname] at hkept
  rw [run_append, run_cons, loadConfigGroupFiles_of_entry hkeyGroup hkept]
  have hnames := (listsAsCreated_run before).groups _ old hold
  unfold ConfigGroupCacheItem.read ConfigGroupCacheItem.updated
  simp [hnames]

/-- The last event of a list is served as received if and only if the list is that of the
configuration group without a namespace and a name. -/
theorem list_served_iff (before after : List (CacheAction ρ)) (event : ListEvent ρ)
    (resource : ListResource) (hfor : event.IsFor resource)
    (loaded : ∃ key : ResourceEventKey, key.listResource = some resource ∧ .load key ∈ before)
    (last : ∀ action ∈ after, action.listEvent ≠ some resource) :
    event.Served before after resource ↔ resource = .configGroup "" "" := by
  rcases loaded with ⟨key, hkey, hload⟩
  cases resource with
  | services namespaceName =>
      constructor
      · intro h
        rcases h.loaded key hkey with ⟨_, _, services, -, -, hservices, -, -⟩
        rw [loadServices_of_run _ (listResource_services_iff.mp hkey).1] at hservices
        cases hservices
      · exact fun h => nomatch h
  | configGroup namespaceName group =>
      have hbefore := configGroups_of_load hload hkey
      constructor
      · intro h
        rcases h.loaded key hkey with ⟨remoteVal, -, hfiles⟩
        have hpresent := configGroups_present hbefore (.event event.toRemoteData :: after)
        rw [← run_append] at hpresent
        rcases loadConfigGroupFiles_of_run _ hkey hpresent hfiles with ⟨rfl, rfl⟩
        rfl
      · intro h
        cases h
        rcases hfor with ⟨hevent, remoteVal, hvalue⟩
        rcases listResource_configGroup_iff.mp hevent with ⟨htype, -, hgroup⟩
        refine ⟨applyEvent_group_ne_panicked htype hvalue hgroup, fun other hother => ?_⟩
        refine ⟨remoteVal, hvalue, ?_⟩
        apply loadConfigGroupFiles_after_event before after hevent hvalue hbefore _ hother
        intro action haction hwrites
        cases action with
        | load _ => exact hwrites
        | event data =>
            rcases hwrites with ⟨otherName, otherGroup, hdata, heq⟩
            rcases groupKey_nameless heq with ⟨rfl, rfl⟩
            exact last _ haction hdata

/-! ## One group and one namespace -/

def groupResourceKey (namespaceName group : String) : ResourceEventKey :=
  ⟨namespaceName, .configGroup, fun name => if name = "group" then some group else none⟩

def appRelease : ConfigFileRelease :=
  ⟨"v1", "prod", "settings", "app.yaml", 1, "a: 1", .empty, "", true, [], ""⟩

def groupEvent (namespaceName group : String) : ListEvent Unit where
  eventKey := groupResourceKey namespaceName group
  discoverValue := none
  configValue := some ⟨"r1", none, [appRelease]⟩
  services := []

def prodServicesKey : ResourceEventKey := ⟨"prod", .service, fun _ => none⟩

def prodServicesEvent : ListEvent Unit where
  eventKey := prodServicesKey
  discoverValue := some ordersResponse
  configValue := none
  services := [ordersService]

theorem nameless_group_served :
    (groupEvent "" "").Served [.load (groupResourceKey "" "")] [] (.configGroup "" "") :=
  (list_served_iff [.load (groupResourceKey "" "")] [] (groupEvent "" "") (.configGroup "" "")
    ⟨rfl, _, rfl⟩ ⟨_, rfl, List.mem_singleton.mpr rfl⟩ (fun _ h => nomatch h)).mpr rfl

/-- The files of settings in prod come without a namespace, and the services of prod not at
all. -/
theorem prod_lists_not_served :
    (groupEvent "prod" "settings").IsFor (.configGroup "prod" "settings") ∧
      ¬ (groupEvent "prod" "settings").Served [.load (groupResourceKey "prod" "settings")] []
        (.configGroup "prod" "settings") ∧
      prodServicesEvent.IsFor (.services "prod") ∧
      ¬ prodServicesEvent.Served [.load prodServicesKey] [] (.services "prod") := by
  refine ⟨⟨rfl, _, rfl⟩, fun h => ?_, ⟨rfl, _, _, rfl, rfl⟩, fun h => ?_⟩
  · rcases h.loaded (groupResourceKey "prod" "settings") rfl with ⟨_, -, hfiles⟩
    have hnames := loadConfigGroupFiles_of_run [.load (groupResourceKey "prod" "settings"),
      .event (groupEvent "prod" "settings").toRemoteData] rfl (Option.ne_none_iff_exists'.mpr
        ⟨_, rfl⟩) hfiles
    have hprod : "prod" = "" := hnames.1
    exact absurd hprod (by decide)
  · rcases h.loaded prodServicesKey rfl with ⟨_, _, services, -, -, hservices, -⟩
    cases hservices

end PoleClient.Cache
