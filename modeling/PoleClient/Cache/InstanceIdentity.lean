import PoleClient.Cache.MemoryCache
import PoleClient.Lib.Run

/-! # The identity of cached instances

An instance event fills the lists and the revision of the entry, and never its
service information, which stays as the entry was created. So the lists are
those of the last event, while every entry names the service whose namespace
and name are empty.
-/

namespace PoleClient.Cache

open Lib

variable {ρ : Type}

/-! ## Runs of the cache -/

variable (ρ) in
inductive CacheAction where
  | load (key : ResourceEventKey)
  | event (event : RemoteData ρ)

def cacheStep (handler : MemoryResourceHandler ρ) : CacheAction ρ → MemoryResourceHandler ρ
  | .load key => ensureEntry handler key
  | .event event => (onSpecEvent handler event).1

def CacheAction.instanceService : CacheAction ρ → Option SpecService
  | .load _ => none
  | .event data =>
      if data.eventKey.eventType = .«instance» then
        data.discoverValue.bind fun remoteVal => remoteVal.service
      else none

def CacheAction.WritesInstances (key : String) (action : CacheAction ρ) : Prop :=
  ∃ svc, action.instanceService = some svc ∧ searchKey svc = key

theorem writesInstances_event_iff {event : RemoteData ρ} {key : String} :
    (CacheAction.event event).WritesInstances key ↔
      event.eventKey.eventType = .«instance» ∧ ∃ remoteVal svc,
        event.discoverValue = some remoteVal ∧ remoteVal.service = some svc ∧
          searchKey svc = key := by
  unfold CacheAction.WritesInstances CacheAction.instanceService
  by_cases htype : event.eventKey.eventType = .«instance»
  · simp only [htype, if_true, true_and, Option.bind_eq_some_iff]
    constructor
    · rintro ⟨svc, ⟨remoteVal, hvalue, hservice⟩, hkey⟩
      exact ⟨remoteVal, svc, hvalue, hservice, hkey⟩
    · rintro ⟨remoteVal, svc, hvalue, hservice, hkey⟩
      exact ⟨svc, ⟨remoteVal, hvalue, hservice⟩, hkey⟩
  · simp [htype]

/-! ## What an action does to an instance entry -/

def ServiceInstancesCacheItem.updated (cacheVal : ServiceInstancesCacheItem)
    (remoteVal : DiscoverResponse ρ) (svc : SpecService) : ServiceInstancesCacheItem :=
  { cacheVal with
    value := remoteVal.instances.map Instance.convertFromSpec
    availableInstances :=
      (remoteVal.instances.map Instance.convertFromSpec).filter Instance.isAvailable
    revision := svc.revision
    initialized := true }

theorem applyEvent_instances_of_ne {handler after : MemoryResourceHandler ρ}
    {event : RemoteData ρ} {value : CacheItemType ρ}
    (hne : event.eventKey.eventType ≠ .«instance»)
    (h : applyEvent handler event = .applied after value) :
    after.instances = handler.instances := by
  rcases applyEvent_cases h with ⟨htype, -⟩ | ⟨type, remoteVal, svc, -, -, -, heq⟩ | ⟨-, heq⟩ |
    ⟨-, heq⟩ | rfl
  · exact absurd htype hne
  · rw [heq]
  · rw [heq]
  · rw [heq]
  · rfl

/-- An instance event updates the entry of its service, if there is one, and no other. -/
theorem onSpecEvent_instances {handler : MemoryResourceHandler ρ} {event : RemoteData ρ}
    {remoteVal : DiscoverResponse ρ} {svc : SpecService}
    (htype : event.eventKey.eventType = .«instance») (hvalue : event.discoverValue = some remoteVal)
    (hservice : remoteVal.service = some svc) :
    (onSpecEvent handler event).1.instances =
      match handler.instances (searchKey svc) with
      | none => handler.instances
      | some item =>
          setEntry handler.instances (searchKey svc) (item.updated remoteVal svc) := by
  have hevent : applyEvent handler event = applyInstances handler remoteVal svc := by
    unfold applyEvent applyDiscover
    simp only [htype, hvalue, hservice]
  unfold onSpecEvent
  rw [hevent]
  unfold applyInstances
  cases handler.instances (searchKey svc) <;> rfl

theorem onSpecEvent_instances_of_not_writes {handler : MemoryResourceHandler ρ}
    {event : RemoteData ρ} {key : String}
    (h : ¬ (CacheAction.event event).WritesInstances key) :
    (onSpecEvent handler event).1.instances key = handler.instances key := by
  by_cases htype : event.eventKey.eventType = .«instance»
  · rcases applyDiscover_cases event (applyInstances handler) with
      hpanicked | ⟨remoteVal, svc, hvalue, hservice, -⟩
    · have hevent : applyEvent handler event = .panicked := by
        unfold applyEvent
        simp only [htype, hpanicked]
      unfold onSpecEvent
      rw [hevent]
    · have hne : key ≠ searchKey svc := by
        intro heq
        exact h (writesInstances_event_iff.mpr
          ⟨htype, remoteVal, svc, hvalue, hservice, heq.symm⟩)
      rw [onSpecEvent_instances htype hvalue hservice]
      cases handler.instances (searchKey svc) with
      | none => rfl
      | some item => exact Function.update_of_ne hne ..
  · unfold onSpecEvent
    cases happly : applyEvent handler event with
    | panicked => rfl
    | notFound => rfl
    | applied after value => exact congrFun (applyEvent_instances_of_ne htype happly) key

theorem ensureEntry_instances (handler : MemoryResourceHandler ρ) (resource : ResourceEventKey)
    (key : String) :
    (ensureEntry handler resource).instances key = handler.instances key ∨
      (handler.instances key = none ∧
        (ensureEntry handler resource).instances key = some .new) := by
  unfold ensureEntry
  cases htype : resource.eventType with
  | «instance» =>
      simp only
      cases resource.filter "service" with
      | none => exact .inl rfl
      | some service => exact orInsert_cases ..
  | governance type =>
      simp only
      cases resource.filter "service" <;> exact .inl rfl
  | configFile =>
      simp only
      cases resource.filter "group" <;> cases resource.filter "file" <;> exact .inl rfl
  | configGroup =>
      simp only
      cases resource.filter "group" <;> exact .inl rfl
  | service | unknown | serviceContract | serviceIdentity | serviceIdentityBundle | namespaces
  | configGroups => exact .inl rfl

/-! ## Runs -/

def EachEntry (p : ServiceInstancesCacheItem → Prop) (handler : MemoryResourceHandler ρ) : Prop :=
  ∀ key item, handler.instances key = some item → p item

section Entries

variable {p : ServiceInstancesCacheItem → Prop} (hnew : p .new)
  (hupdated : ∀ old (remoteVal : DiscoverResponse ρ) svc, p old → p (old.updated remoteVal svc))

include hnew hupdated

theorem eachEntry_step {handler : MemoryResourceHandler ρ} (inv : EachEntry p handler)
    (action : CacheAction ρ) : EachEntry p (cacheStep handler action) := by
  intro key item h
  cases action with
  | load resource =>
      rcases ensureEntry_instances handler resource key with hsame | ⟨-, hadded⟩
      · exact inv key item (hsame ▸ h)
      · cases hadded.symm.trans h
        exact hnew
  | event event =>
      by_cases hwrites : (CacheAction.event event).WritesInstances key
      · rcases writesInstances_event_iff.mp hwrites with
          ⟨htype, remoteVal, svc, hvalue, hservice, rfl⟩
        have hentry : (onSpecEvent handler event).1.instances (searchKey svc) = some item := h
        rw [onSpecEvent_instances htype hvalue hservice] at hentry
        cases hold : handler.instances (searchKey svc) with
        | none =>
            simp only [hold] at hentry
            cases hentry
        | some old =>
            simp only [hold, setEntry, Function.update_self, Option.some.injEq] at hentry
            rw [← hentry]
            exact hupdated old remoteVal svc (inv (searchKey svc) old hold)
      · exact inv key item ((onSpecEvent_instances_of_not_writes hwrites).symm.trans h)

theorem eachEntry_run (actions : List (CacheAction ρ)) :
    EachEntry p (run cacheStep .new actions) :=
  run_preserves (EachEntry p) (fun _ action inv => eachEntry_step hnew hupdated inv action) actions
    fun _ _ h => nomatch h

end Entries

/-- Nobody writes the service information of an entry. -/
theorem anonymous_run (actions : List (CacheAction ρ)) :
    EachEntry (fun item => item.svcInfo = default) (run cacheStep .new actions) := by
  apply eachEntry_run
  · rfl
  · exact fun _ _ _ h => h

/-- The available instances of an entry are those of all that can be called. -/
theorem available_run (actions : List (CacheAction ρ)) :
    EachEntry (fun item => item.listInstances true =
      (item.listInstances false).filter Instance.isAvailable) (run cacheStep .new actions) := by
  apply eachEntry_run
  · rfl
  · exact fun _ _ _ _ => rfl

/-- An entry outlives the actions that do not write it. -/
theorem instances_kept {handler : MemoryResourceHandler ρ} {key : String}
    {item : ServiceInstancesCacheItem} (h : handler.instances key = some item)
    {actions : List (CacheAction ρ)} (others : ∀ action ∈ actions, ¬ action.WritesInstances key) :
    (run cacheStep handler actions).instances key = some item := by
  induction actions generalizing handler with
  | nil => exact h
  | cons action actions ih =>
      apply ih _ fun other hother => others other (List.mem_cons_of_mem action hother)
      cases action with
      | load resource =>
          rcases ensureEntry_instances handler resource key with hsame | ⟨hnone, -⟩
          · exact hsame.trans h
          · rw [hnone] at h
            cases h
      | event event =>
          have hnot := others _ List.mem_cons_self
          exact (onSpecEvent_instances_of_not_writes hnot).trans h

theorem instances_present_step {handler : MemoryResourceHandler ρ} {key : String}
    (h : handler.instances key ≠ none) (action : CacheAction ρ) :
    (cacheStep handler action).instances key ≠ none := by
  cases action with
  | load resource =>
      rcases ensureEntry_instances handler resource key with hsame | ⟨-, hnew⟩
      · exact fun hnone => h (hsame.symm.trans hnone)
      · exact fun hnone => nomatch hnew.symm.trans hnone
  | event event =>
      by_cases hwrites : (CacheAction.event event).WritesInstances key
      · rcases writesInstances_event_iff.mp hwrites with
          ⟨htype, remoteVal, svc, hvalue, hservice, rfl⟩
        show (onSpecEvent handler event).1.instances (searchKey svc) ≠ none
        rw [onSpecEvent_instances htype hvalue hservice]
        cases hold : handler.instances (searchKey svc) with
        | none => exact absurd hold h
        | some old => simp [setEntry]
      · exact fun hnone => h ((onSpecEvent_instances_of_not_writes hwrites).symm.trans hnone)

theorem instances_present {handler : MemoryResourceHandler ρ} {key : String}
    (h : handler.instances key ≠ none) (actions : List (CacheAction ρ)) :
    (run cacheStep handler actions).instances key ≠ none :=
  run_preserves (fun handler : MemoryResourceHandler ρ => handler.instances key ≠ none)
    (fun _ action present => instances_present_step present action) actions h

/-! ## What an entry reports -/

structure Identifies (info : ServiceInfo) (svc : SpecService) : Prop where
  namespaceName : info.namespaceName = svc.namespaceName
  name : info.name = svc.name
  metadata : info.metadata = svc.metadata
  revision : info.revision = svc.revision

structure ReportsInstances (item : ServiceInstancesCacheItem) (remoteVal : DiscoverResponse ρ)
    (svc : SpecService) : Prop where
  initialized : item.initialized = true
  value : item.listInstances false = remoteVal.instances.map Instance.convertFromSpec
  available : item.listInstances true = (item.listInstances false).filter Instance.isAvailable
  revision : item.revision = svc.revision

structure Nameless (svc : SpecService) : Prop where
  namespaceName : svc.namespaceName = ""
  name : svc.name = ""
  metadata : svc.metadata = .empty
  revision : svc.revision = ""

theorem identifies_iff {item : ServiceInstancesCacheItem} (h : item.svcInfo = default)
    (svc : SpecService) : Identifies item.getServiceInfo svc ↔ Nameless svc := by
  unfold ServiceInstancesCacheItem.getServiceInfo
  rw [h]
  constructor
  · exact fun h => ⟨h.1.symm, h.2.symm, h.3.symm, h.4.symm⟩
  · exact fun h => ⟨h.1.symm, h.2.symm, h.3.symm, h.4.symm⟩

/-- No other service shares the key of the nameless one. -/
theorem searchKey_nameless {svc other : SpecService} (h : Nameless svc)
    (heq : searchKey other = searchKey svc) :
    other.namespaceName = svc.namespaceName ∧ other.name = svc.name := by
  unfold searchKey serviceKey at heq
  rw [h.namespaceName, h.name] at heq ⊢
  have hlength := congrArg String.length heq
  simp only [String.length_append] at hlength
  have hempty : ∀ text : String, text.length = 0 → text = "" :=
    fun _ => String.length_eq_zero_iff.mp
  exact ⟨hempty _ (by simp at hlength; omega), hempty _ (by simp at hlength; omega)⟩

/-- After the last instance event of a service, its entry identifies the service if and only if
that has no name, metadata and revision; the lists and the revision are those of the event unless
another service has the same key; and the cache keys of all entries are one. -/
theorem instances_after_last_event (before after : List (CacheAction ρ)) (event : RemoteData ρ)
    (remoteVal : DiscoverResponse ρ) (svc : SpecService)
    (htype : event.eventKey.eventType = .«instance»)
    (hvalue : event.discoverValue = some remoteVal) (hservice : remoteVal.service = some svc)
    (loaded : (run cacheStep .new before).instances (searchKey svc) ≠ none)
    (last : ∀ action ∈ after, ∀ other, action.instanceService = some other →
      ¬ (other.namespaceName = svc.namespaceName ∧ other.name = svc.name)) :
    ∃ item, (run cacheStep .new (before ++ .event event :: after)).instances (searchKey svc) =
        some item ∧
      ((Identifies item.getServiceInfo svc ∧
          (∀ onlyAvailable, Identifies (getServiceInstances item onlyAvailable).service svc) ∧
          ReportsInstances item remoteVal svc) ↔ Nameless svc) ∧
      ((∀ action ∈ after, ¬ action.WritesInstances (searchKey svc)) →
        ReportsInstances item remoteVal svc) ∧
      ∀ onlyAvailable, (getServiceInstances item onlyAvailable).getCacheKey =
        "Instance-namespace=-service=" := by
  cases hold : (run cacheStep .new before).instances (searchKey svc) with
  | none => exact absurd hold loaded
  | some old =>
      have hupdated : (cacheStep (run cacheStep .new before) (.event event)).instances
          (searchKey svc) = some (old.updated remoteVal svc) := by
        show (onSpecEvent _ event).1.instances (searchKey svc) = _
        rw [onSpecEvent_instances htype hvalue hservice, hold]
        exact Function.update_self ..
      have hpresent := instances_present (by rw [hupdated]; exact fun h => nomatch h) after
      have hrun : run cacheStep .new (before ++ .event event :: after) =
          run cacheStep (cacheStep (run cacheStep .new before) (.event event)) after := by
        rw [run_append, run_cons]
      have hreports : (∀ action ∈ after, ¬ action.WritesInstances (searchKey svc)) →
          ∀ item, (run cacheStep .new (before ++ .event event :: after)).instances
            (searchKey svc) = some item → ReportsInstances item remoteVal svc := by
        intro others item hitem
        rw [hrun, instances_kept hupdated others] at hitem
        cases hitem
        exact ⟨rfl, rfl, rfl, rfl⟩
      rw [← hrun] at hpresent
      cases hentry : (run cacheStep .new (before ++ .event event :: after)).instances
          (searchKey svc) with
      | none => exact absurd hentry hpresent
      | some item =>
          have hanonymous := anonymous_run _ (searchKey svc) item hentry
          have hidentifies := identifies_iff hanonymous svc
          refine ⟨item, rfl, ?_, fun others => hreports others item hentry, fun onlyAvailable => ?_⟩
          · constructor
            · exact fun h => hidentifies.mp h.1
            · intro hnameless
              have hinfo := hidentifies.mpr hnameless
              refine ⟨hinfo, fun _ => hinfo, hreports (fun action haction => ?_) item hentry⟩
              rintro ⟨other, hother, hkey⟩
              exact last action haction other hother (searchKey_nameless hnameless hkey)
          · unfold getServiceInstances ServiceInstances.new ServiceInstances.getCacheKey
              ServiceInstancesCacheItem.getServiceInfo
            rw [hanonymous]
            rfl

/-! ## One service -/

def ordersService : SpecService := ⟨"s1", "prod", "orders", .empty, "r1"⟩

def ordersKey (type : EventType) : ResourceEventKey :=
  ⟨"prod", type, fun name => if name = "service" then some "orders" else none⟩

def ordersInstance (id : String) (healthy : Bool) : SpecInstance :=
  ⟨id, "prod", "orders", "10.0.0.1", 8080, "", "", healthy, false, 100, 0, .empty, none, ""⟩

def ordersResponse : DiscoverResponse Unit where
  service := some ordersService
  instances := [ordersInstance "a" true, ordersInstance "b" false]
  customRouteRules := []
  circuitBreaker := []
  rateLimit := []
  faultDetectRules := []
  lanes := []
  losslessRules := []
  trafficSecurityRules := []
  trafficMirrorRules := []
  trafficMockRules := []

def ordersEvent : RemoteData Unit := ⟨ordersKey .«instance», some ordersResponse, none⟩

theorem ordersEntry_loaded :
    (run cacheStep .new [.load (ordersKey .«instance»)] : MemoryResourceHandler Unit).instances
      (searchKey ordersService) = some .new := by
  rfl

theorem orders_lists_reported :
    ∃ item, (run cacheStep .new [.load (ordersKey .«instance»), .event ordersEvent]).instances
        (searchKey ordersService) = some item ∧
      ReportsInstances item ordersResponse ordersService := by
  rcases instances_after_last_event [.load (ordersKey .«instance»)] [] ordersEvent ordersResponse
    ordersService rfl rfl rfl (by rw [ordersEntry_loaded]; exact fun h => nomatch h)
    (fun _ h => nomatch h) with ⟨item, hitem, -, hreports, -⟩
  exact ⟨item, hitem, hreports fun _ h => nomatch h⟩

/-- The entry of orders in prod names no service. -/
theorem orders_not_identified :
    ∃ item, (run cacheStep .new [.load (ordersKey .«instance»), .event ordersEvent]).instances
        (searchKey ordersService) = some item ∧
      ¬ Identifies item.getServiceInfo ordersService ∧
      (getServiceInstances item true).getCacheKey = "Instance-namespace=-service=" := by
  refine ⟨ServiceInstancesCacheItem.new.updated ordersResponse ordersService, rfl, fun h => ?_, rfl⟩
  exact absurd h.namespaceName (by decide)

end PoleClient.Cache
