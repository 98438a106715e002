import Mathlib.Data.List.Nodup
import PoleClient.Cache.Lists
import PoleClient.Lib.Table

/-! # Watchers of cached resources

The consumer, configuration file and configuration group objects each keep a
listener with their watchers, and register it with the cache at their first
watch. A listener is told of every event of its type and calls the watchers
under the joined names of the event's key.
-/

namespace PoleClient.Cache

open Lib

variable {ρ : Type}

/-! ## Requests and changes -/

/-- The objects that take watchers, and their listeners. -/
inductive WatchKind where
  | «instance»
  | configFile
  | configGroup
deriving DecidableEq

/-- `WatchInstanceRequest`, `WatchConfigFileRequest` and `WatchConfigGroupRequest`, without the
callback. -/
inductive WatchRequest where
  | «instance» (namespaceName service : String)
  | configFile (namespaceName group file : String)
  | configGroup (namespaceName group : String)
deriving DecidableEq

namespace WatchRequest

def kind : WatchRequest → WatchKind
  | .«instance» .. => .«instance»
  | .configFile .. => .configFile
  | .configGroup .. => .configGroup

def getKey : WatchRequest → String
  | .«instance» namespaceName service => namespaceName ++ "#" ++ service
  | .configFile namespaceName group file => namespaceName ++ "#" ++ group ++ "#" ++ file
  | .configGroup namespaceName group => namespaceName ++ "#" ++ group

end WatchRequest

inductive ChangeEvent where
  | serviceInstances (service : ServiceInfo) (instances : List Instance)
  | configFile (configFile : ConfigFile)
  | configGroup (configGroup : ConfigGroup)

def ServiceInstancesCacheItem.toChange (item : ServiceInstancesCacheItem) : ChangeEvent :=
  .serviceInstances item.getServiceInfo (item.listInstances false)

/-- The key of the data is left out on purpose. -/
def ConfigFileCacheItem.toConfigFile (self : ConfigFileCacheItem) : ConfigFile where
  namespaceName := self.value.namespaceName
  group := self.value.group
  name := self.value.fileName
  version := self.value.version
  content := self.value.content
  labels := self.value.labels
  releaseName := self.value.name
  releaseType := self.value.releaseType
  active := self.value.active
  betaLabels := self.value.betaLabels
  encryptAlgo := self.value.encryptAlgo
  encryptKey := ""

def ConfigGroupCacheItem.toConfigGroup (self : ConfigGroupCacheItem) : ConfigGroup :=
  ⟨self.namespaceName, self.group, self.files, self.revision⟩

/-! ## Listeners -/

structure Watcher where
  number : Nat
  req : WatchRequest
deriving DecidableEq

structure ResourceListener where
  watcherId : UInt64
  watchers : Table String (Table UInt64 Watcher)

structure Call where
  watcher : Nat
  change : ChangeEvent

namespace ResourceListener

def new : ResourceListener := ⟨0, .empty⟩

def watchersOf (self : ResourceListener) (key : String) : List Watcher :=
  match self.watchers.lookup key with
  | none => []
  | some watchers => watchers.rows.map Prod.snd

/-- The end of a watch, with the identifier that it returns. -/
def watch (self : ResourceListener) (watcher : Watcher) : ResourceListener where
  watcherId := self.watcherId + 1
  watchers := self.watchers.insert watcher.req.getKey
    (((self.watchers.lookup watcher.req.getKey).getD .empty).insert self.watcherId watcher)

def cancelWatch (self : ResourceListener) (watchKey : String) (watchId : UInt64) :
    ResourceListener :=
  match self.watchers.lookup watchKey with
  | none => self
  | some watchers =>
      { self with watchers := self.watchers.insert watchKey (watchers.erase watchId) }

end ResourceListener

/-- The type that a listener is registered under. -/
def WatchKind.watchKey : WatchKind → EventType
  | .«instance» => .«instance»
  | .configFile => .configFile
  | .configGroup => .configFile

/-- The key that a listener looks its watchers up under; a missing parameter panics. -/
def WatchKind.eventWatchKey (kind : WatchKind) (eventKey : ResourceEventKey) : Option String :=
  match kind with
  | .«instance» =>
      (eventKey.filter "service").map fun service => eventKey.namespaceName ++ "#" ++ service
  | .configFile => do
      let group ← eventKey.filter "group"
      let file ← eventKey.filter "file"
      pure (eventKey.namespaceName ++ "#" ++ group ++ "#" ++ file)
  | .configGroup =>
      (eventKey.filter "group").map fun group => eventKey.namespaceName ++ "#" ++ group

/-- `to_service_instances`, `to_config_file` and `to_config_group`, and the event built from the
item. -/
def WatchKind.change (kind : WatchKind) (value : CacheItemType ρ) : Option ChangeEvent :=
  match kind, value with
  | .«instance», .«instance» item => some item.toChange
  | .configFile, .configFile item => some (.configFile item.toConfigFile)
  | .configGroup, .configGroup item => some (.configGroup item.toConfigGroup)
  | _, _ => none

def ResourceListener.onEvent (self : ResourceListener) (kind : WatchKind)
    (event : ServerEvent ρ) : Option (List Call) :=
  match kind.eventWatchKey event.eventKey with
  | none => none
  | some watchKey =>
      match kind.change event.value with
      | none => some []
      | some change =>
          some ((self.watchersOf watchKey).map fun watcher => ⟨watcher.number, change⟩)

/-! ## The objects and the cache -/

structure ApiId where
  kind : WatchKind
  number : Nat
deriving DecidableEq

structure WatchApi where
  registerResourceWatcher : Bool
  listener : ResourceListener

def WatchApi.new : WatchApi := ⟨false, .new⟩

/-- What a watch returns, for its cancellation. -/
structure WatchResponse where
  watchId : UInt64
  watchKey : String
  owner : ApiId

variable (ρ) in
structure WatchState where
  handler : MemoryResourceHandler ρ
  listeners : EventType → List ApiId
  apis : ApiId → WatchApi
  responses : List WatchResponse

variable (ρ) in
inductive WatchAction where
  | cache (action : CacheAction ρ)
  | watch (number : Nat) (req : WatchRequest)
  | cancelWatch (response : Nat)

namespace WatchState

def new : WatchState ρ where
  handler := .new
  listeners := fun _ => []
  apis := fun _ => .new
  responses := []

def registerResourceListener (s : WatchState ρ) (api : ApiId) : WatchState ρ :=
  if (s.apis api).registerResourceWatcher then s
  else
    { s with
      listeners := Function.update s.listeners api.kind.watchKey
        (s.listeners api.kind.watchKey ++ [api])
      apis := Function.update s.apis api { s.apis api with registerResourceWatcher := true } }

/-- `watch_instance`, `watch_config_file` and `watch_publish_config_files`. -/
def watch (s : WatchState ρ) (api : ApiId) (req : WatchRequest) : WatchState ρ :=
  let s := s.registerResourceListener api
  let item := s.apis api
  { s with
    apis := Function.update s.apis api
      { item with listener := item.listener.watch ⟨s.responses.length, req⟩ }
    responses := s.responses ++ [⟨item.listener.watcherId, req.getKey, api⟩] }

def cancelWatch (s : WatchState ρ) (response : Nat) : WatchState ρ :=
  match s.responses[response]? with
  | none => s
  | some ⟨watchId, watchKey, owner⟩ =>
      { s with
        apis := Function.update s.apis owner
          { s.apis owner with
            listener := (s.apis owner).listener.cancelWatch watchKey watchId } }

def step (s : WatchState ρ) : WatchAction ρ → WatchState ρ
  | .cache action => { s with handler := cacheStep s.handler action }
  | .watch number req => s.watch ⟨req.kind, number⟩ req
  | .cancelWatch response => s.cancelWatch response

/-- The listeners are told in turn; a panic is the end. -/
def notifyListeners (s : WatchState ρ) (event : ServerEvent ρ) : List ApiId → List Call
  | [] => []
  | api :: listeners =>
      match (s.apis api).listener.onEvent api.kind event with
      | none => []
      | some calls => calls ++ s.notifyListeners event listeners

def calls (s : WatchState ρ) (event : RemoteData ρ) : List Call :=
  (onSpecEvent s.handler event).2.flatMap fun
    | .notify serverEvent =>
        s.notifyListeners serverEvent (s.listeners event.eventKey.eventType)
    | _ => []

end WatchState

/-! ## What the listeners hold -/

namespace ResourceListener

def entry (self : ResourceListener) (key : String) (id : UInt64) : Option Watcher :=
  (self.watchers.lookup key).bind fun watchers => watchers.lookup id

theorem mem_watchersOf_iff {self : ResourceListener} {key : String} {watcher : Watcher} :
    watcher ∈ self.watchersOf key ↔ ∃ id, self.entry key id = some watcher := by
  unfold watchersOf entry
  cases self.watchers.lookup key with
  | none => simp
  | some watchers =>
      simp only [List.mem_map, Option.bind_some]
      constructor
      · rintro ⟨⟨id, found⟩, hmem, rfl⟩
        exact ⟨id, AList.lookup_eq_some_iff.mpr hmem⟩
      · rintro ⟨id, hlookup⟩
        exact ⟨(id, watcher), AList.lookup_eq_some_iff.mp hlookup, rfl⟩

theorem entry_watch (self : ResourceListener) (watcher : Watcher) (key : String) (id : UInt64) :
    (self.watch watcher).entry key id =
      if key = watcher.req.getKey ∧ id = self.watcherId then some watcher
      else self.entry key id := by
  unfold watch entry
  simp only [AList.lookup_insert_ite]
  by_cases hkey : key = watcher.req.getKey
  · rw [if_pos hkey, Option.bind_some, AList.lookup_insert_ite]
    by_cases hid : id = self.watcherId
    · rw [if_pos hid, if_pos ⟨hkey, hid⟩]
    · rw [if_neg hid, if_neg fun h => hid h.2, hkey]
      cases self.watchers.lookup watcher.req.getKey <;> rfl
  · rw [if_neg hkey, if_neg fun h => hkey h.1]

theorem entry_cancelWatch (self : ResourceListener) (watchKey key : String) (watchId id : UInt64) :
    (self.cancelWatch watchKey watchId).entry key id =
      if key = watchKey ∧ id = watchId then none else self.entry key id := by
  unfold cancelWatch
  cases hlookup : self.watchers.lookup watchKey with
  | none =>
      simp only
      by_cases h : key = watchKey ∧ id = watchId
      · unfold entry
        rw [if_pos h, h.1, hlookup, Option.bind_none]
      · rw [if_neg h]
  | some watchers =>
      unfold entry
      simp only [AList.lookup_insert_ite]
      by_cases hkey : key = watchKey
      · rw [if_pos hkey, Option.bind_some, AList.lookup_erase_ite, hkey, hlookup]
        simp
      · rw [if_neg hkey, if_neg fun h => hkey h.1]

theorem nodup_watchersOf {self : ResourceListener} {key : String}
    (h : ∀ id other watcher, self.entry key id = some watcher →
      self.entry key other = some watcher → id = other) : (self.watchersOf key).Nodup := by
  unfold watchersOf
  cases hlookup : self.watchers.lookup key with
  | none => exact List.nodup_nil
  | some watchers =>
      apply List.Nodup.map_on _ watchers.nodup_rows
      rintro ⟨id, watcher⟩ hmem ⟨other, found⟩ hother heq
      have hid : self.entry key id = some watcher := by
        unfold entry
        rw [hlookup]
        exact AList.lookup_eq_some_iff.mpr hmem
      have hfound : self.entry key other = some found := by
        unfold entry
        rw [hlookup]
        exact AList.lookup_eq_some_iff.mpr hother
      cases heq
      rw [h id other watcher hid hfound]

end ResourceListener

/-! ## What an action does -/

namespace WatchState

theorem watch_apis (s : WatchState ρ) (api other : ApiId) (req : WatchRequest) :
    (s.watch api req).apis other =
      if other = api then ⟨true, (s.apis api).listener.watch ⟨s.responses.length, req⟩⟩
      else s.apis other := by
  unfold watch registerResourceListener
  by_cases hregistered : (s.apis api).registerResourceWatcher = true
  · simp only [hregistered, if_true, Function.update_apply]
  · simp only [hregistered, if_false, Function.update_self, Bool.false_eq_true]
    by_cases hother : other = api
    · rw [hother, Function.update_self, if_pos rfl]
    · rw [Function.update_of_ne hother, Function.update_of_ne hother, if_neg hother]

theorem watch_responses (s : WatchState ρ) (api : ApiId) (req : WatchRequest) :
    (s.watch api req).responses =
      s.responses ++ [⟨(s.apis api).listener.watcherId, req.getKey, api⟩] := by
  unfold watch registerResourceListener
  by_cases hregistered : (s.apis api).registerResourceWatcher = true
  · simp only [hregistered, if_true]
  · simp only [hregistered, if_false, Function.update_self, Bool.false_eq_true]

theorem watch_listeners (s : WatchState ρ) (api : ApiId) (req : WatchRequest)
    (type : EventType) :
    (s.watch api req).listeners type =
      if (s.apis api).registerResourceWatcher = false ∧ type = api.kind.watchKey then
        s.listeners type ++ [api]
      else s.listeners type := by
  unfold watch registerResourceListener
  by_cases hregistered : (s.apis api).registerResourceWatcher = true
  · simp only [hregistered, if_true, Bool.true_eq_false, false_and, if_false]
  · rw [Bool.not_eq_true] at hregistered
    simp only [hregistered, Bool.false_eq_true, if_false, true_and]
    by_cases htype : type = api.kind.watchKey
    · rw [htype, Function.update_self, if_pos rfl]
    · rw [Function.update_of_ne htype, if_neg htype]

theorem cancelWatch_of_some {s : WatchState ρ} {number : Nat} {response : WatchResponse}
    (h : s.responses[number]? = some response) (api : ApiId) :
    ((s.cancelWatch number).apis api).listener =
        (if api = response.owner then
          (s.apis api).listener.cancelWatch response.watchKey response.watchId
        else (s.apis api).listener) ∧
      ((s.cancelWatch number).apis api).registerResourceWatcher =
        (s.apis api).registerResourceWatcher := by
  unfold cancelWatch
  rw [h]
  simp only
  by_cases howner : api = response.owner
  · rw [howner, Function.update_self, if_pos rfl]
    exact ⟨rfl, rfl⟩
  · rw [Function.update_of_ne howner, if_neg howner]
    exact ⟨rfl, rfl⟩

theorem cancelWatch_frame (s : WatchState ρ) (number : Nat) :
    (s.cancelWatch number).handler = s.handler ∧
      (s.cancelWatch number).listeners = s.listeners ∧
        (s.cancelWatch number).responses = s.responses := by
  unfold cancelWatch
  cases s.responses[number]? <;> exact ⟨rfl, rfl, rfl⟩

end WatchState

end PoleClient.Cache
