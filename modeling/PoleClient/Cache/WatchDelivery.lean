import PoleClient.Cache.Watchers

/-! # Delivery to watchers

Against the watchers that were registered and not cancelled, an event calls
those under the text of its key that a listener of its type holds. So the
watchers of groups, whose listener is registered for files, are not called,
and watchers of other names that join to the same text are.
-/

namespace PoleClient.Cache

open Lib

variable {ρ : Type}

/-! ## What is to be delivered -/

/-- The watchers that were registered and not cancelled. -/
structure Subscriptions where
  count : Nat
  live : List Watcher

namespace Subscriptions

def none : Subscriptions := ⟨0, []⟩

def step (subs : Subscriptions) : WatchAction ρ → Subscriptions
  | .cache _ => subs
  | .watch _ req => ⟨subs.count + 1, subs.live ++ [⟨subs.count, req⟩]⟩
  | .cancelWatch response =>
      { subs with live := subs.live.filter fun watcher => watcher.number ≠ response }

end Subscriptions

def ResourceEventKey.watchRequest (self : ResourceEventKey) : Option WatchRequest :=
  match self.eventType with
  | .«instance» =>
      (self.filter "service").map fun service => .«instance» self.namespaceName service
  | .configFile => do
      let group ← self.filter "group"
      let file ← self.filter "file"
      pure (.configFile self.namespaceName group file)
  | .configGroup =>
      (self.filter "group").map fun group => .configGroup self.namespaceName group
  | _ => none

def Applies (handler : MemoryResourceHandler ρ) (event : RemoteData ρ) : Prop :=
  ∃ after value, applyEvent handler event = .applied after value

def installed (handler : MemoryResourceHandler ρ) (event : RemoteData ρ) : Option ChangeEvent :=
  match event.eventKey.eventType with
  | .«instance» => do
      let remoteVal ← event.discoverValue
      let svc ← remoteVal.service
      let item ← handler.instances (searchKey svc)
      pure item.toChange
  | .configFile => do
      let group ← event.eventKey.filter "group"
      let file ← event.eventKey.filter "file"
      let item ← handler.configFiles
        (event.eventKey.namespaceName ++ "#" ++ group ++ "#" ++ file)
      pure (.configFile item.toConfigFile)
  | .configGroup => do
      let group ← event.eventKey.filter "group"
      let item ← handler.configGroups (groupKey event.eventKey.namespaceName group)
      pure (.configGroup item.toConfigGroup)
  | _ => none

/-- An event that is applied calls exactly the live watchers of its resource, each once, with the
content it has installed; an event that is not applied calls none. -/
def Delivers (s : WatchState ρ) (subs : Subscriptions) (event : RemoteData ρ) : Prop :=
  (Applies s.handler event → ∀ req, event.eventKey.watchRequest = some req →
    ∃ change, installed (onSpecEvent s.handler event).1 event = some change ∧
      (s.calls event).Perm
        ((subs.live.filter fun watcher => watcher.req = req).map fun watcher =>
          ⟨watcher.number, change⟩)) ∧
    (¬ Applies s.handler event ∨ event.eventKey.watchRequest = none → s.calls event = [])

def Held (s : WatchState ρ) (watcher : Watcher) : Prop :=
  ∃ api, watcher ∈ (s.apis api).listener.watchersOf watcher.req.getKey

/-- No live watcher watches the group of a group event; and of the live watchers of its kind under
the text of its key, an event of another kind finds those held that watch its resource. -/
def Deliverable (s : WatchState ρ) (subs : Subscriptions) (event : RemoteData ρ) : Prop :=
  Applies s.handler event → ∀ req, event.eventKey.watchRequest = some req →
    if req.kind = .configGroup then ∀ watcher ∈ subs.live, watcher.req ≠ req
    else ∀ watcher ∈ subs.live, watcher.req.kind = req.kind →
      watcher.req.getKey = req.getKey → (Held s watcher ↔ watcher.req = req)

/-! ## The watchers that are held -/

/-- Only live watchers are held, each under its own key and the identifier it was given, and by
listeners that are registered. -/
structure Consistent (s : WatchState ρ) (subs : Subscriptions) : Prop where
  count : subs.count = s.responses.length
  fresh : ∀ watcher ∈ subs.live, watcher.number < subs.count
  distinct : (subs.live.map Watcher.number).Nodup
  given : ∀ api key id watcher, (s.apis api).listener.entry key id = some watcher →
    s.responses[watcher.number]? = some ⟨id, key, api⟩
  live : ∀ api key id watcher, (s.apis api).listener.entry key id = some watcher →
    watcher ∈ subs.live
  kind : ∀ api key id watcher, (s.apis api).listener.entry key id = some watcher →
    watcher.req.kind = api.kind ∧ watcher.req.getKey = key
  told : ∀ api key id watcher, (s.apis api).listener.entry key id = some watcher →
    (s.apis api).registerResourceWatcher = true
  registered : ∀ type api, api ∈ s.listeners type ↔
    (s.apis api).registerResourceWatcher = true ∧ type = api.kind.watchKey
  once : ∀ type, (s.listeners type).Nodup

theorem consistent_new : Consistent (.new : WatchState ρ) .none where
  count := rfl
  fresh := nofun
  distinct := List.nodup_nil
  given := nofun
  live := nofun
  kind := nofun
  told := nofun
  registered := fun _ _ => ⟨nofun, fun h => nomatch h.1⟩
  once := fun _ => List.nodup_nil

theorem entry_after_watch {s : WatchState ρ} {api other : ApiId} {req : WatchRequest}
    {key : String} {id : UInt64} {watcher : Watcher}
    (h : ((s.watch api req).apis other).listener.entry key id = some watcher) :
    (watcher = ⟨s.responses.length, req⟩ ∧ other = api ∧ key = req.getKey ∧
        id = (s.apis api).listener.watcherId) ∨
      (s.apis other).listener.entry key id = some watcher := by
  rw [s.watch_apis] at h
  by_cases hother : other = api
  · rw [if_pos hother] at h
    simp only [ResourceListener.entry_watch] at h
    split at h
    · rename_i hnew
      cases h
      exact .inl ⟨rfl, hother, hnew.1, hnew.2⟩
    · exact .inr (hother ▸ h)
  · rw [if_neg hother] at h
    exact .inr h

theorem number_lt_of_entry {s : WatchState ρ} {subs : Subscriptions} (inv : Consistent s subs)
    {api : ApiId} {key : String} {id : UInt64} {watcher : Watcher}
    (h : (s.apis api).listener.entry key id = some watcher) :
    watcher.number < s.responses.length := by
  rw [← inv.count]
  exact inv.fresh watcher (inv.live api key id watcher h)

theorem distinct_watch {s : WatchState ρ} {subs : Subscriptions} (inv : Consistent s subs)
    (req : WatchRequest) :
    ((subs.live ++ [(⟨subs.count, req⟩ : Watcher)]).map Watcher.number).Nodup := by
  rw [List.map_append, List.nodup_append]
  refine ⟨inv.distinct, List.nodup_singleton _, ?_⟩
  intro old hmem new hnew
  rcases List.mem_map.mp hmem with ⟨watcher, hwatcher, rfl⟩
  rw [List.mem_singleton.mp hnew]
  exact Nat.ne_of_lt (inv.fresh watcher hwatcher)

theorem registered_watch {s : WatchState ρ} {subs : Subscriptions} (inv : Consistent s subs)
    (number : Nat) (req : WatchRequest) (type : EventType) (api : ApiId) :
    api ∈ (s.watch ⟨req.kind, number⟩ req).listeners type ↔
      ((s.watch ⟨req.kind, number⟩ req).apis api).registerResourceWatcher = true ∧
        type = api.kind.watchKey := by
  rw [s.watch_listeners, s.watch_apis]
  by_cases hapi : api = ⟨req.kind, number⟩
  · subst hapi
    rw [if_pos rfl]
    split
    · rename_i h
      exact ⟨fun _ => ⟨rfl, h.2⟩, fun _ => List.mem_append_right _ List.mem_cons_self⟩
    · rename_i h
      rw [inv.registered]
      constructor
      · exact fun hmem => ⟨rfl, hmem.2⟩
      · intro htype
        refine ⟨?_, htype.2⟩
        by_contra hregistered
        exact h ⟨by simpa using hregistered, htype.2⟩
  · rw [if_neg hapi, ← inv.registered]
    split
    · rw [List.mem_append, List.mem_singleton]
      exact ⟨fun h => h.resolve_right hapi, .inl⟩
    · exact Iff.rfl

theorem once_watch {s : WatchState ρ} {subs : Subscriptions} (inv : Consistent s subs)
    (number : Nat) (req : WatchRequest) (type : EventType) :
    ((s.watch ⟨req.kind, number⟩ req).listeners type).Nodup := by
  rw [s.watch_listeners]
  split
  · rename_i h
    rw [List.nodup_append]
    refine ⟨inv.once type, List.nodup_singleton _, ?_⟩
    intro old hmem new hnew heq
    rw [List.mem_singleton.mp hnew] at heq
    have hregistered := ((inv.registered type old).mp hmem).1
    rw [heq, h.1] at hregistered
    cases hregistered
  · exact inv.once type

theorem consistent_watch {s : WatchState ρ} {subs : Subscriptions} (inv : Consistent s subs)
    (number : Nat) (req : WatchRequest) :
    Consistent (s.watch ⟨req.kind, number⟩ req)
      (subs.step (.watch number req : WatchAction ρ)) := by
  constructor
  · rw [s.watch_responses, List.length_append]
    show subs.count + 1 = _
    rw [inv.count]
    rfl
  · intro watcher h
    show watcher.number < subs.count + 1
    rcases List.mem_append.mp h with h | h
    · exact Nat.lt_succ_of_lt (inv.fresh watcher h)
    · rw [List.mem_singleton.mp h]
      exact Nat.lt_succ_self _
  · exact distinct_watch inv req
  · intro api key id watcher h
    rw [s.watch_responses]
    rcases entry_after_watch h with ⟨rfl, rfl, rfl, rfl⟩ | h
    · rw [List.getElem?_append_right (Nat.le_refl _), Nat.sub_self]
      rfl
    · rw [List.getElem?_append_left (number_lt_of_entry inv h)]
      exact inv.given api key id watcher h
  · intro api key id watcher h
    rcases entry_after_watch h with ⟨rfl, -, -, -⟩ | h
    · rw [← inv.count]
      exact List.mem_append_right _ List.mem_cons_self
    · exact List.mem_append_left _ (inv.live api key id watcher h)
  · intro api key id watcher h
    rcases entry_after_watch h with ⟨rfl, rfl, rfl, -⟩ | h
    · exact ⟨rfl, rfl⟩
    · exact inv.kind api key id watcher h
  · intro api key id watcher h
    rw [s.watch_apis]
    split
    · rfl
    · rcases entry_after_watch h with ⟨-, heq, -, -⟩ | h
      · contradiction
      · exact inv.told api key id watcher h
  · exact registered_watch inv number req
  · exact once_watch inv number req

theorem entry_after_cancel {s : WatchState ρ} {subs : Subscriptions} (inv : Consistent s subs)
    {number : Nat} {api : ApiId} {key : String} {id : UInt64} {watcher : Watcher}
    (h : ((s.cancelWatch number).apis api).listener.entry key id = some watcher) :
    (s.apis api).listener.entry key id = some watcher ∧ watcher.number ≠ number := by
  cases hresponse : s.responses[number]? with
  | none =>
      have hsame : s.cancelWatch number = s := by
        unfold WatchState.cancelWatch
        rw [hresponse]
      rw [hsame] at h
      refine ⟨h, fun heq => ?_⟩
      have hgiven := inv.given api key id watcher h
      rw [heq, hresponse] at hgiven
      cases hgiven
  | some response =>
      rw [(WatchState.cancelWatch_of_some hresponse api).1] at h
      have hold : (s.apis api).listener.entry key id = some watcher ∧
          ¬ (api = response.owner ∧ key = response.watchKey ∧ id = response.watchId) := by
        split at h
        · rw [ResourceListener.entry_cancelWatch] at h
          split at h
          · cases h
          · rename_i hother
            exact ⟨h, fun heq => hother heq.2⟩
        · rename_i howner
          exact ⟨h, fun heq => howner heq.1⟩
      refine ⟨hold.1, fun heq => ?_⟩
      have hgiven := inv.given api key id watcher hold.1
      rw [heq, hresponse] at hgiven
      cases hgiven
      exact hold.2 ⟨rfl, rfl, rfl⟩

theorem consistent_cancel {s : WatchState ρ} {subs : Subscriptions} (inv : Consistent s subs)
    (number : Nat) :
    Consistent (s.cancelWatch number) (subs.step (.cancelWatch number : WatchAction ρ)) := by
  obtain ⟨-, hlisteners, hresponses⟩ := s.cancelWatch_frame number
  have hflag : ∀ api, ((s.cancelWatch number).apis api).registerResourceWatcher =
      (s.apis api).registerResourceWatcher := by
    intro api
    cases hresponse : s.responses[number]? with
    | none =>
        unfold WatchState.cancelWatch
        rw [hresponse]
    | some response => exact (WatchState.cancelWatch_of_some hresponse api).2
  constructor
  · rw [hresponses]
    exact inv.count
  · intro watcher h
    exact inv.fresh watcher (List.mem_of_mem_filter h)
  · exact inv.distinct.sublist (List.filter_sublist.map _)
  · intro api key id watcher h
    rw [hresponses]
    exact inv.given api key id watcher (entry_after_cancel inv h).1
  · intro api key id watcher h
    obtain ⟨hold, hne⟩ := entry_after_cancel inv h
    exact List.mem_filter.mpr ⟨inv.live api key id watcher hold, by simpa using hne⟩
  · intro api key id watcher h
    exact inv.kind api key id watcher (entry_after_cancel inv h).1
  · intro api key id watcher h
    rw [hflag]
    exact inv.told api key id watcher (entry_after_cancel inv h).1
  · intro type api
    rw [hlisteners, hflag]
    exact inv.registered type api
  · intro type
    rw [hlisteners]
    exact inv.once type

/-! ## What an event runs -/

def heldFor (s : WatchState ρ) (req : WatchRequest) : List Watcher :=
  (s.listeners req.kind.watchKey).flatMap fun api =>
    if api.kind = req.kind then (s.apis api).listener.watchersOf req.getKey else []

theorem mem_heldFor_iff {s : WatchState ρ} {subs : Subscriptions} (inv : Consistent s subs)
    {req : WatchRequest} {watcher : Watcher} :
    watcher ∈ heldFor s req ↔
      Held s watcher ∧ watcher.req.kind = req.kind ∧ watcher.req.getKey = req.getKey := by
  unfold heldFor Held
  rw [List.mem_flatMap]
  constructor
  · rintro ⟨api, -, h⟩
    split at h
    · rename_i hkind
      rcases ResourceListener.mem_watchersOf_iff.mp h with ⟨id, hentry⟩
      obtain ⟨hwatcherKind, hkey⟩ := inv.kind api _ id watcher hentry
      exact ⟨⟨api, by rw [hkey]; exact h⟩, hwatcherKind.trans hkind, hkey⟩
    · cases h
  · rintro ⟨⟨api, h⟩, hkind, hkey⟩
    rcases ResourceListener.mem_watchersOf_iff.mp h with ⟨id, hentry⟩
    have hapi : api.kind = req.kind := (inv.kind api _ id watcher hentry).1.symm.trans hkind
    refine ⟨api, (inv.registered _ api).mpr ⟨inv.told api _ id watcher hentry, ?_⟩, ?_⟩
    · rw [hapi]
    · rw [if_pos hapi, ← hkey]
      exact h

theorem held_live {s : WatchState ρ} {subs : Subscriptions} (inv : Consistent s subs)
    {watcher : Watcher} (h : Held s watcher) : watcher ∈ subs.live := by
  rcases h with ⟨api, h⟩
  rcases ResourceListener.mem_watchersOf_iff.mp h with ⟨id, hentry⟩
  exact inv.live api _ id watcher hentry

theorem nodup_heldFor {s : WatchState ρ} {subs : Subscriptions} (inv : Consistent s subs)
    (req : WatchRequest) : (heldFor s req).Nodup := by
  unfold heldFor
  rw [List.nodup_flatMap]
  constructor
  · intro api _
    split
    · apply ResourceListener.nodup_watchersOf
      intro id other watcher hid hother
      have hsame := (inv.given api _ id watcher hid).symm.trans
        (inv.given api _ other watcher hother)
      cases hsame
      rfl
    · exact List.nodup_nil
  · apply (inv.once _).pairwise_of_forall_ne
    intro api _ other _ hne watcher hmem hother
    simp only at hmem hother
    split at hmem
    · split at hother
      · rcases ResourceListener.mem_watchersOf_iff.mp hmem with ⟨id, hid⟩
        rcases ResourceListener.mem_watchersOf_iff.mp hother with ⟨otherId, hotherId⟩
        have hsame := (inv.given api _ id watcher hid).symm.trans
          (inv.given other _ otherId watcher hotherId)
        cases hsame
        exact hne rfl
      · cases hother
    · cases hmem

/-- When no listener panics, each adds its calls. -/
theorem notifyListeners_eq_flatMap (s : WatchState ρ) (event : ServerEvent ρ)
    {listeners : List ApiId}
    (h : ∀ api ∈ listeners, (s.apis api).listener.onEvent api.kind event ≠ none) :
    s.notifyListeners event listeners = listeners.flatMap fun api =>
      ((s.apis api).listener.onEvent api.kind event).getD [] := by
  induction listeners with
  | nil => rfl
  | cons api listeners ih =>
      rw [List.flatMap_cons, WatchState.notifyListeners]
      cases hcalls : (s.apis api).listener.onEvent api.kind event with
      | none => exact absurd hcalls (h api List.mem_cons_self)
      | some calls =>
          simp only
          rw [ih fun other hother => h other (List.mem_cons_of_mem api hother)]
          rfl

/-- When the first listener panics, nobody is called. -/
theorem notifyListeners_of_panics (s : WatchState ρ) (event : ServerEvent ρ)
    {listeners : List ApiId}
    (h : ∀ api ∈ listeners, (s.apis api).listener.onEvent api.kind event = none) :
    s.notifyListeners event listeners = [] := by
  cases listeners with
  | nil => rfl
  | cons api listeners =>
      rw [WatchState.notifyListeners, h api List.mem_cons_self]

theorem calls_of_applied {s : WatchState ρ} {event : RemoteData ρ}
    {after : MemoryResourceHandler ρ} {value : CacheItemType ρ}
    (h : applyEvent s.handler event = .applied after value) :
    s.calls event = s.notifyListeners ⟨event.eventKey, value⟩
      (s.listeners event.eventKey.eventType) := by
  unfold WatchState.calls onSpecEvent
  rw [h]
  simp only [List.flatMap_append, List.flatMap_cons, List.flatMap_nil, List.append_nil]
  cases event.discoverValue <;> cases event.configValue <;> rfl

theorem calls_of_not_applies {s : WatchState ρ} {event : RemoteData ρ}
    (h : ¬ Applies s.handler event) : s.calls event = [] := by
  unfold WatchState.calls onSpecEvent
  cases happly : applyEvent s.handler event with
  | panicked => rfl
  | notFound => rfl
  | applied after value => exact absurd ⟨after, value, happly⟩ h

/-! ## Events of the watched kinds -/

def WatchKind.eventType : WatchKind → EventType
  | .«instance» => .«instance»
  | .configFile => .configFile
  | .configGroup => .configGroup

theorem watchRequest_spec {eventKey : ResourceEventKey} {req : WatchRequest}
    (h : eventKey.watchRequest = some req) :
    eventKey.eventType = req.kind.eventType ∧
      req.kind.eventWatchKey eventKey = some req.getKey ∧
        (req.kind = .configFile →
          ∃ key, WatchKind.configGroup.eventWatchKey eventKey = some key) := by
  unfold ResourceEventKey.watchRequest at h
  cases htype : eventKey.eventType with
  | «instance» =>
      simp only [htype, Option.map_eq_some_iff] at h
      rcases h with ⟨service, hservice, rfl⟩
      refine ⟨rfl, ?_, nofun⟩
      simp [WatchRequest.kind, WatchKind.eventWatchKey, hservice, WatchRequest.getKey]
  | configFile =>
      simp only [htype, Option.bind_eq_bind, Option.bind_eq_some_iff] at h
      rcases h with ⟨group, hgroup, file, hfile, heq⟩
      cases heq
      refine ⟨rfl, ?_, fun _ => ⟨eventKey.namespaceName ++ "#" ++ group, ?_⟩⟩
      · simp [WatchRequest.kind, WatchKind.eventWatchKey, hgroup, hfile, WatchRequest.getKey]
      · simp [WatchKind.eventWatchKey, hgroup]
  | configGroup =>
      simp only [htype, Option.map_eq_some_iff] at h
      rcases h with ⟨group, hgroup, rfl⟩
      refine ⟨rfl, ?_, nofun⟩
      simp [WatchRequest.kind, WatchKind.eventWatchKey, hgroup, WatchRequest.getKey]
  | governance | service | unknown | serviceContract | serviceIdentity | serviceIdentityBundle
  | namespaces | configGroups =>
      simp only [htype] at h
      cases h

/-- A value is a change for listeners of one kind only. -/
theorem change_eq_none {value : CacheItemType ρ} {kind other : WatchKind} {change : ChangeEvent}
    (h : kind.change value = some change) (hne : other ≠ kind) : other.change value = none := by
  revert h hne
  cases kind <;> cases other <;> cases value <;> simp [WatchKind.change]

/-- The listener of its kind gets the content that an event has installed. -/
theorem applied_change {handler after : MemoryResourceHandler ρ} {event : RemoteData ρ}
    {value : CacheItemType ρ} {req : WatchRequest}
    (happly : applyEvent handler event = .applied after value)
    (hreq : event.eventKey.watchRequest = some req) :
    ∃ change, req.kind.change value = some change ∧ installed after event = some change := by
  have htype := (watchRequest_spec hreq).1
  unfold ResourceEventKey.watchRequest at hreq
  unfold applyEvent at happly
  unfold installed
  cases req with
  | «instance» namespaceName service =>
      replace htype : event.eventKey.eventType = .«instance» := htype
      simp only [htype] at happly hreq ⊢
      rcases applyDiscover_cases event (applyInstances handler) with
        hpanicked | ⟨remoteVal, svc, hvalue, hservice, heq⟩
      · rw [hpanicked] at happly
        cases happly
      · rw [heq] at happly
        unfold applyInstances at happly
        cases hentry : handler.instances (searchKey svc) with
        | none =>
            simp only [hentry] at happly
            cases happly
        | some item =>
            simp only [hentry] at happly
            cases happly
            refine ⟨_, rfl, ?_⟩
            simp [hvalue, hservice, setEntry]
  | configFile namespaceName group file =>
      replace htype : event.eventKey.eventType = .configFile := htype
      simp only [htype, Option.bind_eq_bind, Option.bind_eq_some_iff] at happly hreq ⊢
      rcases hreq with ⟨_, hgroup, _, hfile, heq⟩
      cases heq
      unfold applyConfigFile at happly
      simp only [hgroup, hfile] at happly
      split at happly
      · cases happly
      · cases happly
      · cases happly
        refine ⟨_, rfl, ?_⟩
        simp [hgroup, hfile, setEntry]
  | configGroup namespaceName group =>
      replace htype : event.eventKey.eventType = .configGroup := htype
      simp only [htype, Option.map_eq_some_iff] at happly hreq ⊢
      rcases hreq with ⟨_, hgroup, heq⟩
      cases heq
      unfold applyConfigGroup at happly
      cases hvalue : event.configValue with
      | none =>
          simp only [hvalue] at happly
          cases happly
      | some remoteVal =>
          simp only [hvalue, hgroup] at happly
          split at happly
          · cases happly
          · cases happly
            refine ⟨_, rfl, ?_⟩
            simp [hgroup, setEntry, groupKey]

theorem calls_of_no_request {s : WatchState ρ} {subs : Subscriptions} (inv : Consistent s subs)
    {event : RemoteData ρ} (hnone : event.eventKey.watchRequest = none) :
    s.calls event = [] := by
  by_cases happlies : Applies s.handler event
  · rcases happlies with ⟨after, value, happly⟩
    rw [calls_of_applied happly]
    apply notifyListeners_of_panics
    intro api hmem
    have hkey := ((inv.registered _ api).mp hmem).2
    unfold ResourceEventKey.watchRequest at hnone
    unfold applyEvent at happly
    cases htype : event.eventKey.eventType with
    | «instance» =>
        have hkind : api.kind = .«instance» := by
          rw [htype] at hkey
          cases hapi : api.kind with
          | «instance» => rfl
          | configFile | configGroup =>
              rw [hapi] at hkey
              cases hkey
        simp only [htype, Option.map_eq_none_iff] at hnone
        unfold ResourceListener.onEvent
        rw [hkind]
        simp [WatchKind.eventWatchKey, hnone]
    | configFile =>
        simp only [htype] at happly hnone
        unfold applyConfigFile at happly
        split at happly
        · rename_i group file hgroup hfile
          simp [hgroup, hfile] at hnone
        · cases happly
    | configGroup =>
        rw [htype] at hkey
        cases hapi : api.kind <;> rw [hapi] at hkey <;> cases hkey
    | governance | service | unknown | serviceContract | serviceIdentity | serviceIdentityBundle
    | namespaces | configGroups =>
        rw [htype] at hkey
        cases hapi : api.kind <;> rw [hapi] at hkey <;> cases hkey
  · exact calls_of_not_applies happlies

/-- An applied event of an instance or a file runs the watchers that are held for it. -/
theorem calls_of_request {s : WatchState ρ} {subs : Subscriptions} (inv : Consistent s subs)
    {event : RemoteData ρ} {after : MemoryResourceHandler ρ} {value : CacheItemType ρ}
    {req : WatchRequest} {change : ChangeEvent}
    (happly : applyEvent s.handler event = .applied after value)
    (hreq : event.eventKey.watchRequest = some req) (hchange : req.kind.change value = some change)
    (hkind : req.kind ≠ .configGroup) :
    s.calls event = (heldFor s req).map fun watcher => ⟨watcher.number, change⟩ := by
  obtain ⟨htype, hkey, hgroupKey⟩ := watchRequest_spec hreq
  have hwatchKey : event.eventKey.eventType = req.kind.watchKey := by
    rw [htype]
    cases hreqKind : req.kind with
    | «instance» | configFile => rfl
    | configGroup => exact absurd hreqKind hkind
  -- A listener of another kind under this type is that of the groups, told of a file.
  have honEvent : ∀ api ∈ s.listeners req.kind.watchKey,
      (s.apis api).listener.onEvent api.kind ⟨event.eventKey, value⟩ =
        some ((if api.kind = req.kind then (s.apis api).listener.watchersOf req.getKey
          else []).map fun watcher => ⟨watcher.number, change⟩) := by
    intro api hmem
    unfold ResourceListener.onEvent
    by_cases hapi : api.kind = req.kind
    · rw [hapi]
      simp only [hkey, hchange, if_true]
    · have hregistered := ((inv.registered _ api).mp hmem).2
      have hgroup : api.kind = .configGroup ∧ req.kind = .configFile := by
        cases hreqKind : req.kind <;> cases hapiKind : api.kind <;>
          rw [hreqKind, hapiKind] at hregistered hapi <;> first
            | exact ⟨rfl, rfl⟩
            | exact absurd rfl hapi
            | exact absurd hreqKind hkind
            | cases hregistered
      rcases hgroupKey hgroup.2 with ⟨key, hgroupWatch⟩
      rw [change_eq_none hchange hapi, if_neg hapi, hgroup.1, hgroupWatch]
      rfl
  rw [calls_of_applied happly, hwatchKey, notifyListeners_eq_flatMap]
  · unfold heldFor
    rw [List.map_flatMap]
    apply List.flatMap_congr
    intro api hmem
    rw [honEvent api hmem]
    rfl
  · intro api hmem
    rw [honEvent api hmem]
    exact fun h => nomatch h

/-- Listeners of groups are registered for files, so that nobody is told of a group. -/
theorem calls_of_group {s : WatchState ρ} {subs : Subscriptions} (inv : Consistent s subs)
    {event : RemoteData ρ} (htype : event.eventKey.eventType = .configGroup) :
    s.calls event = [] := by
  by_cases happlies : Applies s.handler event
  · rcases happlies with ⟨after, value, happly⟩
    have hnobody : s.listeners .configGroup = [] := by
      apply List.eq_nil_iff_forall_not_mem.mpr
      intro api hmem
      have hkey := ((inv.registered _ api).mp hmem).2
      cases hapi : api.kind <;> rw [hapi] at hkey <;> cases hkey
    rw [calls_of_applied happly, htype, hnobody]
    rfl
  · exact calls_of_not_applies happlies

/-! ## Delivery -/

/-- Watchers with numbers of their own are called alike exactly when they are the same. -/
theorem perm_calls_iff {held live : List Watcher} {wanted : Watcher → Prop}
    [DecidablePred wanted] (change : ChangeEvent) (hheld : held.Nodup)
    (hlive : (live.map Watcher.number).Nodup) (hsub : ∀ watcher ∈ held, watcher ∈ live) :
    ((held.map fun watcher => (⟨watcher.number, change⟩ : Call)).Perm
        ((live.filter fun watcher => wanted watcher).map fun watcher =>
          ⟨watcher.number, change⟩)) ↔
      ∀ watcher ∈ live, watcher ∈ held ↔ wanted watcher := by
  have hsame : ∀ watcher ∈ live, ∀ other ∈ live, watcher.number = other.number →
      watcher = other := fun watcher hwatcher other hother =>
    List.inj_on_of_nodup_map hlive hwatcher hother
  constructor
  · intro hperm watcher hwatcher
    constructor
    · intro hmem
      have hcall := hperm.mem_iff.mp (List.mem_map_of_mem hmem)
      rcases List.mem_map.mp hcall with ⟨other, hother, heq⟩
      obtain ⟨hotherLive, hwanted⟩ := List.mem_filter.mp hother
      rw [hsame watcher hwatcher other hotherLive (congrArg Call.watcher heq).symm]
      simpa using hwanted
    · intro hwanted
      have hcall := hperm.mem_iff.mpr (List.mem_map_of_mem
        (List.mem_filter.mpr ⟨hwatcher, by simpa using hwanted⟩))
      rcases List.mem_map.mp hcall with ⟨other, hother, heq⟩
      rw [hsame watcher hwatcher other (hsub other hother) (congrArg Call.watcher heq).symm]
      exact hother
  · intro h
    apply List.Perm.map
    rw [List.perm_ext_iff_of_nodup hheld (hlive.of_map.filter _)]
    intro watcher
    rw [List.mem_filter]
    constructor
    · intro hmem
      exact ⟨hsub watcher hmem, by simpa using (h watcher (hsub watcher hmem)).mp hmem⟩
    · intro hmem
      exact (h watcher hmem.1).mpr (by simpa using hmem.2)

theorem delivers_iff {s : WatchState ρ} {subs : Subscriptions} (inv : Consistent s subs)
    (event : RemoteData ρ) : Delivers s subs event ↔ Deliverable s subs event := by
  have hsilent : ¬ Applies s.handler event ∨ event.eventKey.watchRequest = none →
      s.calls event = [] := by
    rintro (hnot | hnone)
    · exact calls_of_not_applies hnot
    · exact calls_of_no_request inv hnone
  unfold Delivers
  rw [and_iff_left hsilent]
  unfold Deliverable
  refine forall_congr' fun happlies => forall_congr' fun req => forall_congr' fun hreq => ?_
  rcases happlies with ⟨after, value, happly⟩
  obtain ⟨change, hchange, hinstalled⟩ := applied_change happly hreq
  have hafter : (onSpecEvent s.handler event).1 = after := by
    unfold onSpecEvent
    rw [happly]
  rw [hafter, hinstalled]
  simp only [Option.some.injEq, exists_eq_left']
  split
  · rename_i hkind
    have htype := (watchRequest_spec hreq).1
    rw [hkind] at htype
    rw [calls_of_group inv htype, List.nil_perm, List.map_eq_nil_iff, List.filter_eq_nil_iff]
    simp
  · rename_i hkind
    rw [calls_of_request inv happly hreq hchange hkind]
    have hsub : ∀ watcher ∈ heldFor s req, watcher ∈ subs.live :=
      fun watcher h => held_live inv ((mem_heldFor_iff inv).mp h).1
    rw [perm_calls_iff change (nodup_heldFor inv req) inv.distinct hsub]
    refine forall_congr' fun watcher => forall_congr' fun _ => ?_
    rw [mem_heldFor_iff inv]
    constructor
    · intro h hwatcherKind hkey
      rw [← h]
      exact ⟨fun hheld => ⟨hheld, hwatcherKind, hkey⟩, And.left⟩
    · intro h
      constructor
      · exact fun hheld => (h hheld.2.1 hheld.2.2).mp hheld.1
      · intro hwatcher
        have hboth : watcher.req.kind = req.kind ∧ watcher.req.getKey = req.getKey := by
          rw [hwatcher]
          exact ⟨rfl, rfl⟩
        exact ⟨(h hboth.1 hboth.2).mpr hwatcher, hboth⟩

theorem consistent_run (actions : List (WatchAction ρ)) {s : WatchState ρ} {subs : Subscriptions}
    (inv : Consistent s subs) :
    Consistent (run WatchState.step s actions) (run Subscriptions.step subs actions) := by
  induction actions generalizing s subs with
  | nil => exact inv
  | cons action actions ih =>
      apply ih
      cases action with
      | cache action =>
          exact ⟨inv.count, inv.fresh, inv.distinct, inv.given, inv.live, inv.kind, inv.told,
            inv.registered, inv.once⟩
      | watch number req => exact consistent_watch inv number req
      | cancelWatch response => exact consistent_cancel inv response

/-! ## Every history -/

/-- In every history, every event is delivered if and only if every event is deliverable in the
state before it. -/
theorem watchers_served_iff (actions : List (WatchAction ρ)) :
    (∀ first event, first ++ [.cache (.event event)] <+: actions →
        Delivers (run WatchState.step .new first) (run Subscriptions.step .none first) event) ↔
      ∀ first event, first ++ [.cache (.event event)] <+: actions →
        Deliverable (run WatchState.step .new first) (run Subscriptions.step .none first)
          event := by
  refine forall_congr' fun first => forall_congr' fun event => forall_congr' fun _ => ?_
  exact delivers_iff (consistent_run first consistent_new) event

/-! ## A group, and two services with one key -/

def groupWatched : List (WatchAction Unit) :=
  [.watch 0 (.configGroup "prod" "settings"),
    .cache (.load (groupResourceKey "prod" "settings"))]

def instanceKey (namespaceName service : String) : ResourceEventKey :=
  ⟨namespaceName, .«instance», fun name => if name = "service" then some service else none⟩

def hashedEvent : RemoteData Unit where
  eventKey := instanceKey "a#b" "c"
  discoverValue := some { ordersResponse with
    service := some { ordersService with namespaceName := "a#b", name := "c" } }
  configValue := none

def hashedWatched : List (WatchAction Unit) :=
  [.watch 0 (.«instance» "a" "b#c"), .cache (.load (instanceKey "a#b" "c"))]

/-- The watcher of the group is not called, and that of b#c in a is called for c in a#b. -/
theorem group_missed_and_name_shared :
    ¬ Delivers (run WatchState.step .new groupWatched)
        (run Subscriptions.step .none groupWatched)
        (groupEvent "prod" "settings").toRemoteData ∧
      ¬ Delivers (run WatchState.step .new hashedWatched)
        (run Subscriptions.step .none hashedWatched) hashedEvent := by
  constructor
  · intro h
    rcases h.1 ⟨_, _, rfl⟩ (.configGroup "prod" "settings") rfl with ⟨change, -, hperm⟩
    have hnobody : 0 = 1 := hperm.length_eq
    exact absurd hnobody (by decide)
  · intro h
    rcases h.1 ⟨_, _, rfl⟩ (.«instance» "a#b" "c") rfl with ⟨change, -, hperm⟩
    have hcalled : 1 = 0 := hperm.length_eq
    exact absurd hcalled (by decide)

end PoleClient.Cache
