import PoleClient.Cache.MemoryCache
import PoleClient.Connector.Currency

/-! # From the connector into the cache

A load that makes an entry spawns a task, which registers a watcher with the
connector. The watcher passes what it is given into a channel, and one task of the
cache takes it out and applies it. Every entry is what the server said on its
resource up to some moment, and in the end what it says last.
-/

namespace PoleClient.Cache

open Connector Lib

variable {ρ : Type}

/-! ## The watcher and the channel -/

variable (ρ) in
/-- `sent` is all that the watcher has put into the channel so far. -/
structure MemoryResourceWatcher where
  eventKey : ResourceEventKey
  sent : List (Connector.RemoteData ρ)

def MemoryResourceWatcher.new (eventKey : ResourceEventKey) : MemoryResourceWatcher ρ :=
  ⟨eventKey, []⟩

def watcherOps : ResourceHandler ρ (MemoryResourceWatcher ρ) where
  interestResource watcher := watcher.eventKey
  handleEvent watcher event := { watcher with sent := watcher.sent ++ [event] }

/-- The cache reads the parts of an event that it keeps. -/
def ofRemote (event : Connector.RemoteData ρ) : RemoteData ρ where
  eventKey := event.eventKey
  discoverValue := event.discoverValue.map Connector.DiscoverResponse.toDiscoverResponse
  configValue := event.configValue.map Connector.ConfigDiscoverResponse.toConfigDiscoverResponse

/-- The connector of a client, apart from its handlers. -/
structure PipelineEnv where
  identity : Option ServiceIdentityDiscoveryConfig
  labels : List (String × String)
  fileLabels : StringMap
  requestFilters : List ConfigRequestFilter
  responseFilters : List ConfigFilter

def PipelineEnv.connector (env : PipelineEnv) : ConnectorEnv ρ (MemoryResourceWatcher ρ) where
  ops := watcherOps
  identity := env.identity
  labels := env.labels
  fileLabels := env.fileLabels
  requestFilters := env.requestFilters
  responseFilters := env.responseFilters

/-! ## The steps -/

variable (ρ) in
/-- `submitted` are the registrations whose task has not run. `received` counts what the cache has
taken of each watcher's events: the channel is one queue, and the order in which it interleaves
different watchers is left open. -/
structure PipelineState where
  connector : ConnectorState ρ (MemoryResourceWatcher ρ)
  handler : MemoryResourceHandler ρ
  submitted : List ResourceEventKey
  received : String → Nat

namespace PipelineState

def new : PipelineState ρ := ⟨.new, .new, [], fun _ => 0⟩

end PipelineState

/-- The load finds no entry, and submits a watch for the one that it makes. -/
def submitsWatch (handler : MemoryResourceHandler ρ) (key : ResourceEventKey) : Bool :=
  match key.eventType with
  | .service => (handler.services key.namespaceName).isNone
  | .«instance» =>
      match key.filter "service" with
      | none => false
      | some service => (handler.instances (serviceKey key.namespaceName service)).isNone
  | .governance type =>
      match key.filter "service" with
      | none => false
      | some service => (handler.governance type (serviceKey key.namespaceName service)).isNone
  | .configFile =>
      match key.filter "group", key.filter "file" with
      | some group, some file =>
          (handler.configFiles (key.namespaceName ++ "#" ++ group ++ "#" ++ file)).isNone
      | _, _ => false
  | .configGroup =>
      match key.filter "group" with
      | none => false
      | some group => (handler.configGroups (key.namespaceName ++ "#" ++ group)).isNone
  | .unknown | .serviceContract | .serviceIdentity | .serviceIdentityBundle | .namespaces
  | .configGroups => false

namespace PipelineState

variable (env : PipelineEnv) (server : SpecServer ρ)

variable (ρ) in
inductive Action where
  /-- The first step of a load. -/
  | load (key : ResourceEventKey)
  /-- One of the spawned tasks runs, in any order. -/
  | runTask (index : Nat)
  | connector (action : ConnectorState.Action (MemoryResourceWatcher ρ))
  /-- The next event of the watcher under the text comes out of the channel. -/
  | receive (text : String)
  /-- A load of rules takes a response from the failover down the event path. -/
  | recover (event : RemoteData ρ)

/-- The other handlers of the connector are those of the identity. -/
def isForeign : ConnectorState.Action (MemoryResourceWatcher ρ) → Bool
  | .register watcher =>
      watcher.sent.isEmpty &&
        (watcher.eventKey.eventType == .serviceIdentity ||
          watcher.eventKey.eventType == .serviceIdentityBundle)
  | _ => true

def load (s : PipelineState ρ) (key : ResourceEventKey) : PipelineState ρ :=
  { s with
    handler := ensureEntry s.handler key
    submitted := if submitsWatch s.handler key then s.submitted ++ [key] else s.submitted }

def runTask (s : PipelineState ρ) (index : Nat) : PipelineState ρ :=
  match s.submitted[index]? with
  | none => s
  | some key =>
      { s with
        connector := s.connector.step env.connector server (.register (.new key))
        submitted := s.submitted.eraseIdx index }

def sent (s : PipelineState ρ) (text : String) : List (Connector.RemoteData ρ) :=
  ((s.connector.watches text).map fun wrapper => wrapper.handler.sent).getD []

def receive (s : PipelineState ρ) (text : String) : PipelineState ρ :=
  match (s.sent text)[s.received text]? with
  | none => s
  | some event =>
      { s with
        handler := (onSpecEvent s.handler (ofRemote event)).1
        received := Function.update s.received text (s.received text + 1) }

/-- Only rules are recovered. -/
def recover (s : PipelineState ρ) (event : RemoteData ρ) : PipelineState ρ :=
  match event.eventKey.eventType with
  | .governance _ => { s with handler := (onSpecEvent s.handler event).1 }
  | _ => s

def step (s : PipelineState ρ) : Action ρ → PipelineState ρ
  | .load key => s.load key
  | .runTask index => s.runTask env server index
  | .connector action =>
      if isForeign action then
        { s with connector := s.connector.step env.connector server action }
      else s
  | .receive text => s.receive text
  | .recover event => s.recover event

/-! ## The text of an entry -/

/-- The text under which the instances of a service are watched, from their key in the cache. -/
def instanceText (searchKey : String) : String := "Instance#" ++ searchKey

/-- No other type of a resource begins with the letter of the instances. -/
theorem instance_of_letter {eventType : EventType} {rest other : String}
    (h : eventType.toText ++ rest = "Instance#" ++ other) : eventType = .«instance» := by
  have hletter : eventType.toText.toList.take 1 = "Instance#".toList.take 1 := by
    apply take_eq_of_append _ _ h
    · cases eventType with
      | governance type => cases type <;> decide
      | _ => decide
    · decide
  cases eventType with
  | «instance» => rfl
  | governance type => cases type <;> exact absurd hletter (by decide)
  | _ => exact absurd hletter (by decide)

theorem toText_starts {key : ResourceEventKey} {text : String} (h : key.toText = .ok text) :
    ∃ rest, text = key.eventType.toText ++ ("#" ++ rest) := by
  unfold ResourceEventKey.toText at h
  split at h
  · obtain ⟨group, -, h⟩ := succeeds_of_bind h
    obtain ⟨file, -, h⟩ := succeeds_of_bind h
    cases h
    exact ⟨_, by simp only [String.append_assoc]; rfl⟩
  · obtain ⟨group, -, h⟩ := succeeds_of_bind h
    cases h
    exact ⟨_, by simp only [String.append_assoc]; rfl⟩
  · obtain ⟨service, -, h⟩ := succeeds_of_bind h
    cases h
    exact ⟨_, by simp only [String.append_assoc]; rfl⟩

/-- The text of a watch tells the entry, although names may hold the separator. -/
theorem instance_of_toText {key : ResourceEventKey} {sk : String}
    (h : key.toText = .ok (instanceText sk)) :
    key.eventType = .«instance» ∧
      ∃ service, key.filter "service" = some service ∧
        serviceKey key.namespaceName service = sk := by
  obtain ⟨rest, hrest⟩ := toText_starts h
  have htype : key.eventType = .«instance» := instance_of_letter hrest.symm
  obtain ⟨service, hservice, htext⟩ := service_of_toText h (by rw [htype]; rfl)
  refine ⟨htype, service, hservice, ?_⟩
  rw [htype] at htext
  have hsame : "Instance#" ++ sk = "Instance#" ++ serviceKey key.namespaceName service := by
    rw [← instanceText, htext]
    simp only [serviceKey, ← String.append_assoc]
    rfl
  exact ((String.append_right_inj _).mp hsame).symm

theorem toText_of_instance {key : ResourceEventKey} {service : String}
    (htype : key.eventType = .«instance») (hservice : key.filter "service" = some service) :
    key.toText = .ok (instanceText (serviceKey key.namespaceName service)) := by
  rw [toText_of_service (by rw [htype]; decide) (by rw [htype]; decide) hservice, htype]
  simp only [instanceText, serviceKey, ← String.append_assoc]
  rfl

/-- The server lists services for namespaces without the separator in their names. -/
def PlainNamespaces (server : SpecServer ρ) : Prop :=
  ∀ time request svc, (server.discover time request).type = .services →
    (server.discover time request).service = some svc → '#' ∉ svc.namespaceName.toList

theorem service_of_ruleKey {resp : Connector.DiscoverResponse ρ} {eventType : EventType}
    (known : eventType ≠ .unknown) {sk : String}
    (h : serviceRuleWatchKey resp eventType = some (instanceText sk)) :
    ∃ svc, resp.service = some svc ∧ searchKey svc = sk := by
  unfold serviceRuleWatchKey at h
  cases hservice : resp.service with
  | none =>
      rw [hservice] at h
      cases h
  | some svc =>
      rw [hservice] at h
      have htext : eventType.debug ++ "#" ++ svc.namespaceName ++ "#" ++ svc.name =
          "Instance#" ++ sk := Option.some.inj h
      rw [debug_eq_toText known] at htext
      have htype : eventType = .«instance» := by
        simp only [String.append_assoc] at htext
        exact instance_of_letter htext
      refine ⟨svc, rfl, ?_⟩
      rw [htype] at htext
      have hsame : "Instance#" ++ searchKey svc = "Instance#" ++ sk := by
        rw [← htext]
        simp only [searchKey, serviceKey, ← String.append_assoc]
        rfl
      exact (String.append_right_inj _).mp hsame

theorem service_of_watchKey {resp : Connector.DiscoverResponse ρ}
    (plain : ∀ svc, resp.type = .services → resp.service = some svc →
      '#' ∉ svc.namespaceName.toList)
    {identity : Option ServiceIdentityDiscoveryConfig} {sk : String}
    (h : discoverResponseWatchKey resp identity = some (instanceText sk)) :
    ∃ svc, resp.service = some svc ∧ searchKey svc = sk := by
  have hletter : ∀ {eventType : EventType} {rest : String}, eventType ≠ .«instance» →
      eventType ≠ .unknown → eventType.debug ++ rest ≠ "Instance#" ++ sk := by
    intro eventType rest hother known htext
    rw [debug_eq_toText known] at htext
    exact hother (instance_of_letter htext)
  unfold discoverResponseWatchKey at h
  cases htype : resp.type <;> simp only [htype] at h
  case services =>
    obtain ⟨svc, hservice, hname⟩ := Option.map_eq_some_iff.mp h
    refine absurd ?_ (plain svc htype hservice)
    rw [hname, instanceText, String.toList_append]
    exact List.mem_append_left _ (by decide)
  case serviceIdentity =>
    obtain ⟨identity, -, htext⟩ := Option.map_eq_some_iff.mp h
    simp only [String.append_assoc] at htext
    exact absurd htext (hletter (by decide) (by decide))
  case serviceIdentityBundle =>
    cases identity with
    | none => cases h
    | some identity =>
        cases hbundle : resp.serviceIdentityBundle with
        | none =>
            rw [hbundle] at h
            cases h
        | some bundle =>
            rw [hbundle] at h
            have htext := Option.some.inj h
            simp only [String.append_assoc] at htext
            exact absurd htext (hletter (by decide) (by decide))
  all_goals first
    | cases h
    | exact service_of_ruleKey (by decide) h

/-! ## What a step of the connector does to a watch -/

section Watches

variable {η : Type} (env : ConnectorEnv ρ η) (server : SpecServer ρ)

/-- A watch stays as it is, is made by a registration, or is given a response. -/
theorem watch_cases (s : ConnectorState ρ η) (action : ConnectorState.Action η) (text : String) :
    (s.step env server action).watches text = s.watches text ∨
      (∃ handler, action = .register handler ∧ s.watches text = none ∧
        (env.ops.interestResource handler).toText = .ok text) ∨
      ∃ wrapper revision discoverValue configValue, s.watches text = some wrapper ∧
        (s.step env server action).watches text =
          some (wrapper.deliver env.ops revision discoverValue configValue) := by
  cases action with
  | register handler =>
      simp only [ConnectorState.step]
      rcases ConnectorState.register_spec env s handler with hkept | ⟨other, htext, hnone, hsends⟩
      · rw [hkept]
        exact .inl rfl
      · rw [hsends.watches]
        by_cases hother : text = other
        · subst hother
          exact .inr (.inl ⟨handler, rfl, hnone, htext⟩)
        · exact .inl (setWatch_of_ne hother)
  | refresh order =>
      left
      simp only [ConnectorState.step]
      split
      · rw [(ConnectorState.refresh_onlySends env s order).watches]
      · rfl
  | receiveDiscover =>
      simp only [ConnectorState.step]
      split
      · unfold ConnectorState.receiveDiscover
        split
        · split <;> exact .inl rfl
        · rename_i response rest hresponses
          rcases receiveDiscoverResponse_cases env.ops env.identity s.watches response with
            hdropped | ⟨other, old, revision, -, -, hold, -, hgiven⟩
          · simp only [hdropped]
            exact .inl trivial
          · simp only [hgiven]
            by_cases hother : text = other
            · subst hother
              exact .inr (.inr ⟨old, _, _, _, hold, setWatch_self ..⟩)
            · exact .inl (setWatch_of_ne hother)
      · exact .inl rfl
  | receiveConfig =>
      simp only [ConnectorState.step]
      split
      · unfold ConnectorState.receiveConfig
        split
        · split <;> exact .inl rfl
        · rename_i response rest hresponses
          rcases receiveConfigResponse_cases env.ops env.responseFilters s.watches response with
            hdropped | ⟨filtered, other, old, -, -, -, hold, hgiven⟩
          · simp only [hdropped]
            exact .inl trivial
          · simp only [hgiven]
            by_cases hother : text = other
            · subst hother
              exact .inr (.inr ⟨old, _, _, _, hold, setWatch_self ..⟩)
            · exact .inl (setWatch_of_ne hother)
      · exact .inl rfl
  | tick | answerDiscover | answerConfig | endDiscover | endConfig => exact .inl rfl

end Watches

/-! ## The events of a watcher -/

variable {env : PipelineEnv} {server : SpecServer ρ} {s : PipelineState ρ}

def Initial (watcher : MemoryResourceWatcher ρ) : Prop := watcher.sent = []

def deliveredEvent (key : ResourceEventKey) :
    ConnectorState.Delivery ρ → Connector.RemoteData ρ
  | .discover _ response => ⟨key, some response, none⟩
  | .config _ response => ⟨key, none, some response⟩

theorem handler_foldl_take (log : List (ConnectorState.Delivery ρ))
    (wrapper : ResourceHandlerWrapper (MemoryResourceWatcher ρ)) :
    (log.foldl (ConnectorState.take env.connector) wrapper).handler =
      ⟨wrapper.handler.eventKey,
        wrapper.handler.sent ++ log.map (deliveredEvent wrapper.handler.eventKey)⟩ := by
  induction log generalizing wrapper with
  | nil => simp
  | cons delivery log ih =>
      rw [List.foldl_cons, ih]
      cases delivery <;>
        simp [ConnectorState.take, ResourceHandlerWrapper.deliver, PipelineEnv.connector,
          watcherOps, deliveredEvent]

/-- What the server said on the service of an entry, with the time at which it did. -/
def Answered (server : SpecServer ρ) (sk : String)
    (answer : Nat × Connector.DiscoverResponse ρ) : Prop :=
  (∃ request, answer.2 = server.discover answer.1 request) ∧ answer.2.code = .executeSuccess ∧
    ∃ svc, answer.2.service = some svc ∧ searchKey svc = sk

theorem answers_of_log {sk : String}
    {log : List (ConnectorState.Delivery ρ)} (sorted : log.Pairwise ConnectorState.NoLater)
    (answered : ∀ delivery ∈ log, ∃ answer : Nat × Connector.DiscoverResponse ρ,
      delivery = .discover answer.1 answer.2 ∧ Answered server sk answer) :
    ∃ answers : List (Nat × Connector.DiscoverResponse ρ),
      log = answers.map (fun answer => .discover answer.1 answer.2) ∧
      answers.Pairwise (fun a b => a.1 ≤ b.1) ∧ ∀ answer ∈ answers, Answered server sk answer := by
  induction log with
  | nil => exact ⟨[], rfl, .nil, by simp⟩
  | cons delivery log ih =>
      obtain ⟨hfirst, hrest⟩ := List.pairwise_cons.mp sorted
      obtain ⟨answers, rfl, hsorted, hanswered⟩ :=
        ih hrest fun other hother => answered other (List.mem_cons_of_mem _ hother)
      obtain ⟨answer, rfl, hanswer⟩ := answered delivery List.mem_cons_self
      refine ⟨answer :: answers, rfl, List.pairwise_cons.mpr ⟨?_, hsorted⟩, ?_⟩
      · intro other hother
        exact hfirst _ (List.mem_map_of_mem hother)
      · exact List.forall_mem_cons.mpr ⟨hanswer, hanswered⟩

/-- The events of a watcher of instances are answers on its entry, in the order of the server. -/
theorem sent_of_instances (plain : PlainNamespaces server)
    {t : ConnectorState ρ (MemoryResourceWatcher ρ)}
    (history : ConnectorState.History env.connector server Initial t) {sk : String}
    {wrapper : ResourceHandlerWrapper (MemoryResourceWatcher ρ)}
    (h : t.watches (instanceText sk) = some wrapper) :
    wrapper.handler.eventKey.eventType = .«instance» ∧
      ∃ answers : List (Nat × Connector.DiscoverResponse ρ),
        wrapper.handler.sent =
          answers.map (fun answer => ⟨wrapper.handler.eventKey, some answer.2, none⟩) ∧
        answers.Pairwise (fun a b => a.1 ≤ b.1) ∧
        ∀ answer ∈ answers, Answered server sk answer := by
  obtain ⟨handler, log, hinitial, htext, hwrapper, hsorted, hlog⟩ := history.watches _ _ h
  have htype : handler.eventKey.eventType = .«instance» := (instance_of_toText htext).1
  have hhandler := @handler_foldl_take ρ env log ⟨handler, ""⟩
  rw [← hwrapper] at hhandler
  simp only [show handler.sent = [] from hinitial, List.nil_append] at hhandler
  rw [hhandler]
  have hnaming : isNaming (env.connector.ops.interestResource handler).eventType = true := by
    change isNaming handler.eventKey.eventType = true
    rw [htype]
    rfl
  have hdiscover : ∀ delivery ∈ log, ∃ answer : Nat × Connector.DiscoverResponse ρ,
      delivery = .discover answer.1 answer.2 ∧ Answered server sk answer := by
    intro delivery hdelivery
    cases delivery with
    | config time response =>
        exact absurd (hlog _ hdelivery).1.2.2 (configWatchKey_ne htext hnaming response)
    | discover time response =>
        obtain ⟨⟨⟨request, hrequest⟩, hcode, hkey, -⟩, -⟩ := hlog _ hdelivery
        refine ⟨(time, response), rfl, ⟨request, hrequest⟩, hcode, ?_⟩
        refine service_of_watchKey ?_ hkey
        intro svc hservices hservice
        rw [hrequest] at hservices hservice
        exact plain time request svc hservices hservice
  obtain ⟨answers, rfl, hordered, hanswered⟩ := answers_of_log hsorted hdiscover
  refine ⟨htype, answers, ?_, hordered, hanswered⟩
  rw [List.map_map]
  rfl

/-! ## The entries follow the channel -/

def refreshed (item : ServiceInstancesCacheItem) (remoteVal : DiscoverResponse ρ) :
    ServiceInstancesCacheItem :=
  match remoteVal.service with
  | none => item
  | some svc =>
      let instances := remoteVal.instances.map Instance.convertFromSpec
      { item with
        value := instances
        availableInstances := instances.filter Instance.isAvailable
        revision := svc.revision
        initialized := true }

def refreshedBy (item : ServiceInstancesCacheItem) (event : Connector.RemoteData ρ) :
    ServiceInstancesCacheItem :=
  match event.discoverValue with
  | none => item
  | some remoteVal => refreshed item remoteVal.toDiscoverResponse

/-- What the cache has made of the events that it has taken. -/
def takenEntry (s : PipelineState ρ) (sk : String) : ServiceInstancesCacheItem :=
  ((s.sent (instanceText sk)).take (s.received (instanceText sk))).foldl refreshedBy .new

structure Fed (env : PipelineEnv) (server : SpecServer ρ) (s : PipelineState ρ) : Prop where
  history : ConnectorState.History env.connector server Initial s.connector
  refreshing : ConnectorState.Refreshing env.connector s.connector
  counted : ∀ text, s.received text ≤ (s.sent text).length
  present : ∀ sk, s.connector.watches (instanceText sk) ≠ none → s.handler.instances sk ≠ none
  pending : ∀ key ∈ s.submitted, ∀ sk, key.toText = .ok (instanceText sk) →
    s.handler.instances sk ≠ none
  entries : ∀ sk item, s.handler.instances sk = some item → item = s.takenEntry sk

theorem fed_new : Fed env server (new : PipelineState ρ) where
  history := ConnectorState.history_new
  refreshing := ConnectorState.refreshing_new
  counted := fun _ => Nat.zero_le _
  present := fun _ h => absurd rfl h
  pending := fun _ h => absurd h List.not_mem_nil
  entries := fun _ _ h => by cases h

theorem steady_watcher : (watcherOps : ResourceHandler ρ (MemoryResourceWatcher ρ)).Steady :=
  fun _ _ => ⟨rfl, rfl⟩

theorem sent_grows (env : PipelineEnv) (server : SpecServer ρ) (s : PipelineState ρ)
    (action : ConnectorState.Action (MemoryResourceWatcher ρ)) (text : String) :
    ∃ more, ({ s with
      connector := s.connector.step env.connector server action } : PipelineState ρ).sent text =
        s.sent text ++ more := by
  rcases watch_cases env.connector server s.connector action text with
    hsame | ⟨handler, -, hnone, -⟩ | ⟨wrapper, revision, discoverValue, configValue, hold, hnew⟩
  · exact ⟨[], by simp [sent, hsame]⟩
  · exact ⟨_, by rw [sent, sent, hnone]; rfl⟩
  · refine ⟨[⟨wrapper.handler.eventKey, discoverValue, configValue⟩], ?_⟩
    simp only [sent, hold, hnew]
    rfl

theorem fed_connector (fed : Fed env server s)
    (action : ConnectorState.Action (MemoryResourceWatcher ρ))
    (registers : ∀ watcher, action = .register watcher → Initial watcher ∧
      ∀ sk, watcher.eventKey.toText = .ok (instanceText sk) → s.handler.instances sk ≠ none) :
    Fed env server { s with connector := s.connector.step env.connector server action } where
  history := ConnectorState.history_step fed.history fun watcher h => (registers watcher h).1
  refreshing := ConnectorState.refreshing_step steady_watcher fed.refreshing action
  counted := by
    intro text
    obtain ⟨more, hmore⟩ := sent_grows env server s action text
    rw [hmore, List.length_append]
    exact (fed.counted text).trans (Nat.le_add_right _ _)
  present := by
    intro sk hwatch
    rcases watch_cases env.connector server s.connector action (instanceText sk) with
      hsame | ⟨watcher, haction, -, htext⟩ |
        ⟨wrapper, revision, discoverValue, configValue, hold, -⟩
    · rw [hsame] at hwatch
      exact fed.present sk hwatch
    · exact (registers watcher haction).2 sk htext
    · exact fed.present sk (by rw [hold]; simp)
  pending := fed.pending
  entries := by
    intro sk item hitem
    obtain ⟨more, hmore⟩ := sent_grows env server s action (instanceText sk)
    rw [fed.entries sk item hitem, takenEntry, takenEntry, hmore,
      List.take_append_of_le_length (fed.counted _)]

theorem fed_register (fed : Fed env server s) {key : ResourceEventKey}
    (entry : ∀ sk, key.toText = .ok (instanceText sk) → s.handler.instances sk ≠ none) :
    Fed env server { s with
      connector := s.connector.step env.connector server (.register (.new key)) } := by
  apply fed_connector fed
  intro watcher h
  cases h
  exact ⟨rfl, entry⟩

theorem fed_runTask (fed : Fed env server s) (index : Nat) :
    Fed env server (s.runTask env server index) := by
  unfold runTask
  split
  · exact fed
  · rename_i key hkey
    have hregistered := fed_register fed (fed.pending key (List.mem_of_getElem? hkey))
    refine ⟨hregistered.history, hregistered.refreshing, hregistered.counted, hregistered.present,
      ?_, hregistered.entries⟩
    intro other hother
    exact fed.pending other ((List.eraseIdx_sublist _ _).subset hother)

theorem fed_foreign (fed : Fed env server s)
    {action : ConnectorState.Action (MemoryResourceWatcher ρ)} (foreign : isForeign action = true) :
    Fed env server { s with connector := s.connector.step env.connector server action } := by
  apply fed_connector fed
  intro watcher h
  subst h
  simp only [isForeign, Bool.and_eq_true, List.isEmpty_iff] at foreign
  refine ⟨foreign.1, ?_⟩
  intro sk htext
  rw [(instance_of_toText htext).1] at foreign
  exact absurd foreign.2 (by decide)

theorem instances_ensureEntry (handler : MemoryResourceHandler ρ) (key : ResourceEventKey)
    (sk : String) :
    (ensureEntry handler key).instances sk = handler.instances sk ∨
      handler.instances sk = none ∧ (ensureEntry handler key).instances sk = some .new := by
  unfold ensureEntry
  split
  · exact .inl rfl
  · split
    · exact .inl rfl
    · exact orInsert_cases ..
  · split <;> exact .inl rfl
  · split <;> exact .inl rfl
  · split <;> exact .inl rfl
  all_goals exact .inl rfl

theorem present_ensureEntry (handler : MemoryResourceHandler ρ) {key : ResourceEventKey}
    {sk : String} (htext : key.toText = .ok (instanceText sk)) :
    (ensureEntry handler key).instances sk ≠ none := by
  obtain ⟨htype, service, hservice, rfl⟩ := instance_of_toText htext
  unfold ensureEntry
  simp only [htype, hservice, orInsert, setEntry, Function.update_self]
  exact Option.some_ne_none _

theorem fed_load (fed : Fed env server s) (key : ResourceEventKey) :
    Fed env server (s.load key) where
  history := fed.history
  refreshing := fed.refreshing
  counted := fed.counted
  present := by
    intro sk hwatch
    have hold := fed.present sk hwatch
    rcases instances_ensureEntry s.handler key sk with hsame | ⟨hnone, -⟩
    · simp only [load, hsame]
      exact hold
    · exact absurd hnone hold
  pending := by
    intro other hother sk htext
    have hkept : s.handler.instances sk ≠ none →
        (ensureEntry s.handler key).instances sk ≠ none := by
      intro hold
      rcases instances_ensureEntry s.handler key sk with hsame | ⟨hnone, -⟩
      · rw [hsame]
        exact hold
      · exact absurd hnone hold
    simp only [load] at hother
    split at hother
    · rcases List.mem_append.mp hother with hother | hother
      · exact hkept (fed.pending other hother sk htext)
      · rw [List.mem_singleton.mp hother] at htext
        exact present_ensureEntry s.handler htext
    · exact hkept (fed.pending other hother sk htext)
  entries := by
    intro sk item hitem
    rcases instances_ensureEntry s.handler key sk with hsame | ⟨hnone, hnew⟩
    · simp only [load, hsame] at hitem
      exact fed.entries sk item hitem
    · simp only [load, hnew] at hitem
      cases hitem
      have hwatch : s.connector.watches (instanceText sk) = none := by
        by_contra hwatch
        exact fed.present sk hwatch hnone
      simp [takenEntry, sent, load, hwatch]

theorem key_of_event (fed : Fed env server s) {text : String} {event : Connector.RemoteData ρ}
    (hevent : event ∈ s.sent text) :
    event.eventKey.toText = .ok text ∧ s.connector.watches text ≠ none := by
  unfold sent at hevent
  cases hwatch : s.connector.watches text with
  | none =>
      rw [hwatch] at hevent
      cases hevent
  | some wrapper =>
      rw [hwatch] at hevent
      obtain ⟨handler, log, hinitial, htext, hwrapper, -⟩ := fed.history.watches text wrapper hwatch
      have hhandler := @handler_foldl_take ρ env log ⟨handler, ""⟩
      rw [← hwrapper] at hhandler
      simp only [show handler.sent = [] from hinitial, List.nil_append] at hhandler
      simp only [Option.map_some, Option.getD_some, hhandler] at hevent
      obtain ⟨delivery, -, rfl⟩ := List.mem_map.mp hevent
      refine ⟨?_, Option.some_ne_none _⟩
      cases delivery <;> exact htext

theorem instances_onSpecEvent (handler : MemoryResourceHandler ρ) (event : RemoteData ρ)
    (other : event.eventKey.eventType ≠ .«instance») :
    (onSpecEvent handler event).1.instances = handler.instances := by
  unfold onSpecEvent
  split
  · rfl
  · rfl
  · rename_i after value h
    rcases applyEvent_cases h with
      ⟨htype, -⟩ | ⟨type, remoteVal, svc, -, -, -, heq⟩ | ⟨-, heq⟩ | ⟨-, heq⟩ | heq
    · exact absurd htype other
    all_goals
      simp only
      rw [heq]

theorem onSpecEvent_instances {handler : MemoryResourceHandler ρ}
    {event : Connector.RemoteData ρ} {remoteVal : Connector.DiscoverResponse ρ} {svc : SpecService}
    {item : ServiceInstancesCacheItem} (htype : event.eventKey.eventType = .«instance»)
    (hvalue : event.discoverValue = some remoteVal) (hservice : remoteVal.service = some svc)
    (hitem : handler.instances (searchKey svc) = some item) :
    (onSpecEvent handler (ofRemote event)).1.instances =
      setEntry handler.instances (searchKey svc) (refreshedBy item event) := by
  unfold onSpecEvent applyEvent applyDiscover applyInstances
  simp only [ofRemote, htype, hvalue, Option.map_some, hservice, hitem, refreshedBy, refreshed]

theorem instanceText_injective {sk other : String} (h : instanceText sk = instanceText other) :
    sk = other :=
  (String.append_right_inj _).mp h

/-- The next event of an entry is an answer on it, and goes into it. -/
theorem fed_receive_instances (plain : PlainNamespaces server) (fed : Fed env server s)
    {sk : String} {event : Connector.RemoteData ρ}
    (hevent : (s.sent (instanceText sk))[s.received (instanceText sk)]? = some event) :
    Fed env server { s with
      handler := (onSpecEvent s.handler (ofRemote event)).1
      received := Function.update s.received (instanceText sk)
        (s.received (instanceText sk) + 1) } := by
  obtain ⟨hkey, hwatch⟩ := key_of_event fed (List.mem_of_getElem? hevent)
  obtain ⟨wrapper, hwrapper⟩ := Option.ne_none_iff_exists'.mp hwatch
  obtain ⟨-, answers, hsent, -, hanswered⟩ := sent_of_instances plain fed.history hwrapper
  obtain ⟨item, hitem⟩ := Option.ne_none_iff_exists'.mp (fed.present sk hwatch)
  have hmem : event ∈ wrapper.handler.sent := by
    have hmem := List.mem_of_getElem? hevent
    rwa [sent, hwrapper] at hmem
  rw [hsent] at hmem
  obtain ⟨answer, hanswer, hvalue⟩ := List.mem_map.mp hmem
  obtain ⟨-, -, svc, hservice, rfl⟩ := hanswered answer hanswer
  have hinstances := onSpecEvent_instances (instance_of_toText hkey).1
    (congrArg Connector.RemoteData.discoverValue hvalue).symm hservice hitem
  constructor
  · exact fed.history
  · exact fed.refreshing
  · intro text
    by_cases htext : text = instanceText (searchKey svc)
    · subst htext
      simp only [Function.update_self]
      exact (List.getElem?_eq_some_iff.mp hevent).1
    · simp only [Function.update_of_ne htext]
      exact fed.counted text
  · intro other hother
    simp only [hinstances, setEntry]
    by_cases hsame : other = searchKey svc
    · rw [hsame, Function.update_self]
      exact Option.some_ne_none _
    · rw [Function.update_of_ne hsame]
      exact fed.present other hother
  · intro key hpending other htext
    simp only [hinstances, setEntry]
    by_cases hsame : other = searchKey svc
    · rw [hsame, Function.update_self]
      exact Option.some_ne_none _
    · rw [Function.update_of_ne hsame]
      exact fed.pending key hpending other htext
  · intro other found hfound
    simp only [hinstances, setEntry] at hfound
    by_cases hsame : other = searchKey svc
    · subst hsame
      rw [Function.update_self] at hfound
      obtain rfl := Option.some.inj hfound
      have hnow := fed.entries _ item hitem
      simp only [takenEntry] at hnow ⊢
      simp only [Function.update_self]
      change _ = List.foldl _ _ (List.take _ (s.sent (instanceText (searchKey svc))))
      rw [List.take_add_one, hevent, List.foldl_append, ← hnow]
      rfl
    · rw [Function.update_of_ne hsame] at hfound
      rw [fed.entries other found hfound]
      simp only [takenEntry]
      rw [Function.update_of_ne fun h => hsame (instanceText_injective h)]
      rfl

theorem fed_receive (plain : PlainNamespaces server) (fed : Fed env server s) (text : String) :
    Fed env server (s.receive text) := by
  unfold receive
  split
  · exact fed
  · rename_i event hevent
    obtain ⟨hkey, -⟩ := key_of_event fed (List.mem_of_getElem? hevent)
    by_cases htype : event.eventKey.eventType = .«instance»
    · obtain ⟨service, hservice, -⟩ := service_of_toText hkey (by rw [htype]; rfl)
      rw [toText_of_instance htype hservice] at hkey
      obtain rfl := Except.ok.inj hkey
      exact fed_receive_instances plain fed hevent
    · have hinstances := instances_onSpecEvent s.handler (ofRemote event) htype
      have hother : ∀ sk, instanceText sk ≠ text := by
        intro sk h
        rw [← h] at hkey
        exact htype (instance_of_toText hkey).1
      constructor
      · exact fed.history
      · exact fed.refreshing
      · intro other
        by_cases hsame : other = text
        · subst hsame
          simp only [Function.update_self]
          exact (List.getElem?_eq_some_iff.mp hevent).1
        · simp only [Function.update_of_ne hsame]
          exact fed.counted other
      · intro sk hwatch
        simp only [hinstances]
        exact fed.present sk hwatch
      · intro key hpending sk htext
        simp only [hinstances]
        exact fed.pending key hpending sk htext
      · intro sk item hitem
        simp only [hinstances] at hitem
        rw [fed.entries sk item hitem]
        simp only [takenEntry]
        rw [Function.update_of_ne (hother sk)]
        rfl

theorem fed_recover (fed : Fed env server s) (event : RemoteData ρ) :
    Fed env server (s.recover event) := by
  unfold recover
  split
  · rename_i type htype
    have hinstances := instances_onSpecEvent s.handler event (by simp [htype])
    exact ⟨fed.history, fed.refreshing, fed.counted, by rw [hinstances]; exact fed.present,
      by rw [hinstances]; exact fed.pending, by rw [hinstances]; exact fed.entries⟩
  · exact fed

theorem fed_step (plain : PlainNamespaces server) (fed : Fed env server s) (action : Action ρ) :
    Fed env server (s.step env server action) := by
  cases action with
  | load key => exact fed_load fed key
  | runTask index => exact fed_runTask fed index
  | connector action =>
      simp only [step]
      split
      · rename_i foreign
        exact fed_foreign fed foreign
      · exact fed
  | receive text => exact fed_receive plain fed text
  | recover event => exact fed_recover fed event

theorem fed_run (plain : PlainNamespaces server) (actions : List (Action ρ)) :
    Fed env server (run (step env server) new actions) := by
  have hstep : ∀ t a, Fed env server t → True → Fed env server (t.step env server a) :=
    fun t a fed _ => fed_step plain fed a
  exact run_invariant hstep fed_new (along_of_forall fun _ _ _ => trivial)

/-! ## What the entries show -/

/-- The channel keeps what was sent, and the cache does not go back in it. -/
structure Grows (s t : PipelineState ρ) : Prop where
  sent : ∀ text, ∃ more, t.sent text = s.sent text ++ more
  received : ∀ text, s.received text ≤ t.received text

theorem grows_same {s t : PipelineState ρ} (connector : t.connector = s.connector)
    (received : t.received = s.received) : Grows s t where
  sent := fun _ => ⟨[], by simp [PipelineState.sent, connector]⟩
  received := fun _ => by rw [received]

theorem grows_step (env : PipelineEnv) (server : SpecServer ρ) (s : PipelineState ρ)
    (action : Action ρ) : Grows s (s.step env server action) := by
  cases action with
  | load key => exact grows_same rfl rfl
  | runTask index =>
      simp only [step, runTask]
      split
      · exact grows_same rfl rfl
      · exact ⟨sent_grows env server s _, fun _ => le_refl _⟩
  | connector action =>
      simp only [step]
      split
      · exact ⟨sent_grows env server s action, fun _ => le_refl _⟩
      · exact grows_same rfl rfl
  | receive text =>
      simp only [step, receive]
      split
      · exact grows_same rfl rfl
      · refine ⟨fun _ => ⟨[], by simp [sent]⟩, ?_⟩
        intro other
        by_cases hother : other = text
        · subst hother
          simp
        · simp only [Function.update_of_ne hother]
          exact le_refl _
  | recover event =>
      simp only [step, recover]
      split <;> exact grows_same rfl rfl

theorem grows_run (env : PipelineEnv) (server : SpecServer ρ) (s : PipelineState ρ)
    (actions : List (Action ρ)) : Grows s (run (step env server) s actions) := by
  induction actions generalizing s with
  | nil => exact grows_same rfl rfl
  | cons action actions ih =>
      have hfirst := grows_step env server s action
      have hrest := ih (s.step env server action)
      constructor
      · intro text
        obtain ⟨more, hmore⟩ := hfirst.sent text
        obtain ⟨rest, hrest⟩ := hrest.sent text
        exact ⟨more ++ rest, by rw [run_cons, hrest, hmore, List.append_assoc]⟩
      · exact fun text => (hfirst.received text).trans (hrest.received text)

theorem instances_kept {handler : MemoryResourceHandler ρ} {sk : String}
    (h : handler.instances sk ≠ none) (event : RemoteData ρ) :
    (onSpecEvent handler event).1.instances sk ≠ none := by
  by_cases htype : event.eventKey.eventType = .«instance»
  · unfold onSpecEvent applyEvent
    simp only [htype]
    rcases applyDiscover_cases event (applyInstances handler) with
      hpanicked | ⟨remoteVal, svc, -, -, heq⟩
    · simp only [hpanicked]
      exact h
    · rw [heq]
      unfold applyInstances
      cases hitem : handler.instances (searchKey svc) with
      | none => exact h
      | some item =>
          simp only [setEntry]
          by_cases hsame : sk = searchKey svc
          · rw [hsame, Function.update_self]
            exact Option.some_ne_none _
          · rw [Function.update_of_ne hsame]
            exact h
  · rw [instances_onSpecEvent handler event htype]
    exact h

theorem instances_stay {sk : String} (h : s.handler.instances sk ≠ none)
    (actions : List (Action ρ)) :
    (run (step env server) s actions).handler.instances sk ≠ none := by
  have hstep : ∀ (t : PipelineState ρ) (a : Action ρ), t.handler.instances sk ≠ none → True →
      (t.step env server a).handler.instances sk ≠ none := by
    intro t a ht _
    cases a with
    | load key =>
        rcases instances_ensureEntry t.handler key sk with hsame | ⟨hnone, -⟩
        · simp only [step, load, hsame]
          exact ht
        · exact absurd hnone ht
    | runTask index =>
        simp only [step, runTask]
        split <;> exact ht
    | connector action =>
        simp only [step]
        split <;> exact ht
    | receive text =>
        simp only [step, receive]
        split
        · exact ht
        · exact instances_kept ht _
    | recover event =>
        simp only [step, recover]
        split
        · exact instances_kept ht _
        · exact ht
  exact run_invariant hstep h (along_of_forall fun _ _ _ => trivial)

/-- What an entry is after these answers on it. -/
def entryOf (answers : List (Nat × Connector.DiscoverResponse ρ)) : ServiceInstancesCacheItem :=
  answers.foldl (fun item answer => refreshed item answer.2.toDiscoverResponse) .new

theorem answers_sent (plain : PlainNamespaces server) (fed : Fed env server s) (sk : String) :
    ∃ answers : List (Nat × Connector.DiscoverResponse ρ),
      (∀ n, ((s.sent (instanceText sk)).take n).foldl refreshedBy .new =
        entryOf (answers.take n)) ∧
      answers.length = (s.sent (instanceText sk)).length ∧
      answers.Pairwise (fun a b => a.1 ≤ b.1) ∧ ∀ answer ∈ answers, Answered server sk answer := by
  cases hwatch : s.connector.watches (instanceText sk) with
  | none =>
      refine ⟨[], ?_, ?_, .nil, by simp⟩
      · intro n
        simp [sent, hwatch, entryOf]
      · simp [sent, hwatch]
  | some wrapper =>
      obtain ⟨-, answers, hsent, hsorted, hanswered⟩ :=
        sent_of_instances plain fed.history hwatch
      have hall : s.sent (instanceText sk) =
          answers.map fun answer => ⟨wrapper.handler.eventKey, some answer.2, none⟩ := by
        rw [sent, hwatch]
        exact hsent
      refine ⟨answers, ?_, by rw [hall, List.length_map], hsorted, hanswered⟩
      intro n
      rw [hall, ← List.map_take, List.foldl_map]
      rfl

/-- The entry of a service is what the server has said on it so far, in the order of the server,
up to some answer; whatever happens next, it goes on from there and never back. -/
theorem entries_in_server_order (plain : PlainNamespaces server) (actions later : List (Action ρ))
    {sk : String} {item : ServiceInstancesCacheItem}
    (h : (run (step env server) new actions).handler.instances sk = some item) :
    ∃ answers rest : List (Nat × Connector.DiscoverResponse ρ),
      item = entryOf answers ∧
      (run (step env server) new (actions ++ later)).handler.instances sk =
        some (entryOf (answers ++ rest)) ∧
      (answers ++ rest).Pairwise (fun a b => a.1 ≤ b.1) ∧
      ∀ answer ∈ answers ++ rest, Answered server sk answer := by
  have hbefore : Fed env server (run (step env server) new actions) := fed_run plain actions
  have hafter : Fed env server (run (step env server) new (actions ++ later)) :=
    fed_run plain (actions ++ later)
  have hgrows : Grows (run (step env server) new actions)
      (run (step env server) new (actions ++ later)) := by
    rw [run_append]
    exact grows_run env server _ later
  have hstays : (run (step env server) new (actions ++ later)).handler.instances sk ≠ none := by
    rw [run_append]
    exact instances_stay (by rw [h]; exact Option.some_ne_none _) later
  obtain ⟨last, hlast⟩ := Option.ne_none_iff_exists'.mp hstays
  obtain ⟨answers, hentry, -, hsorted, hanswered⟩ := answers_sent plain hafter sk
  obtain ⟨more, hmore⟩ := hgrows.sent (instanceText sk)
  have htaken := hgrows.received (instanceText sk)
  generalize hn : (run (step env server) new actions).received (instanceText sk) = n at htaken
  generalize hm : (run (step env server) new (actions ++ later)).received (instanceText sk) = m
    at htaken
  have hsplit : answers.take n ++ (answers.take m).drop n = answers.take m := by
    calc answers.take n ++ (answers.take m).drop n
        = (answers.take m).take n ++ (answers.take m).drop n := by
          rw [List.take_take, Nat.min_eq_left htaken]
      _ = answers.take m := List.take_append_drop n _
  refine ⟨answers.take n, (answers.take m).drop n, ?_, ?_, ?_, ?_⟩
  · rw [hbefore.entries sk item h, takenEntry, hn, ← hentry, hmore,
      List.take_append_of_le_length (by rw [← hn]; exact hbefore.counted _)]
  · rw [hlast, hafter.entries sk last hlast, takenEntry, hm, hentry, hsplit]
  · rw [hsplit]
    exact hsorted.sublist (List.take_sublist m answers)
  · rw [hsplit]
    exact fun answer hanswer => hanswered answer (List.mem_of_mem_take hanswer)

def ordersLoaded : List (Action Unit) :=
  [.load ordersInstances, .runTask 0, .connector .answerDiscover, .connector .receiveDiscover]

def ordersPipeline : PipelineEnv := ⟨none, [("zone", "a"), ("app", "web")], .empty, [], []⟩

theorem ordersServer_plain : PlainNamespaces ordersServer := by
  intro time request svc htype
  simp only [ordersServer] at htype
  split at htype <;> cases htype

theorem orders_in_server_order :
    ∃ answers rest : List (Nat × Connector.DiscoverResponse Unit),
      ServiceInstancesCacheItem.new = entryOf answers ∧
      (run (step ordersPipeline ordersServer) new
        (ordersLoaded ++ [.receive "Instance#prod#orders"])).handler.instances "prod#orders" =
          some (entryOf (answers ++ rest)) ∧
      (answers ++ rest).Pairwise (fun a b => a.1 ≤ b.1) ∧
      ∀ answer ∈ answers ++ rest, Answered ordersServer "prod#orders" answer :=
  entries_in_server_order ordersServer_plain ordersLoaded _ rfl

/-! ## What the server says last -/

theorem connector_step (env : PipelineEnv) (server : SpecServer ρ) (s : PipelineState ρ)
    (action : Action ρ) :
    (s.step env server action).connector = s.connector ∨
      ∃ a, (s.step env server action).connector = s.connector.step env.connector server a := by
  cases action with
  | load key => exact .inl rfl
  | runTask index =>
      simp only [step, runTask]
      split
      · exact .inl rfl
      · rename_i key hkey
        exact .inr ⟨.register (.new key), rfl⟩
  | connector action =>
      simp only [step]
      split
      · exact .inr ⟨action, rfl⟩
      · exact .inl rfl
  | receive text =>
      simp only [step, receive]
      split <;> exact .inl rfl
  | recover event =>
      simp only [step, recover]
      split <;> exact .inl rfl

theorem run_connector {inv : ConnectorState ρ (MemoryResourceWatcher ρ) → Prop}
    (kept : ∀ t a, inv t → inv (t.step env.connector server a)) (h : inv s.connector)
    (actions : List (Action ρ)) : inv (run (step env server) s actions).connector := by
  have hstep : ∀ (t : PipelineState ρ) (a : Action ρ), inv t.connector → True →
      inv (t.step env server a).connector := by
    intro t a ht _
    rcases connector_step env server t a with hsame | ⟨action, haction⟩
    · rw [hsame]
      exact ht
    · rw [haction]
      exact kept _ action ht
  exact run_invariant hstep h (along_of_forall fun _ _ _ => trivial)

theorem refreshed_foldl (events : List (Connector.RemoteData ρ)) {item : ServiceInstancesCacheItem}
    {remoteVal : DiscoverResponse ρ} {svc : SpecService} (hservice : remoteVal.service = some svc) :
    refreshed (events.foldl refreshedBy item) remoteVal = refreshed item remoteVal := by
  induction events generalizing item with
  | nil => rfl
  | cons event events ih =>
      rw [List.foldl_cons, ih]
      unfold refreshedBy
      cases event.discoverValue with
      | none => rfl
      | some value =>
          simp only [refreshed, hservice]
          cases value.service <;> rfl

/-- An entry whose watcher was given the content last, and all of whose events have been taken, is
what the content alone makes. -/
theorem entry_of_last (plain : PlainNamespaces server) (fed : Fed env server s) {sk : String}
    {wrapper previous : ResourceHandlerWrapper (MemoryResourceWatcher ρ)} {time : Nat}
    {content : Connector.DiscoverResponse ρ}
    (hwatch : s.connector.watches (instanceText sk) = some wrapper)
    (hlast : wrapper = ConnectorState.take env.connector previous (.discover time content))
    (taken : s.received (instanceText sk) = (s.sent (instanceText sk)).length) :
    s.handler.instances sk = some (refreshed .new content.toDiscoverResponse) := by
  obtain ⟨item, hitem⟩ :=
    Option.ne_none_iff_exists'.mp (fed.present sk (by rw [hwatch]; exact Option.some_ne_none _))
  have hsent : s.sent (instanceText sk) =
      previous.handler.sent ++ [⟨previous.handler.eventKey, some content, none⟩] := by
    rw [sent, hwatch, hlast]
    rfl
  obtain ⟨-, answers, hanswers, -, hanswered⟩ := sent_of_instances plain fed.history hwatch
  have hservice : ∃ svc, content.service = some svc := by
    have hmem : (⟨previous.handler.eventKey, some content, none⟩ : Connector.RemoteData ρ) ∈
        wrapper.handler.sent := by
      rw [hlast]
      exact List.mem_append_right _ List.mem_cons_self
    rw [hanswers] at hmem
    obtain ⟨answer, hanswer, heq⟩ := List.mem_map.mp hmem
    obtain ⟨-, -, svc, hservice, -⟩ := hanswered answer hanswer
    have hcontent : some answer.2 = some content :=
      congrArg Connector.RemoteData.discoverValue heq
    rw [Option.some.inj hcontent] at hservice
    exact ⟨svc, hservice⟩
  obtain ⟨svc, hservice⟩ := hservice
  have hentry := fed.entries sk item hitem
  rw [takenEntry, taken, List.take_length, hsent, List.foldl_append] at hentry
  rw [hitem, hentry]
  exact congrArg some (refreshed_foldl _ hservice)

/-- In every run of the loads, the connector and the cache: once the server is at rest and its
older answers have come in, one round of the refresh is enough. When its requests have been
answered and the answers have come in, then at any later time at which the cache has taken what
the watcher has sent, the entry is what the final content makes of a new one. -/
theorem cache_current_once_answered (plain : PlainNamespaces server) {sk revision : String}
    {since : Nat} {content : Connector.DiscoverResponse ρ}
    (rest : ConnectorState.AtRest (env.connector : ConnectorEnv ρ (MemoryResourceWatcher ρ)) server
      (instanceText sk) since revision content)
    {before after later : List (Action ρ)} {order : List String}
    (hsince : since ≤ (run (step env server) new before).connector.time)
    (hold : ∀ entry ∈ (run (step env server) new before).connector.discover.responses,
      since ≤ entry.1)
    (hopen : (run (step env server) new before).connector.discover.ended = false)
    (hwatch : (run (step env server) new before).connector.watches (instanceText sk) ≠ none)
    (hmem : instanceText sk ∈ order)
    (hrequests : (run (step env server) new
      (before ++ .connector (.refresh order) :: after)).connector.discover.requests = [])
    (hresponses : (run (step env server) new
      (before ++ .connector (.refresh order) :: after)).connector.discover.responses = [])
    (taken : (run (step env server) new
        (before ++ .connector (.refresh order) :: after ++ later)).received (instanceText sk) =
      ((run (step env server) new
        (before ++ .connector (.refresh order) :: after ++ later)).sent (instanceText sk)).length) :
    (run (step env server) new
        (before ++ .connector (.refresh order) :: after ++ later)).handler.instances sk =
      some (refreshed .new content.toDiscoverResponse) := by
  have hfed : Fed env server (run (step env server) new before) := fed_run plain before
  obtain ⟨wrapper, hwrapper⟩ := Option.ne_none_iff_exists'.mp hwatch
  have hnaming : isNaming wrapper.handler.eventKey.eventType = true := by
    rw [(sent_of_instances plain hfed.history hwrapper).1]
    rfl
  have hround : ConnectorState.Settling env.connector server (instanceText sk) since revision
      content ((run (step env server) new before).connector.refresh env.connector order) := by
    apply ConnectorState.settling_refresh hfed.refreshing.keyed hopen hsince _ hwrapper hnaming hmem
    intro entry hentry
    exact ⟨hold entry hentry, hfed.history.discover.given entry hentry⟩
  have hstep : ((run (step env server) new before).step env server
      (.connector (.refresh order))).connector =
        (run (step env server) new before).connector.refresh env.connector order := by
    simp only [step, isForeign, if_true, ConnectorState.step, if_pos hfed.refreshing.refreshing]
  have hafter : ConnectorState.Refreshing env.connector (run (step env server) new
        (before ++ .connector (.refresh order) :: after)).connector ∧
      ConnectorState.Settling env.connector server (instanceText sk) since revision content
        (run (step env server) new
          (before ++ .connector (.refresh order) :: after)).connector := by
    rw [run_append, run_cons]
    have hkept : ∀ (t : ConnectorState ρ (MemoryResourceWatcher ρ)) a,
        ConnectorState.Refreshing env.connector t ∧
          ConnectorState.Settling env.connector server (instanceText sk) since revision content t →
        ConnectorState.Refreshing env.connector (t.step env.connector server a) ∧
          ConnectorState.Settling env.connector server (instanceText sk) since revision content
            (t.step env.connector server a) :=
      fun t a ht => ⟨ConnectorState.refreshing_step steady_watcher ht.1 a,
        ConnectorState.settling_step steady_watcher rest ht.1 ht.2 a⟩
    have hround : ConnectorState.Settling env.connector server (instanceText sk) since revision
        content ((run (step env server) new before).step env server
          (.connector (.refresh order))).connector := by
      rw [hstep]
      exact hround
    exact run_connector hkept ⟨(fed_step plain hfed _).refreshing, hround⟩ after
  have hsettled : ConnectorState.Settled env.connector server (instanceText sk) since revision
      content (run (step env server) new
        (before ++ .connector (.refresh order) :: after ++ later)).connector := by
    rw [run_append]
    have hkept : ∀ (t : ConnectorState ρ (MemoryResourceWatcher ρ)) a,
        ConnectorState.Settled env.connector server (instanceText sk) since revision content t →
        ConnectorState.Settled env.connector server (instanceText sk) since revision content
          (t.step env.connector server a) :=
      fun t a ht => ConnectorState.settled_step steady_watcher rest ht a
    have hdrained := ConnectorState.recorded_of_drained hafter.2 hrequests hresponses
    exact run_connector hkept ⟨hafter.1, hafter.2, hdrained⟩ later
  have hend : Fed env server (run (step env server) new
      (before ++ .connector (.refresh order) :: after ++ later)) := fed_run plain _
  obtain ⟨last, hlast, hrevision⟩ := hsettled.recorded
  obtain ⟨previous, time, hcontent⟩ := ConnectorState.content_of_revision rest hend.history
    hsettled.refreshing.keyed hlast (hsettled.settling.naming last hlast) hrevision
  exact entry_of_last plain hend hlast hcontent taken

theorem ordersPipeline_atRest :
    ConnectorState.AtRest
      (ordersPipeline.connector : ConnectorEnv Unit (MemoryResourceWatcher Unit)) ordersServer
      (instanceText "prod#orders") 1 "2" (ordersContent "2") :=
  have h := ConnectorState.ordersServer_atRest
  ⟨h.named, h.success, h.returns, h.revised, h.gives, h.only, h.identified⟩

theorem orders_current :
    (run (step ordersPipeline ordersServer) new
      ((ordersLoaded ++ [.connector .tick]) ++
        .connector (.refresh ["Instance#prod#orders"]) ::
          [.connector .answerDiscover, .connector .receiveDiscover] ++
        [.receive "Instance#prod#orders", .receive "Instance#prod#orders"])).handler.instances
          "prod#orders" =
      some (refreshed .new (ordersContent "2").toDiscoverResponse) := by
  have hmem : instanceText "prod#orders" ∈ ["Instance#prod#orders"] := by decide
  refine cache_current_once_answered ordersServer_plain ordersPipeline_atRest (by decide) ?_ rfl ?_
    hmem rfl rfl rfl
  · exact fun _ hentry => by cases hentry
  · exact Option.some_ne_none _

end PipelineState

end PoleClient.Cache
