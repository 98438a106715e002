import PoleClient.Connector.Convergence
import PoleClient.Connector.RoundTrip

/-! # When a watch is current

Once the server has stopped changing a resource and its older answers have come
in, one round of the refresh is enough: when it has been answered the watch has the
final content, and keeps it.
-/

namespace PoleClient.Connector

open Cache Identity Lib

variable {ρ η : Type} {env : ConnectorEnv ρ η} {server : SpecServer ρ}

/-! ## Keys of naming resources -/

def isNaming : EventType → Bool
  | .«instance» | .governance _ | .service | .serviceIdentity | .serviceIdentityBundle => true
  | _ => false

theorem service_of_toText {key : ResourceEventKey} {text : String}
    (h : key.toText = .ok text) (hnaming : isNaming key.eventType = true) :
    ∃ service, key.filter "service" = some service ∧
      text = key.eventType.toText ++ "#" ++ key.namespaceName ++ "#" ++ service := by
  cases hservice : key.filter "service" with
  | none =>
      unfold ResourceEventKey.toText at h
      rw [hservice] at h
      cases htype : key.eventType <;> rw [htype] at h hnaming <;>
        first
        | (cases hnaming; done)
        | cases h
  | some service =>
      have hfile : key.eventType ≠ .configFile := by
        intro htype
        rw [htype] at hnaming
        cases hnaming
      have hgroup : key.eventType ≠ .configGroup := by
        intro htype
        rw [htype] at hnaming
        cases hnaming
      rw [toText_of_service hfile hgroup hservice] at h
      cases h
      exact ⟨service, rfl, rfl⟩

theorem discoverRequest_of_toText {key : ResourceEventKey} {text : String}
    (h : key.toText = .ok text) (hnaming : isNaming key.eventType = true) (revision : String) :
    ∃ request, key.toDiscoverRequest revision = .ok (some request) := by
  obtain ⟨service, hservice, -⟩ := service_of_toText h hnaming
  unfold ResourceEventKey.toDiscoverRequest ResourceEventKey.serviceRequest
    ResourceEventKey.toSpecService
  rw [hservice]
  cases htype : key.eventType <;> rw [htype] at hnaming <;>
    first
    | exact ⟨_, rfl⟩
    | cases hnaming

theorem requests_of_toText {key : ResourceEventKey} {text : String} (h : key.toText = .ok text)
    (revision : String) :
    (∃ request, key.toDiscoverRequest revision = .ok request) ∧
      ∃ request, key.toConfigRequest revision = .ok request := by
  by_cases hnaming : isNaming key.eventType = true
  · obtain ⟨request, hrequest⟩ := discoverRequest_of_toText h hnaming revision
    refine ⟨⟨some request, hrequest⟩, none, ?_⟩
    unfold ResourceEventKey.toConfigRequest
    cases htype : key.eventType <;> rw [htype] at hnaming <;>
      first
      | rfl
      | cases hnaming
  · have hnone : key.toDiscoverRequest revision = .ok none := by
      unfold ResourceEventKey.toDiscoverRequest
      cases htype : key.eventType <;> rw [htype] at hnaming <;>
        first
        | rfl
        | exact absurd rfl hnaming
    refine ⟨⟨none, hnone⟩, ?_⟩
    unfold ResourceEventKey.toConfigRequest ResourceEventKey.toSpecConfigFile
      ResourceEventKey.toSpecConfigGroup
    unfold ResourceEventKey.toText at h
    cases htype : key.eventType <;> rw [htype] at h <;>
      first
      | exact ⟨none, rfl⟩
      | (cases hgroup : key.filter "group" <;> cases hfile : key.filter "file" <;>
          rw [hgroup] at h <;>
          first
          | exact ⟨_, rfl⟩
          | cases h
          | (rw [hfile] at h; cases h))

theorem take_eq_of_append {first second rest other : String} {n : Nat}
    (hfirst : n ≤ first.toList.length) (hsecond : n ≤ second.toList.length)
    (h : first ++ rest = second ++ other) : first.toList.take n = second.toList.take n := by
  have hlists := congrArg (fun text => text.toList.take n) h
  simp only [String.toList_append] at hlists
  rwa [List.take_append_of_le_length hfirst, List.take_append_of_le_length hsecond] at hlists

/-- The first letters of the types tell the naming resources from the configurations. -/
theorem naming_ne_config {eventType : EventType} (hnaming : isNaming eventType = true)
    {config : EventType} (hconfig : config = .configFile ∨ config = .configGroup)
    (rest other : String) : config.debug ++ other ≠ eventType.toText ++ rest := by
  intro h
  have hstart : config.debug.toList.take 6 = eventType.toText.toList.take 6 := by
    apply take_eq_of_append _ _ h
    · rcases hconfig with rfl | rfl <;> decide
    · cases eventType with
      | governance type => cases type <;> decide
      | _ => decide
  have htake : config.debug.toList.take 6 = "Config".toList := by
    rcases hconfig with rfl | rfl <;> decide
  rw [htake] at hstart
  cases eventType with
  | governance type => cases type <;> exact absurd hstart (by decide)
  | configFile | configGroup | configGroups => cases hnaming
  | _ => exact absurd hstart (by decide)

theorem configWatchKey_ne {key : ResourceEventKey} {text : String} (h : key.toText = .ok text)
    (hnaming : isNaming key.eventType = true) (resp : ConfigDiscoverResponse) :
    configResponseWatchKey resp ≠ some text := by
  obtain ⟨service, -, rfl⟩ := service_of_toText h hnaming
  intro hkey
  unfold configResponseWatchKey at hkey
  split at hkey
  · cases hfile : resp.file with
    | none =>
        rw [hfile] at hkey
        cases hkey
    | some file =>
        rw [hfile] at hkey
        have htext := Option.some.inj hkey
        simp only [String.append_assoc] at htext
        exact naming_ne_config hnaming (.inl rfl) _ _ htext
  · cases hfile : resp.fileNames.head? with
    | none =>
        rw [hfile] at hkey
        cases hkey
    | some file =>
        rw [hfile] at hkey
        have htext := Option.some.inj hkey
        simp only [String.append_assoc] at htext
        exact naming_ne_config hnaming (.inr rfl) _ _ htext
  · cases hkey
  · cases hkey

/-! ## The tasks of the connector -/

/-- The handler keeps the resource that it is interested in; a version it knows may change. -/
def ResourceHandler.Steady (ops : ResourceHandler ρ η) : Prop :=
  ∀ handler event,
    (ops.interestResource (ops.handleEvent handler event)).toText =
        (ops.interestResource handler).toText ∧
      (ops.interestResource (ops.handleEvent handler event)).eventType =
        (ops.interestResource handler).eventType

namespace ConnectorState

variable {s t : ConnectorState ρ η}

/-- Every watch is under the text of its key. -/
def Keyed (env : ConnectorEnv ρ η) (watches : Watches η) : Prop :=
  ∀ text wrapper, watches text = some wrapper →
    (env.ops.interestResource wrapper.handler).toText = .ok text

theorem keyed_setWatch {watches : Watches η} (keyed : Keyed env watches) {text : String}
    {wrapper : ResourceHandlerWrapper η}
    (h : (env.ops.interestResource wrapper.handler).toText = .ok text) :
    Keyed env (setWatch watches text wrapper) := by
  intro other old hold
  by_cases hother : other = text
  · subst hother
    rw [setWatch_self] at hold
    cases hold
    exact h
  · rw [setWatch_of_ne hother] at hold
    exact keyed other old hold

theorem keyed_deliver (steady : env.ops.Steady) {watches : Watches η} (keyed : Keyed env watches)
    {text : String} {wrapper : ResourceHandlerWrapper η} (hold : watches text = some wrapper)
    (revision : String) (discoverValue : Option (DiscoverResponse ρ))
    (configValue : Option ConfigDiscoverResponse) :
    Keyed env (setWatch watches text
      (wrapper.deliver env.ops revision discoverValue configValue)) := by
  apply keyed_setWatch keyed
  simp only [ResourceHandlerWrapper.deliver]
  rw [(steady wrapper.handler _).1]
  exact keyed text wrapper hold

/-- No watch makes a round of the refresh panic. -/
theorem refreshOne_ok (keyed : Keyed env s.watches) (text : String) :
    ∃ t, s.refreshOne env text = .ok t ∧ OnlySends s t := by
  unfold refreshOne
  cases hwatch : s.watches text with
  | none => exact ⟨s, rfl, .refl s⟩
  | some wrapper =>
      obtain ⟨⟨discoverRequest, hdiscover⟩, configRequest, hconfig⟩ :=
        requests_of_toText (keyed text wrapper hwatch) wrapper.revision
      have hsent : ∃ t, s.sendRequests env (env.ops.interestResource wrapper.handler)
          wrapper.revision = .ok t := by
        unfold sendRequests
        rw [hdiscover, hconfig]
        cases discoverRequest <;> cases configRequest <;> exact ⟨_, rfl⟩
      obtain ⟨t, ht⟩ := hsent
      exact ⟨t, ht, sendRequests_onlySends ht⟩

theorem refresh_sends (keyed : Keyed env s.watches) (hopen : s.discover.ended = false)
    {order : List String} {text : String} (hmem : text ∈ order)
    {wrapper : ResourceHandlerWrapper η} (hwatch : s.watches text = some wrapper)
    {request : DiscoverRequest}
    (built : (env.ops.interestResource wrapper.handler).toDiscoverRequest wrapper.revision =
      .ok (some request)) :
    attachClientLabels request env.labels ∈ (s.refresh env order).discover.requests := by
  induction order generalizing s with
  | nil => cases hmem
  | cons first rest ih =>
      obtain ⟨t, ht, hsends⟩ := refreshOne_ok keyed first
      simp only [refresh, ht]
      by_cases hfirst : first = text
      · subst hfirst
        obtain ⟨more, hmore⟩ := (refresh_onlySends env t rest).requests
        rw [hmore]
        apply List.mem_append_left
        obtain ⟨-, configRequest, hconfig⟩ :=
          requests_of_toText (keyed first wrapper hwatch) wrapper.revision
        have hsent : t = s.sendNamingDiscoverRequest env request := by
          simp only [refreshOne, hwatch, shouldRefreshResource, Bool.not_true,
            Bool.false_eq_true, if_false, sendRequests, built, hconfig] at ht
          cases ht
          rfl
        rw [hsent]
        simp [sendNamingDiscoverRequest, SpecStream.send, hopen]
      · have hrest : text ∈ rest := by
          rcases List.mem_cons.mp hmem with h | h
          · exact absurd h.symm hfirst
          · exact h
        exact ih (by rw [hsends.watches]; exact keyed) (by rw [hsends.ended, hopen]) hrest
          (by rw [hsends.watches, hwatch])

/-- The keys are in place and the refresh goes on. -/
structure Refreshing (env : ConnectorEnv ρ η) (s : ConnectorState ρ η) : Prop where
  keyed : Keyed env s.watches
  refreshing : s.refreshing = true

theorem sendRequests_refreshing {key : ResourceEventKey} {revision : String}
    (h : s.sendRequests env key revision = .ok t) : t.refreshing = s.refreshing := by
  obtain ⟨discoverRequest, -, h⟩ := succeeds_of_bind h
  obtain ⟨configRequest, -, h⟩ := succeeds_of_bind h
  cases discoverRequest with
  | some request =>
      cases h
      rfl
  | none =>
      cases configRequest with
      | some request =>
          cases h
          unfold sendConfigDiscoverRequest
          split <;> rfl
      | none =>
          cases h
          rfl

theorem refresh_refreshing (keyed : Keyed env s.watches) (hrefreshing : s.refreshing = true)
    (order : List String) : (s.refresh env order).refreshing = true := by
  induction order generalizing s with
  | nil => exact hrefreshing
  | cons text rest ih =>
      obtain ⟨t, ht, hsends⟩ := refreshOne_ok keyed text
      simp only [refresh, ht]
      apply ih
      · rw [hsends.watches]
        exact keyed
      · simp only [refreshOne] at ht
        split at ht
        · cases ht
          exact hrefreshing
        · split at ht
          · cases ht
            exact hrefreshing
          · rw [sendRequests_refreshing ht, hrefreshing]

theorem register_refreshing (s : ConnectorState ρ η) (handler : η) :
    (s.register env handler).1.refreshing = s.refreshing := by
  unfold register
  split
  · rfl
  · rfl
  · simp only
    split
    · rfl
    · rename_i t hsent
      exact (sendRequests_refreshing hsent :)

theorem keyed_receiveDiscover (steady : env.ops.Steady) {watches : Watches η}
    (keyed : Keyed env watches) (response : DiscoverResponse ρ) :
    Keyed env (receiveDiscoverResponse env.ops env.identity watches response) := by
  rcases receiveDiscoverResponse_cases env.ops env.identity watches response with
    hdropped | ⟨text, old, revision, -, -, hold, -, hgiven⟩
  · rw [hdropped]
    exact keyed
  · rw [hgiven]
    exact keyed_deliver steady keyed hold revision _ _

theorem keyed_receiveConfig (steady : env.ops.Steady) {watches : Watches η}
    (keyed : Keyed env watches) (response : ConfigDiscoverResponse) :
    Keyed env (receiveConfigResponse env.ops env.responseFilters watches response) := by
  rcases receiveConfigResponse_cases env.ops env.responseFilters watches response with
    hdropped | ⟨filtered, text, old, -, -, -, hold, hgiven⟩
  · rw [hdropped]
    exact keyed
  · rw [hgiven]
    exact keyed_deliver steady keyed hold _ _ _

theorem refreshing_step (steady : env.ops.Steady) (h : Refreshing env s) (action : Action η) :
    Refreshing env (s.step env server action) := by
  cases action with
  | register handler =>
      refine ⟨?_, (register_refreshing s handler).trans h.refreshing⟩
      simp only [step]
      rcases register_spec env s handler with hsame | ⟨text, htext, -, hsends⟩
      · rw [hsame]
        exact h.keyed
      · rw [hsends.watches]
        exact keyed_setWatch h.keyed htext
  | refresh order =>
      simp only [step, if_pos h.refreshing]
      refine ⟨?_, refresh_refreshing h.keyed h.refreshing order⟩
      rw [(refresh_onlySends env s order).watches]
      exact h.keyed
  | receiveDiscover =>
      simp only [step]
      split
      · unfold receiveDiscover
        split
        · split <;> exact ⟨h.keyed, h.refreshing⟩
        · exact ⟨keyed_receiveDiscover steady h.keyed _, h.refreshing⟩
      · exact h
  | receiveConfig =>
      simp only [step]
      split
      · unfold receiveConfig
        split
        · split <;> exact ⟨h.keyed, h.refreshing⟩
        · exact ⟨keyed_receiveConfig steady h.keyed _, h.refreshing⟩
      · exact h
  | tick => exact ⟨h.keyed, h.refreshing⟩
  | answerDiscover => exact ⟨h.keyed, h.refreshing⟩
  | answerConfig => exact ⟨h.keyed, h.refreshing⟩
  | endDiscover => exact ⟨h.keyed, h.refreshing⟩
  | endConfig => exact ⟨h.keyed, h.refreshing⟩

theorem refreshing_run (steady : env.ops.Steady) (h : Refreshing env s)
    (actions : List (Action η)) : Refreshing env (run (step env server) s actions) := by
  have hstep : ∀ t a, Refreshing env t → True → Refreshing env (t.step env server a) :=
    fun t a ht _ => refreshing_step steady ht a
  exact run_invariant hstep h (along_of_forall fun _ _ _ => trivial)

theorem refreshing_new : Refreshing env (new : ConnectorState ρ η) where
  keyed := by
    intro text wrapper h
    cases h
  refreshing := rfl

/-! ## A server at rest -/

/-- From a time on the server has one content of the resource: it refuses a request that knows the
content's revision, and gives the content to any other. No other content has that revision. -/
structure AtRest (env : ConnectorEnv ρ η) (server : SpecServer ρ) (text : String) (since : Nat)
    (revision : String) (content : DiscoverResponse ρ) : Prop where
  named : revision ≠ ""
  success : content.code = .executeSuccess
  returns : discoverResponseWatchKey content env.identity = some text
  revised : discoverResponseRevision content = some revision
  gives : ∀ (key : ResourceEventKey) known request time, key.toText = .ok text →
    key.toDiscoverRequest known = .ok (some request) → known ≠ revision → since ≤ time →
      server.discover time (attachClientLabels request env.labels) = content
  only : ∀ time request, since ≤ time →
    (server.discover time request).code = .executeSuccess →
    discoverResponseWatchKey (server.discover time request) env.identity = some text →
      server.discover time request = content
  identified : ∀ time request,
    (server.discover time request).code = .executeSuccess →
    discoverResponseWatchKey (server.discover time request) env.identity = some text →
    discoverResponseRevision (server.discover time request) = some revision →
      server.discover time request = content

variable {text revision : String} {since : Nat} {content : DiscoverResponse ρ}

def Stale (env : ConnectorEnv ρ η) (text revision : String) (request : DiscoverRequest) : Prop :=
  ∃ (key : ResourceEventKey) (known : String) (built : DiscoverRequest),
    key.toText = .ok text ∧ key.toDiscoverRequest known = .ok (some built) ∧
    known ≠ revision ∧ request = attachClientLabels built env.labels

/-- The watch has the revision, or the content is asked for or on its way. -/
structure Settling (env : ConnectorEnv ρ η) (server : SpecServer ρ) (text : String) (since : Nat)
    (revision : String) (content : DiscoverResponse ρ) (s : ConnectorState ρ η) : Prop where
  later : since ≤ s.time
  answers : ∀ entry ∈ s.discover.responses, since ≤ entry.1 ∧
    ∃ request, entry.2 = server.discover entry.1 request
  naming : ∀ wrapper, s.watches text = some wrapper →
    isNaming (env.ops.interestResource wrapper.handler).eventType = true
  current : ∃ wrapper, s.watches text = some wrapper ∧
    (wrapper.revision = revision ∨
      (∃ request ∈ s.discover.requests, Stale env text revision request) ∨
      ∃ entry ∈ s.discover.responses, entry.2 = content)

variable {env : ConnectorEnv ρ η} {server : SpecServer ρ}

/-- Nothing on its way is lost by a step that only sends. -/
theorem settling_onlySends (h : Settling env server text since revision content s)
    (hsends : OnlySends s t) : Settling env server text since revision content t where
  later := by
    rw [hsends.time]
    exact h.later
  answers := by
    rw [hsends.responses]
    exact h.answers
  naming := by
    rw [hsends.watches]
    exact h.naming
  current := by
    obtain ⟨wrapper, hwatch, hcurrent⟩ := h.current
    refine ⟨wrapper, by rw [hsends.watches, hwatch], ?_⟩
    rcases hcurrent with hrevision | ⟨request, hrequest, hstale⟩ | hentry
    · exact .inl hrevision
    · obtain ⟨more, hmore⟩ := hsends.requests
      refine .inr (.inl ⟨request, ?_, hstale⟩)
      rw [hmore]
      exact List.mem_append_left _ hrequest
    · refine .inr (.inr ?_)
      rw [hsends.responses]
      exact hentry

theorem settling_register (h : Settling env server text since revision content s) (handler : η) :
    Settling env server text since revision content (s.register env handler).1 := by
  rcases register_spec env s handler with hsame | ⟨other, -, hnone, hsends⟩
  · rw [hsame]
    exact h
  · have hne : text ≠ other := by
      rintro rfl
      obtain ⟨wrapper, hwatch, -⟩ := h.current
      rw [hnone] at hwatch
      cases hwatch
    have hwatch : setWatch s.watches other ⟨handler, ""⟩ text = s.watches text :=
      setWatch_of_ne hne
    refine settling_onlySends ?_ hsends
    refine ⟨h.later, h.answers, ?_, ?_⟩
    · intro wrapper hwrapper
      exact h.naming wrapper (hwatch.symm.trans hwrapper)
    · obtain ⟨wrapper, hold, hcurrent⟩ := h.current
      exact ⟨wrapper, hwatch.trans hold, hcurrent⟩

theorem settling_answer (rest : AtRest env server text since revision content)
    (h : Settling env server text since revision content s) :
    Settling env server text since revision content
      (s.step env server (.answerDiscover : Action η)) := by
  have hanswer : ∀ entry ∈ (s.discover.answer s.time (server.discover s.time)).responses,
      since ≤ entry.1 ∧ ∃ request, entry.2 = server.discover entry.1 request := by
    intro entry hentry
    rcases answer_responses s.discover s.time (server.discover s.time) with
      hsame | ⟨request, happended⟩
    · rw [hsame] at hentry
      exact h.answers entry hentry
    · rw [happended] at hentry
      rcases List.mem_append.mp hentry with hold | hnew
      · exact h.answers entry hold
      · rw [List.mem_singleton.mp hnew]
        exact ⟨h.later, request, rfl⟩
  refine ⟨h.later, hanswer, h.naming, ?_⟩
  obtain ⟨wrapper, hwatch, hcurrent⟩ := h.current
  refine ⟨wrapper, hwatch, ?_⟩
  simp only [step, SpecStream.answer]
  rcases hcurrent with hrevision | ⟨request, hrequest, hstale⟩ | ⟨entry, hentry, hcontent⟩
  · exact .inl hrevision
  · right
    cases hrequests : s.discover.requests with
    | nil =>
        rw [hrequests] at hrequest
        cases hrequest
    | cons first others =>
        rw [hrequests] at hrequest
        by_cases hended : s.discover.ended = true
        · simp only [if_pos hended, hrequests]
          exact .inl ⟨request, hrequest, hstale⟩
        · simp only [if_neg hended]
          rcases List.mem_cons.mp hrequest with rfl | hothers
          · obtain ⟨key, known, built, htext, hbuilt, hknown, rfl⟩ := hstale
            refine .inr ⟨(s.time, content), ?_, rfl⟩
            rw [rest.gives key known built s.time htext hbuilt hknown h.later]
            exact List.mem_append_right _ (List.mem_singleton.mpr rfl)
          · exact .inl ⟨request, hothers, hstale⟩
  · refine .inr (.inr ⟨entry, ?_, hcontent⟩)
    split
    · exact hentry
    · split
      · exact hentry
      · exact List.mem_append_left _ hentry

/-- An answer that has come in is the content and is recorded, or is not for the resource. -/
theorem receiveDiscover_watch (rest : AtRest env server text since revision content)
    {watches : Watches η} {wrapper : ResourceHandlerWrapper η}
    (hwatch : watches text = some wrapper) {time : Nat} {response : DiscoverResponse ρ}
    {request : DiscoverRequest} (hsince : since ≤ time)
    (hrequest : response = server.discover time request) :
    (response = content ∧ receiveDiscoverResponse env.ops env.identity watches response text =
        some (wrapper.deliver env.ops revision (some content) none)) ∨
      response ≠ content ∧
        receiveDiscoverResponse env.ops env.identity watches response text = some wrapper := by
  by_cases hcontent : response = content
  · left
    refine ⟨hcontent, ?_⟩
    unfold receiveDiscoverResponse
    rw [hcontent, if_neg (by rw [rest.success]; decide), if_neg (by rw [rest.success]; decide),
      rest.returns]
    simp only [hwatch, rest.revised, setWatch_self]
  · right
    refine ⟨hcontent, ?_⟩
    rcases receiveDiscoverResponse_cases env.ops env.identity watches response with
      hdropped | ⟨other, old, given, hcode, hkey, -, -, hgiven⟩
    · rw [hdropped, hwatch]
    · have hother : text ≠ other := by
        rintro rfl
        rw [hrequest] at hcode hkey hcontent
        exact hcontent (rest.only time request hsince hcode hkey)
      rw [hgiven, setWatch_of_ne hother, hwatch]

theorem receiveConfig_watch {watches : Watches η} (keyed : Keyed env watches)
    {wrapper : ResourceHandlerWrapper η} (hwatch : watches text = some wrapper)
    (hnaming : isNaming (env.ops.interestResource wrapper.handler).eventType = true)
    (response : ConfigDiscoverResponse) :
    receiveConfigResponse env.ops env.responseFilters watches response text = some wrapper := by
  rcases receiveConfigResponse_cases env.ops env.responseFilters watches response with
    hdropped | ⟨filtered, other, old, -, -, hkey, -, hgiven⟩
  · rw [hdropped, hwatch]
  · have hother : text ≠ other := by
      rintro rfl
      exact configWatchKey_ne (keyed text wrapper hwatch) hnaming _ hkey
    rw [hgiven, setWatch_of_ne hother, hwatch]

theorem register_watch {wrapper : ResourceHandlerWrapper η} (hwatch : s.watches text = some wrapper)
    (handler : η) : (s.register env handler).1.watches text = some wrapper := by
  rcases register_spec env s handler with hsame | ⟨other, -, hnone, hsends⟩
  · rw [hsame, hwatch]
  · have hother : text ≠ other := by
      rintro rfl
      rw [hnone] at hwatch
      cases hwatch
    rw [hsends.watches]
    exact (setWatch_of_ne hother).trans hwatch

theorem watch_step (rest : AtRest env server text since revision content)
    (hrefreshing : Refreshing env s)
    (h : Settling env server text since revision content s) (action : Action η)
    {wrapper : ResourceHandlerWrapper η} (hwatch : s.watches text = some wrapper) :
    (s.step env server action).watches text = some wrapper ∨
      (s.step env server action).watches text =
        some (wrapper.deliver env.ops revision (some content) none) := by
  cases action with
  | register handler => exact .inl (register_watch hwatch handler)
  | refresh order =>
      simp only [step, if_pos hrefreshing.refreshing]
      rw [(refresh_onlySends env s order).watches]
      exact .inl hwatch
  | receiveDiscover =>
      simp only [step]
      split
      · unfold receiveDiscover
        split
        · split <;> exact .inl hwatch
        · rename_i time response others hresponses
          obtain ⟨hsince, request, hrequest⟩ := h.answers (time, response) (by simp [hresponses])
          rcases receiveDiscover_watch rest hwatch hsince hrequest with hcontent | hother
          · exact .inr hcontent.2
          · exact .inl hother.2
      · exact .inl hwatch
  | receiveConfig =>
      simp only [step]
      split
      · unfold receiveConfig
        split
        · split <;> exact .inl hwatch
        · exact .inl (receiveConfig_watch hrefreshing.keyed hwatch (h.naming wrapper hwatch) _)
      · exact .inl hwatch
  | tick => exact .inl hwatch
  | answerDiscover => exact .inl hwatch
  | answerConfig => exact .inl hwatch
  | endDiscover => exact .inl hwatch
  | endConfig => exact .inl hwatch

theorem naming_step (steady : env.ops.Steady)
    (rest : AtRest env server text since revision content) (hrefreshing : Refreshing env s)
    (h : Settling env server text since revision content s) (action : Action η) :
    ∀ wrapper, (s.step env server action).watches text = some wrapper →
      isNaming (env.ops.interestResource wrapper.handler).eventType = true := by
  intro wrapper hwrapper
  obtain ⟨old, hold, -⟩ := h.current
  rcases watch_step rest hrefreshing h action hold with hsame | hgiven
  · rw [hsame] at hwrapper
    cases hwrapper
    exact h.naming _ hold
  · rw [hgiven] at hwrapper
    cases hwrapper
    simp only [ResourceHandlerWrapper.deliver]
    rw [(steady old.handler _).2]
    exact h.naming old hold

theorem settling_receiveDiscover (steady : env.ops.Steady)
    (rest : AtRest env server text since revision content) (hrefreshing : Refreshing env s)
    (h : Settling env server text since revision content s) :
    Settling env server text since revision content
      (s.step env server (.receiveDiscover : Action η)) := by
  have hnaming := naming_step steady rest hrefreshing h .receiveDiscover
  revert hnaming
  simp only [step]
  split
  · unfold receiveDiscover
    split
    · intro hnaming
      split <;> exact ⟨h.later, h.answers, h.naming, h.current⟩
    · rename_i time response others hresponses
      intro hnaming
      obtain ⟨hsince, request, hrequest⟩ := h.answers (time, response) (by simp [hresponses])
      obtain ⟨wrapper, hwatch, hcurrent⟩ := h.current
      refine ⟨h.later, ?_, hnaming, ?_⟩
      · intro entry hentry
        exact h.answers entry (by rw [hresponses]; exact List.mem_cons_of_mem _ hentry)
      · rcases receiveDiscover_watch rest hwatch hsince hrequest with ⟨-, hgiven⟩ | ⟨hother, hkept⟩
        · exact ⟨_, hgiven, .inl rfl⟩
        · refine ⟨wrapper, hkept, ?_⟩
          rcases hcurrent with hrevision | hstale | ⟨entry, hentry, hcontent⟩
          · exact .inl hrevision
          · exact .inr (.inl hstale)
          · rw [hresponses] at hentry
            rcases List.mem_cons.mp hentry with rfl | hothers
            · exact absurd hcontent hother
            · exact .inr (.inr ⟨entry, hothers, hcontent⟩)
  · exact fun _ => h

theorem settling_receiveConfig (steady : env.ops.Steady)
    (rest : AtRest env server text since revision content) (hrefreshing : Refreshing env s)
    (h : Settling env server text since revision content s) :
    Settling env server text since revision content
      (s.step env server (.receiveConfig : Action η)) := by
  have hnaming := naming_step steady rest hrefreshing h .receiveConfig
  revert hnaming
  simp only [step]
  split
  · unfold receiveConfig
    split
    · intro hnaming
      split <;> exact ⟨h.later, h.answers, h.naming, h.current⟩
    · intro hnaming
      obtain ⟨wrapper, hwatch, hcurrent⟩ := h.current
      have hkept := receiveConfig_watch hrefreshing.keyed hwatch (h.naming wrapper hwatch)
      exact ⟨h.later, h.answers, hnaming, wrapper, hkept _, hcurrent⟩
  · exact fun _ => h

theorem settling_step (steady : env.ops.Steady)
    (rest : AtRest env server text since revision content) (hrefreshing : Refreshing env s)
    (h : Settling env server text since revision content s) (action : Action η) :
    Settling env server text since revision content (s.step env server action) := by
  cases action with
  | register handler => exact settling_register h handler
  | refresh order =>
      simp only [step, if_pos hrefreshing.refreshing]
      exact settling_onlySends h (refresh_onlySends env s order)
  | tick => exact ⟨h.later.trans (Nat.le_succ _), h.answers, h.naming, h.current⟩
  | answerDiscover => exact settling_answer rest h
  | receiveDiscover => exact settling_receiveDiscover steady rest hrefreshing h
  | receiveConfig => exact settling_receiveConfig steady rest hrefreshing h
  | answerConfig => exact ⟨h.later, h.answers, h.naming, h.current⟩
  | endDiscover => exact ⟨h.later, h.answers, h.naming, h.current⟩
  | endConfig => exact ⟨h.later, h.answers, h.naming, h.current⟩

theorem settling_refresh (keyed : Keyed env s.watches) (hopen : s.discover.ended = false)
    (hsince : since ≤ s.time)
    (hanswers : ∀ entry ∈ s.discover.responses, since ≤ entry.1 ∧
      ∃ request, entry.2 = server.discover entry.1 request)
    {wrapper : ResourceHandlerWrapper η} (hwatch : s.watches text = some wrapper)
    (hnaming : isNaming (env.ops.interestResource wrapper.handler).eventType = true)
    {order : List String} (hmem : text ∈ order) :
    Settling env server text since revision content (s.refresh env order) := by
  have hsends := refresh_onlySends env s order
  refine ⟨by rw [hsends.time]; exact hsince, by rw [hsends.responses]; exact hanswers, ?_, ?_⟩
  · intro other hother
    rw [hsends.watches, hwatch] at hother
    cases hother
    exact hnaming
  · refine ⟨wrapper, by rw [hsends.watches, hwatch], ?_⟩
    by_cases hrevision : wrapper.revision = revision
    · exact .inl hrevision
    · have htext := keyed text wrapper hwatch
      obtain ⟨request, hbuilt⟩ := discoverRequest_of_toText htext hnaming wrapper.revision
      exact .inr (.inl ⟨_, refresh_sends keyed hopen hmem hwatch hbuilt, _, _, request, htext,
        hbuilt, hrevision, rfl⟩)

structure Settled (env : ConnectorEnv ρ η) (server : SpecServer ρ) (text : String) (since : Nat)
    (revision : String) (content : DiscoverResponse ρ) (s : ConnectorState ρ η) : Prop where
  refreshing : Refreshing env s
  settling : Settling env server text since revision content s
  recorded : ∃ wrapper, s.watches text = some wrapper ∧ wrapper.revision = revision

theorem settled_step (steady : env.ops.Steady)
    (rest : AtRest env server text since revision content)
    (h : Settled env server text since revision content s) (action : Action η) :
    Settled env server text since revision content (s.step env server action) where
  refreshing := refreshing_step steady h.refreshing action
  settling := settling_step steady rest h.refreshing h.settling action
  recorded := by
    obtain ⟨wrapper, hwatch, hrevision⟩ := h.recorded
    rcases watch_step rest h.refreshing h.settling action hwatch with hsame | hgiven
    · exact ⟨wrapper, hsame, hrevision⟩
    · exact ⟨_, hgiven, rfl⟩

theorem recorded_of_drained (h : Settling env server text since revision content s)
    (hrequests : s.discover.requests = []) (hresponses : s.discover.responses = []) :
    ∃ wrapper, s.watches text = some wrapper ∧ wrapper.revision = revision := by
  obtain ⟨wrapper, hwatch, hcurrent⟩ := h.current
  refine ⟨wrapper, hwatch, ?_⟩
  rcases hcurrent with hrevision | ⟨request, hrequest, -⟩ | ⟨entry, hentry, -⟩
  · exact hrevision
  · rw [hrequests] at hrequest
    cases hrequest
  · rw [hresponses] at hentry
    cases hentry

/-- A watch with the revision was given the content last. -/
theorem content_of_revision {initial : η → Prop}
    (rest : AtRest env server text since revision content)
    (history : History env server initial s) (keyed : Keyed env s.watches)
    {wrapper : ResourceHandlerWrapper η} (hwatch : s.watches text = some wrapper)
    (hnaming : isNaming (env.ops.interestResource wrapper.handler).eventType = true)
    (hrevision : wrapper.revision = revision) :
    ∃ previous time, wrapper = take env previous (.discover time content) := by
  obtain ⟨handler, log, -, -, hlog, -, hgenuine⟩ := history.watches text wrapper hwatch
  rcases List.eq_nil_or_concat log with rfl | ⟨earlier, last, rfl⟩
  · rw [hlog] at hrevision
    exact absurd hrevision.symm rest.named
  · rw [List.concat_eq_append, List.foldl_append] at hlog
    refine ⟨earlier.foldl (take env) ⟨handler, ""⟩, ?_⟩
    obtain ⟨hlast, -⟩ := hgenuine last (by simp)
    cases last with
    | config time response =>
        exact absurd hlast.2.2 (configWatchKey_ne (keyed text wrapper hwatch) hnaming response)
    | discover time response =>
        obtain ⟨⟨request, hrequest⟩, hcode, hkey, given, hgiven⟩ := hlast
        have hsame : given = revision := by
          rw [hlog] at hrevision
          simpa [take, ResourceHandlerWrapper.deliver, hgiven] using hrevision
        rw [hrequest] at hcode hkey hgiven
        rw [hsame] at hgiven
        have hcontent := rest.identified time request hcode hkey hgiven
        rw [← hrequest] at hcontent
        subst hcontent
        exact ⟨time, hlog⟩

/-- In every run: once the server is at rest and its older answers have come in, one round of the
refresh is enough. When its requests have been answered and the answers have come in, the watch has
the final revision and was given the final content last, then and ever after. -/
theorem current_once_answered (steady : env.ops.Steady)
    (rest : AtRest env server text since revision content) {before after later : List (Action η)}
    {order : List String} {wrapper : ResourceHandlerWrapper η}
    (hsince : since ≤ (run (step env server) new before).time)
    (hold : ∀ entry ∈ (run (step env server) new before).discover.responses, since ≤ entry.1)
    (hopen : (run (step env server) new before).discover.ended = false)
    (hwatch : (run (step env server) new before).watches text = some wrapper)
    (hnaming : isNaming (env.ops.interestResource wrapper.handler).eventType = true)
    (hmem : text ∈ order)
    (hrequests :
      (run (step env server) new (before ++ .refresh order :: after)).discover.requests = [])
    (hresponses :
      (run (step env server) new (before ++ .refresh order :: after)).discover.responses = []) :
    ∃ last previous time,
      (run (step env server) new (before ++ .refresh order :: after ++ later)).watches text =
        some last ∧ last.revision = revision ∧
      last = take env previous (.discover time content) := by
  have hstart : Refreshing env (run (step env server) new before) :=
    refreshing_run steady refreshing_new before
  have hanswers : ∀ entry ∈ (run (step env server) new before).discover.responses,
      since ≤ entry.1 ∧ ∃ request, entry.2 = server.discover entry.1 request := by
    intro entry hentry
    exact ⟨hold entry hentry, (history_run before).discover.given entry hentry⟩
  have hround : Settling env server text since revision content
      ((run (step env server) new before).refresh env order) :=
    settling_refresh hstart.keyed hopen hsince hanswers hwatch hnaming hmem
  have hafter : Refreshing env (run (step env server) new (before ++ .refresh order :: after)) ∧
      Settling env server text since revision content
        (run (step env server) new (before ++ .refresh order :: after)) := by
    rw [run_append, run_cons]
    have hstep : (run (step env server) new before).step env server (.refresh order) =
        (run (step env server) new before).refresh env order := by
      simp only [step, if_pos hstart.refreshing]
    rw [hstep]
    have hnext : Refreshing env ((run (step env server) new before).refresh env order) := by
      rw [← hstep]
      exact refreshing_step steady hstart (.refresh order)
    have hboth : ∀ t a,
        Refreshing env t ∧ Settling env server text since revision content t → True →
        Refreshing env (t.step env server a) ∧
          Settling env server text since revision content (t.step env server a) :=
      fun t a ht _ => ⟨refreshing_step steady ht.1 a, settling_step steady rest ht.1 ht.2 a⟩
    exact run_invariant hboth ⟨hnext, hround⟩ (along_of_forall fun _ _ _ => trivial)
  have hsettled : Settled env server text since revision content
      (run (step env server) new (before ++ .refresh order :: after ++ later)) := by
    rw [run_append]
    have hstep : ∀ t a, Settled env server text since revision content t → True →
        Settled env server text since revision content (t.step env server a) :=
      fun t a ht _ => settled_step steady rest ht a
    exact run_invariant hstep
      ⟨hafter.1, hafter.2, recorded_of_drained hafter.2 hrequests hresponses⟩
      (along_of_forall fun _ _ _ => trivial)
  obtain ⟨last, hlast, hrevision⟩ := hsettled.recorded
  obtain ⟨previous, time, hcontent⟩ := content_of_revision rest (history_run _)
    hsettled.refreshing.keyed hlast (hsettled.settling.naming last hlast) hrevision
  exact ⟨last, previous, time, hlast, hrevision, hcontent⟩

theorem revision_of_built {key : ResourceEventKey} {known : String} {request : DiscoverRequest}
    (built : key.toDiscoverRequest known = .ok (some request)) :
    ∀ service ∈ request.service, service.revision = known := by
  have hservice : ∀ type, key.serviceRequest type known = .ok (some request) →
      ∀ service ∈ request.service, service.revision = known := by
    intro type h
    obtain ⟨service, hservice, h⟩ := succeeds_of_bind h
    obtain ⟨name, -, hname⟩ := succeeds_of_bind hservice
    cases hname
    cases h
    intro other hother
    cases hother
    rfl
  unfold ResourceEventKey.toDiscoverRequest at built
  split at built
  · exact hservice _ built
  · exact hservice _ built
  · exact hservice _ built
  · exact hservice _ built
  · cases built
    intro service h
    cases h
  · cases built

theorem ordersServer_atRest :
    AtRest ordersEnv ordersServer "Instance#prod#orders" 1 "2" (ordersContent "2") where
  named := by decide
  success := rfl
  returns := rfl
  revised := rfl
  gives := by
    intro key known request time _ hbuilt hknown hsince
    have hother : request.service.map SpecService.revision ≠ some "2" := by
      intro h
      obtain ⟨service, hservice, hrevision⟩ := Option.map_eq_some_iff.mp h
      exact hknown ((revision_of_built hbuilt service hservice).symm.trans hrevision)
    have hrevision : ordersRevision time = "2" := if_neg (by omega)
    simp only [ordersServer, attachClientLabels, hrevision, if_neg hother]
  only := by
    intro time request hsince hcode _
    have hrevision : ordersRevision time = "2" := if_neg (by omega)
    simp only [ordersServer, hrevision] at hcode ⊢
    split at hcode
    · cases hcode
    · rename_i hother
      rw [if_neg hother]
  identified := by
    intro time request hcode _ hrevised
    simp only [ordersServer] at hcode hrevised ⊢
    split at hcode
    · cases hcode
    · rename_i hother
      rw [if_neg hother] at hrevised ⊢
      have hrevision : ordersRevision time = "2" := Option.some.inj hrevised
      rw [hrevision]

theorem instances_current :
    ∃ last previous time,
      (run (step ordersEnv ordersServer) new
        ((ordersStart ++ [.tick]) ++ .refresh ["Instance#prod#orders"] ::
          [.answerDiscover, .receiveDiscover] ++ [.tick])).watches "Instance#prod#orders" =
        some last ∧ last.revision = "2" ∧
      last = take ordersEnv previous (.discover time (ordersContent "2")) :=
  current_once_answered (fun _ _ => ⟨rfl, rfl⟩) ordersServer_atRest (by decide)
    (fun _ hentry => by cases hentry) rfl rfl rfl (List.mem_singleton.mpr rfl) rfl rfl

end ConnectorState

end PoleClient.Connector
