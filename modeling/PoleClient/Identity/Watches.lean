import PoleClient.Connector.RoundTrip
import PoleClient.Identity.Handlers
import PoleClient.Identity.TrustBundle

/-! # The recorded revisions of the identity watches

The connector records the revision of a response, and only then does the handler
decide whether to install anything of it. The request that follows carries the
revision of the installed content if and only if no refused response has brought
another one.
-/

namespace PoleClient.Identity

open Lib Connector
open Cache hiding DiscoverResponse ConfigDiscoverResponse RemoteData

variable {ρ : Type}

/-! ## The two watches -/

inductive IdentityWatch where
  | identity
  | bundle
deriving DecidableEq, Repr

def IdentityWatch.eventType : IdentityWatch → EventType
  | .identity => .serviceIdentity
  | .bundle => .serviceIdentityBundle

variable (config : ServiceIdentityDiscoveryConfig)

def initialHandler : IdentityWatch → IdentityHandler
  | .identity => .identity ⟨config.namespaceName, config.service, none⟩
  | .bundle => .bundle ⟨config.namespaceName, config.service, .empty⟩

def watchKey (watch : IdentityWatch) : ResourceEventKey :=
  (initialHandler config watch).interestResource

def watchText (watch : IdentityWatch) : String :=
  watch.eventType.toText ++ "#" ++ config.namespaceName ++ "#" ++ config.service

theorem watchKey_service (watch : IdentityWatch) :
    (watchKey config watch).filter "service" = some config.service := by
  cases watch with
  | identity =>
      simp [watchKey, initialHandler, IdentityHandler.interestResource,
        ServiceIdentityResourceHandler.interestResource]
  | bundle =>
      simp [watchKey, initialHandler, IdentityHandler.interestResource,
        TrustBundleResourceHandler.interestResource]

theorem watchKey_fields (watch : IdentityWatch) :
    (watchKey config watch).eventType = watch.eventType ∧
      (watchKey config watch).namespaceName = config.namespaceName := by
  cases watch <;> exact ⟨rfl, rfl⟩

theorem watchKey_toText (watch : IdentityWatch) :
    (watchKey config watch).toText = .ok (watchText config watch) := by
  obtain ⟨hevent, hnamespace⟩ := watchKey_fields config watch
  have hservice := watchKey_service config watch
  have hother : watch.eventType ≠ .configFile ∧ watch.eventType ≠ .configGroup := by
    cases watch <;> decide
  rw [toText_of_service (hevent ▸ hother.1) (hevent ▸ hother.2) hservice, hevent, hnamespace]
  rfl

variable {config} in
theorem watchText_ne (other : ServiceIdentityDiscoveryConfig) :
    watchText config .identity ≠ watchText other .bundle := by
  intro h
  have hchar := congrArg String.toList h
  simp only [watchText, IdentityWatch.eventType, EventType.toText, String.toList_append] at hchar
  have hchar := congrArg (fun text => text[15]?) hchar
  revert hchar
  simp

variable {config} in
theorem watchText_inj {watch other : IdentityWatch}
    (h : watchText config watch = watchText config other) : watch = other := by
  cases watch <;> cases other
  · rfl
  · exact absurd h (watchText_ne config)
  · exact absurd h.symm (watchText_ne config)
  · rfl

def initialWatches : Watches IdentityHandler :=
  setWatch (setWatch (fun _ => none) (watchText config .identity)
      ⟨initialHandler config .identity, ""⟩)
    (watchText config .bundle) ⟨initialHandler config .bundle, ""⟩

theorem initialWatches_registered (now : Int64) :
    (do
      let first ← registerResourceHandler (IdentityHandler.ops ρ now) (fun _ => none)
        (initialHandler config .identity)
      registerResourceHandler (IdentityHandler.ops ρ now) first.1 (initialHandler config .bundle)) =
      .ok (initialWatches config, .ok true) := by
  have hidentity := watchKey_toText config .identity
  have hbundle := watchKey_toText config .bundle
  have hnone : setWatch (fun _ => none) (watchText config .identity)
      ⟨initialHandler config .identity, ""⟩ (watchText config .bundle) = none := by
    unfold setWatch
    rw [if_neg (watchText_ne config).symm]
  unfold watchKey at hidentity hbundle
  unfold registerResourceHandler
  simp only [IdentityHandler.ops, hidentity, hbundle]
  simp only [bind, Except.bind, pure, Except.pure, hnone]
  rfl

/-! ## Histories -/

structure Received (ρ : Type) where
  now : Int64
  response : DiscoverResponse ρ

/-- The watches, with the revision of the content accepted last for each. -/
structure Trail where
  watches : Watches IdentityHandler
  accepted : IdentityWatch → String

def Trail.start : Trail := ⟨initialWatches config, fun _ => ""⟩

/-- The revision that a response brings to the watch it is taken to. -/
def arriving (watch : IdentityWatch) (resp : DiscoverResponse ρ) : Option String :=
  if resp.code = .executeSuccess ∧
      discoverResponseWatchKey resp (some config) = some (watchText config watch) then
    discoverResponseRevision resp
  else none

def trailStep (trail : Trail) (received : Received ρ) : Trail where
  watches := receiveDiscoverResponse (IdentityHandler.ops ρ received.now) (some config)
    trail.watches received.response
  accepted := fun watch =>
    match trail.watches (watchText config watch), arriving config watch received.response with
    | some handle, some _ =>
        (handle.handler.installs received.now received.response).getD (trail.accepted watch)
    | _, _ => trail.accepted watch

/-- The next request of each watch carries the revision accepted last. -/
def InStep (trail : Trail) : Prop :=
  ∀ watch, ∃ handle, trail.watches (watchText config watch) = some handle ∧
    refreshDiscover (IdentityHandler.ops Unit 0) handle =
      (watchKey config watch).toDiscoverRequest (trail.accepted watch)

/-- A response that its handler refuses brings the revision that is recorded already. -/
def RefusedKnown (trail : Trail) (received : Received ρ) : Prop :=
  ∀ watch handle revision, trail.watches (watchText config watch) = some handle →
    arriving config watch received.response = some revision →
    handle.handler.Refuses received.now received.response → revision = handle.revision

/-- A response of which something is installed brings the revision of that. -/
def InstalledNamed (trail : Trail) (received : Received ρ) : Prop :=
  ∀ watch handle revision, trail.watches (watchText config watch) = some handle →
    arriving config watch received.response = some revision →
    ∀ content ∈ handle.handler.installs received.now received.response, revision = content

/-! ## One response -/

theorem receive_at {trail : Trail} (received : Received ρ) {watch : IdentityWatch}
    {handle : ResourceHandlerWrapper IdentityHandler}
    (h : trail.watches (watchText config watch) = some handle) :
    (trailStep config trail received).watches (watchText config watch) =
      some (match arriving config watch received.response with
        | none => handle
        | some revision => handle.deliver (IdentityHandler.ops ρ received.now) revision
            (some received.response) none) := by
  unfold trailStep receiveDiscoverResponse arriving
  simp only
  by_cases hcode : received.response.code = .executeSuccess
  · rw [if_neg (by rw [hcode]; decide), if_neg (by rw [hcode]; decide)]
    cases hkey : discoverResponseWatchKey received.response (some config) with
    | none => simpa using h
    | some text =>
        by_cases htext : text = watchText config watch
        · subst htext
          rw [if_pos ⟨hcode, rfl⟩]
          simp only [h]
          cases discoverResponseRevision received.response with
          | none => exact h
          | some revision => simp [setWatch]
        · rw [if_neg (by simp [htext])]
          simp only
          cases trail.watches text with
          | none => exact h
          | some other =>
              cases discoverResponseRevision received.response with
              | none => exact h
              | some revision =>
                  simp only [setWatch]
                  rw [if_neg (Ne.symm htext)]
                  exact h
  · have hnone : ¬ (received.response.code = .executeSuccess ∧
        discoverResponseWatchKey received.response (some config) =
          some (watchText config watch)) := fun hboth => hcode hboth.1
    rw [if_neg hnone, if_pos hcode]
    simpa using h

theorem held_handleEvent (now : Int64) (handler : IdentityHandler) (key : ResourceEventKey)
    (resp : DiscoverResponse ρ) :
    (handler.handleEvent now ⟨key, some resp, none⟩).held =
      (handler.installs now resp).getD handler.held := by
  cases handler with
  | identity handler =>
      unfold IdentityHandler.handleEvent ServiceIdentityResourceHandler.handleEvent
        IdentityHandler.installs
      cases hresp : resp.serviceIdentity with
      | none => simp [hresp]
      | some descriptor =>
          by_cases hnames : descriptor.namespaceName ≠ handler.namespaceName ∨
              descriptor.service ≠ handler.service
          · have hfirst : descriptor.namespaceName ≠ handler.namespaceName ∨
                descriptor.service ≠ handler.service ∨ supportedDescriptor descriptor = false := by
              rcases hnames with hnamespace | hservice
              · exact .inl hnamespace
              · exact .inr (.inl hservice)
            simp [hresp, hnames, hfirst]
          · push Not at hnames
            cases hsupported : supportedDescriptor descriptor with
            | false => simp [hresp, hnames, hsupported]
            | true => simp [hresp, hnames, hsupported, IdentityHandler.held]
  | bundle handler =>
      unfold IdentityHandler.handleEvent TrustBundleResourceHandler.handleEvent
        IdentityHandler.installs
      cases hresp : resp.serviceIdentityBundle with
      | none => simp [hresp]
      | some bundle =>
          unfold handleBundle IdentityHandler.held
          cases hconvert : convertTrustBundle now bundle with
          | error err => simp [hresp, hconvert]
          | ok candidate =>
              have hversion := (converted_of_ok hconvert).version.1
              rcases replace_cases handler.state candidate with ⟨err, hcase⟩ | ⟨hcase, -⟩
              · simp [hresp, hconvert, hcase]
              · simp [hresp, hconvert, hcase, hversion]

/-! ## Every history -/

/-- Both watches are there for good, and what each holds is what it accepted last. -/
def Registered (trail : Trail) : Prop :=
  ∀ watch, ∃ handle, trail.watches (watchText config watch) = some handle ∧
    handle.handler.interestResource = watchKey config watch ∧
    handle.handler.held = trail.accepted watch

theorem start_at (watch : IdentityWatch) :
    (Trail.start config).watches (watchText config watch) =
      some ⟨initialHandler config watch, ""⟩ := by
  have hne : watchText config .identity ≠ watchText config .bundle := watchText_ne config
  cases watch with
  | identity => simp [Trail.start, initialWatches, setWatch, hne]
  | bundle => simp [Trail.start, initialWatches, setWatch]

theorem registered_start : Registered config (.start config) := by
  intro watch
  refine ⟨_, start_at config watch, rfl, ?_⟩
  cases watch <;> rfl

theorem inStep_start : InStep config (.start config) := by
  intro watch
  refine ⟨_, start_at config watch, ?_⟩
  cases watch <;> rfl

theorem registered_step {trail : Trail} (inv : Registered config trail) (received : Received ρ) :
    Registered config (trailStep config trail received) := by
  intro watch
  obtain ⟨handle, hhandle, hinterest, hheld⟩ := inv watch
  refine ⟨_, receive_at config received hhandle, ?_⟩
  simp only [trailStep, hhandle]
  cases arriving config watch received.response with
  | none => exact ⟨hinterest, hheld⟩
  | some revision =>
      constructor
      · rw [← hinterest]
        exact IdentityHandler.interestResource_handleEvent received.now handle.handler _
      · rw [← hheld]
        exact held_handleEvent received.now handle.handler _ received.response

theorem request_inj {watch : IdentityWatch} {first second : String} :
    (watchKey config watch).toDiscoverRequest first =
      (watchKey config watch).toDiscoverRequest second ↔ first = second := by
  constructor
  · intro h
    have hservice := watchKey_service config watch
    cases watch with
    | identity =>
        have hspec : ∀ revision, (watchKey config .identity).toDiscoverRequest revision =
            .ok (some ⟨.serviceIdentity, some ⟨"", config.namespaceName, config.service, .empty,
              revision⟩, some default, none⟩) := by
          intro revision
          unfold ResourceEventKey.toDiscoverRequest ResourceEventKey.serviceRequest
            ResourceEventKey.toSpecService
          rw [hservice]
          rfl
        rw [hspec, hspec] at h
        simpa using h
    | bundle =>
        have hquery : ∀ revision, (watchKey config .bundle).toDiscoverRequest revision =
            .ok (some ⟨.serviceIdentityBundle, none, none, some ⟨revision,
              (((watchKey config .bundle).filter "sequence").bind Text.parseU64).getD 0⟩⟩) :=
          fun _ => rfl
        rw [hquery, hquery] at h
        simpa using h
  · exact fun h => congrArg _ h

theorem inStep_iff {trail : Trail} (inv : Registered config trail) :
    InStep config trail ↔ ∀ watch handle, trail.watches (watchText config watch) = some handle →
      handle.revision = trail.accepted watch := by
  constructor
  · intro h watch handle hhandle
    obtain ⟨same, hsame, hinterest, -⟩ := inv watch
    obtain ⟨other, hother, hrequest⟩ := h watch
    obtain rfl : same = handle := Option.some.inj (hsame.symm.trans hhandle)
    obtain rfl : same = other := Option.some.inj (hsame.symm.trans hother)
    unfold refreshDiscover at hrequest
    simp only [IdentityHandler.ops] at hrequest
    rw [hinterest] at hrequest
    exact (request_inj config).mp hrequest
  · intro h watch
    obtain ⟨handle, hhandle, hinterest, -⟩ := inv watch
    refine ⟨handle, hhandle, ?_⟩
    unfold refreshDiscover
    simp only [IdentityHandler.ops]
    rw [hinterest, h watch handle hhandle]

/-- From a state in step, a response leads to one if and only if it is known or named. -/
theorem inStep_step_iff {trail : Trail} (inv : Registered config trail)
    (before : InStep config trail) (received : Received ρ) :
    InStep config (trailStep config trail received) ↔
      RefusedKnown config trail received ∧ InstalledNamed config trail received := by
  rw [inStep_iff config (registered_step config inv received)]
  rw [inStep_iff config inv] at before
  constructor
  · intro h
    have hafter : ∀ watch handle revision, trail.watches (watchText config watch) = some handle →
        arriving config watch received.response = some revision →
        revision = (handle.handler.installs received.now received.response).getD
          (trail.accepted watch) := by
      intro watch handle revision hhandle harriving
      have hthere := receive_at config received hhandle
      rw [harriving] at hthere
      have hrecorded := h watch _ hthere
      simpa [trailStep, hhandle, harriving, ResourceHandlerWrapper.deliver] using hrecorded
    constructor
    · intro watch handle revision hhandle harriving hrefuses
      rw [hafter watch handle revision hhandle harriving,
        IdentityHandler.installs_eq_none_iff.mpr hrefuses, before watch handle hhandle]
      rfl
    · intro watch handle revision hhandle harriving content hcontent
      rw [hafter watch handle revision hhandle harriving, hcontent]
      rfl
  · rintro ⟨hknown, hnamed⟩ watch after hafter
    obtain ⟨handle, hhandle, -⟩ := inv watch
    rw [receive_at config received hhandle] at hafter
    obtain rfl := Option.some.inj hafter
    simp only [trailStep, hhandle]
    cases harriving : arriving config watch received.response with
    | none => exact before watch handle hhandle
    | some revision =>
        simp only [ResourceHandlerWrapper.deliver]
        cases hinstalls : handle.handler.installs received.now received.response with
        | none =>
            have hrefuses := IdentityHandler.installs_eq_none_iff.mp hinstalls
            rw [hknown watch handle revision hhandle harriving hrefuses]
            exact before watch handle hhandle
        | some content => exact hnamed watch handle revision hhandle harriving content hinstalls

/-- A response of the type of one of the watches. -/
def OwnType (resp : DiscoverResponse ρ) : Prop :=
  resp.type = .serviceIdentity ∨ resp.type = .serviceIdentityBundle

theorem arriving_ownType {watch : IdentityWatch} {resp : DiscoverResponse ρ} {revision : String}
    (own : OwnType resp) (h : arriving config watch resp = some revision) :
    (watch = .identity ∧ ∃ descriptor, resp.serviceIdentity = some descriptor ∧
        descriptor.revision = revision) ∨
      (watch = .bundle ∧ ∃ bundle, resp.serviceIdentityBundle = some bundle ∧
        bundle.version = revision) := by
  unfold arriving at h
  split at h
  · rename_i hreach
    obtain ⟨-, hkey⟩ := hreach
    unfold discoverResponseWatchKey at hkey
    unfold discoverResponseRevision at h
    rcases own with htype | htype
    · rw [htype] at h hkey
      cases hidentity : resp.serviceIdentity with
      | none =>
          rw [hidentity] at hkey
          cases hkey
      | some descriptor =>
          rw [hidentity] at h hkey
          have htext : watchText ⟨descriptor.namespaceName, descriptor.service⟩ .identity =
              watchText config watch := Option.some.inj hkey
          have hwatch : watch = .identity := by
            cases watch with
            | identity => rfl
            | bundle => exact absurd htext (watchText_ne config)
          refine .inl ⟨hwatch, descriptor, rfl, ?_⟩
          obtain ⟨same, hsame, hrevision⟩ := Option.map_eq_some_iff.mp h
          obtain rfl := Option.some.inj (Option.filter_eq_some_iff.mp hsame).1
          exact hrevision
    · rw [htype] at h hkey
      cases hbundle : resp.serviceIdentityBundle with
      | none =>
          rw [hbundle] at hkey
          cases hkey
      | some bundle =>
          rw [hbundle] at h hkey
          have htext : watchText config .bundle = watchText config watch := Option.some.inj hkey
          refine .inr ⟨(watchText_inj htext).symm, bundle, rfl, ?_⟩
          obtain ⟨same, hsame, hrevision⟩ := Option.map_eq_some_iff.mp h
          obtain rfl := Option.some.inj (Option.filter_eq_some_iff.mp hsame).1
          exact hrevision
  · cases h

theorem handler_of_interest {handler : IdentityHandler} {watch : IdentityWatch}
    (h : handler.interestResource = watchKey config watch) :
    (watch = .identity → ∃ own, handler = .identity own) ∧
      (watch = .bundle → ∃ own, handler = .bundle own) := by
  have hevent := (congrArg ResourceEventKey.eventType h).trans (watchKey_fields config watch).1
  cases handler with
  | identity own =>
      refine ⟨fun _ => ⟨own, rfl⟩, ?_⟩
      rintro rfl
      cases hevent
  | bundle own =>
      refine ⟨?_, fun _ => ⟨own, rfl⟩⟩
      rintro rfl
      cases hevent

/-- The revision of a response of an own type is the one of its content. -/
theorem installedNamed_of_ownType {trail : Trail} (inv : Registered config trail)
    {received : Received ρ} (own : OwnType received.response) :
    InstalledNamed config trail received := by
  intro watch handle revision hhandle harriving content hcontent
  obtain ⟨same, hsame, hinterest, -⟩ := inv watch
  obtain rfl : same = handle := Option.some.inj (hsame.symm.trans hhandle)
  obtain ⟨hidentity, hbundle⟩ := handler_of_interest config hinterest
  rcases arriving_ownType config own harriving with
    ⟨hwatch, descriptor, hdescriptor, hrevision⟩ | ⟨hwatch, bundle, hpresent, hrevision⟩
  · obtain ⟨handler, hhandler⟩ := hidentity hwatch
    rw [hhandler] at hcontent
    unfold IdentityHandler.installs at hcontent
    simp only [hdescriptor, Option.mem_def] at hcontent
    rw [← hrevision]
    by_cases hrefused : descriptor.namespaceName ≠ handler.namespaceName ∨
        descriptor.service ≠ handler.service ∨ supportedDescriptor descriptor = false
    · simp [hrefused] at hcontent
    · simpa [hrefused] using hcontent
  · obtain ⟨handler, hhandler⟩ := hbundle hwatch
    rw [hhandler] at hcontent
    unfold IdentityHandler.installs at hcontent
    simp only [hpresent, Option.mem_def] at hcontent
    rw [← hrevision]
    cases hresult : (handleBundle handler.state ⟨received.now, bundle⟩).2 with
    | error err => simp [hresult] at hcontent
    | ok _ => simpa [hresult] using hcontent

/-- All along a history the next request of each watch carries the revision of the content that
was accepted last, which is the content installed, if and only if no refused response of the
history brings another revision than the recorded one. Responses of other types, which are taken
to a watch only by a namespace spelled like its text, must also name what they install. -/
theorem recorded_in_step_iff (history : List (Received ρ)) :
    ((∀ part, part <+: history → InStep config (run (trailStep config) (.start config) part)) ↔
      Along (trailStep config) (fun trail received =>
        RefusedKnown config trail received ∧ InstalledNamed config trail received)
        (.start config) history) ∧
    ((∀ received ∈ history, OwnType received.response) →
      ((∀ part, part <+: history → InStep config (run (trailStep config) (.start config) part)) ↔
        Along (trailStep config) (RefusedKnown config) (.start config) history)) ∧
    (∀ watch, ∃ handle, (run (trailStep config) (.start config) history).watches
        (watchText config watch) = some handle ∧
      handle.handler.held = (run (trailStep config) (.start config) history).accepted watch) := by
  have hall := @forall_prefix_iff _ _ (trailStep (ρ := ρ) config) _ (Registered config)
    (InStep config) (fun _ received inv => registered_step config inv received)
    (fun _ received inv before => inStep_step_iff config inv before received) _ history
    (registered_start config) (inStep_start config)
  refine ⟨hall, fun own => ?_, fun watch => ?_⟩
  · rw [hall]
    constructor
    · exact along_mono fun _ _ h => h.1
    · intro hknown
      have hown : Along (trailStep config) (fun _ received => OwnType received.response)
          (.start config) history := along_of_forall fun received hmem _ => own received hmem
      refine @along_of_invariant _ _ (trailStep config) _ _ (Registered config) ?_ ?_ _ _
        (registered_start config) (along_and hknown hown)
      · exact fun _ received inv _ => registered_step config inv received
      · exact fun _ _ inv h => ⟨h.1, installedNamed_of_ownType config inv h.2⟩
  · have hinv := run_preserves (Registered config)
      (fun _ received inv => registered_step config inv received) history
      (registered_start config)
    obtain ⟨handle, hhandle, -, hheld⟩ := hinv watch
    exact ⟨handle, hhandle, hheld⟩

/-! ## A descriptor of another protocol -/

def ordersConfig : ServiceIdentityDiscoveryConfig := ⟨"prod", "orders"⟩

def ordersDescriptor : ServiceIdentityDescriptor where
  subject := "orders"
  namespaceName := "prod"
  service := "orders"
  revision := "2"
  trustBundleVersion := "1"
  trustDomain := "pole"
  audience := "pole"
  credentialEndpoint := "/"
  identityProtocolVersion := 2
  credentialFormats := [.jwtEd25519]

def descriptorResponse (descriptor : ServiceIdentityDescriptor) : DiscoverResponse Unit where
  service := none
  instances := []
  customRouteRules := []
  circuitBreaker := []
  rateLimit := []
  faultDetectRules := []
  lanes := []
  losslessRules := []
  trafficSecurityRules := []
  trafficMirrorRules := []
  trafficMockRules := []
  code := .executeSuccess
  type := .serviceIdentity
  serviceIdentity := some descriptor
  serviceIdentityBundle := none

def unsupportedHistory : List (Received Unit) := [⟨0, descriptorResponse ordersDescriptor⟩]

/-- Nothing is installed, and the next request names the revision that was refused. -/
theorem refused_revision_requested :
    (∀ received ∈ unsupportedHistory, OwnType received.response) ∧
    (run (trailStep ordersConfig) (.start ordersConfig) unsupportedHistory).accepted .identity =
      "" ∧
    ((run (trailStep ordersConfig) (.start ordersConfig) unsupportedHistory).watches
      (watchText ordersConfig .identity)).map ResourceHandlerWrapper.revision = some "2" ∧
    ¬ InStep ordersConfig
      (run (trailStep ordersConfig) (.start ordersConfig) unsupportedHistory) := by
  have haccepted : (run (trailStep ordersConfig) (.start ordersConfig)
      unsupportedHistory).accepted .identity = "" := by decide
  have hrecorded : ((run (trailStep ordersConfig) (.start ordersConfig)
      unsupportedHistory).watches (watchText ordersConfig .identity)).map
        ResourceHandlerWrapper.revision = some "2" := by decide
  refine ⟨?_, haccepted, hrecorded, fun hstep => ?_⟩
  · intro received hmem
    rw [List.mem_singleton.mp hmem]
    exact .inl rfl
  · have hinv := registered_step ordersConfig (registered_start ordersConfig)
      (⟨0, descriptorResponse ordersDescriptor⟩ : Received Unit)
    rw [unsupportedHistory, run_cons, run_nil, inStep_iff ordersConfig hinv] at hstep
    obtain ⟨handle, hhandle, hrevision⟩ := Option.map_eq_some_iff.mp hrecorded
    have hsame := hstep .identity handle hhandle
    rw [hrevision] at hsame
    exact absurd (hsame.trans haccepted) (by decide)

end PoleClient.Identity
