import Mathlib.Logic.Function.Basic
import PoleClient.Lib.EventLog
import PoleClient.Lib.Run
import PoleClient.RateLimit.QuotaManager

/-! # What the distributed quota manager sends

However the calls interleave, and wherever they are dropped, an endpoint has at
most one session that can be used, a window is readied on ever newer sessions,
and what a call reserves from are counters that the limiter handed out on the
same session for the windows of the specs of the call.
-/

namespace PoleClient.RateLimit

open Lib

variable {κ : Type}

/-! ## Events in view of the log -/

/-- The group reserves for the spec what a window was initialized with on the session. -/
structure Readied (log : List (QuotaEvent κ)) (req : QuotaRequest) (endpoint : String)
    (sessionId : Nat) (clientKey : UInt32) (spec : DistributedQuotaSpec)
    (group : LeaseCounterGroup) : Prop where
  window : ∃ address key, QuotaWindowKey.fromRule req spec endpoint = .ok key ∧
    .initialized address key ⟨sessionId, clientKey, group.counterKeys⟩ ∈ log
  resource : quotaResource spec.trigger.resource = some group.resource
  amount : group.amount = spec.amount
  accounting : group.accounting = quotaAccounting spec.trigger.resource

/-- The groups are those of the specs, and no counter is in two of them. -/
structure ReadiedGroups (log : List (QuotaEvent κ)) (req : QuotaRequest) (endpoint : String)
    (sessionId : Nat) (clientKey : UInt32) (specs : List DistributedQuotaSpec)
    (groups : List LeaseCounterGroup) : Prop where
  session : .connected sessionId endpoint ∈ log
  readied : List.Forall₂ (Readied log req endpoint sessionId clientKey) specs groups
  distinct : (leasedCounters groups).Nodup

/-- The window has been initialized on older sessions only. -/
def OlderSessions (log : List (QuotaEvent κ)) (address sessionId : Nat) : Prop :=
  ∀ key init, .initialized address key init ∈ log → init.sessionId < sessionId

/-- What the manager promises of an event, in view of the events before it. -/
def EventSound (calls : κ → ReserveCall) (before : List (QuotaEvent κ)) : QuotaEvent κ → Prop
  | .connected sessionId _ =>
      ∀ older endpoint, .connected older endpoint ∈ before → older < sessionId
  | .initSent call sessionId address request =>
      OlderSessions before address sessionId ∧
        ∃ key, ∃ spec ∈ (calls call).specs, .connected sessionId key.endpoint ∈ before ∧
          QuotaWindowKey.fromRule (calls call).req spec key.endpoint = .ok key ∧
          buildInitRequest (calls call).clientId key spec = .ok request
  | .initialized address _ init => OlderSessions before address init.sessionId
  | .reserveSent call sessionId request =>
      ∃ endpoint groups, ReadiedGroups before (calls call).req endpoint sessionId
          request.clientKey (calls call).specs groups ∧
        request = buildReserveRequest (calls call).req request.clientKey groups

/-! ## Locks -/

def SessionStage.locks : SessionStage → Bool
  | lookupAgain | connecting _ => true
  | lookup | connectLock => false

def WindowStage.locks : WindowStage → Bool
  | lookupAgain | requesting | awaiting | recording _ => true
  | lookup | initializeLock => false

def ReserveStage.connects : ReserveStage → Bool
  | session _ place => place.locks
  | _ => false

def ReserveStage.initializes : ReserveStage → Option Nat
  | window _ _ address place => if place.locks then some address else none
  | _ => none

structure LocksHeld (s : ManagerState κ) : Prop where
  connect : ∀ call, (s.stage call).connects = true ↔ s.connectLock = some call
  window : ∀ call address,
    (s.stage call).initializes = some address ↔ s.initializeLock address = some call

/-! ## What the calls share -/

structure SharedSound (calls : κ → ReserveCall) (d : QuotaShared κ) : Prop where
  sessionId : ∀ id endpoint, d.sessionEndpoint id = some endpoint → id < d.nextSessionId
  logged : ∀ id endpoint, d.sessionEndpoint id = some endpoint ↔ .connected id endpoint ∈ d.log
  mapped : ∀ id endpoint, d.sessionEndpoint id = some endpoint → d.isUsable id = true →
    d.sessions endpoint = some id
  owner : ∀ id endpoint, d.sessions endpoint = some id → d.sessionEndpoint id = some endpoint
  newest : ∀ id endpoint, d.sessions endpoint = some id →
    ∀ other, d.sessionEndpoint other = some endpoint → other ≤ id
  address : ∀ address key, d.windowKey address = some key → address < d.nextAddress
  windows : ∀ key address, d.windows key = some address → d.windowKey address = some key
  initialized : ∀ address init, d.initializedAs address = some init →
    ∃ key, d.windowKey address = some key ∧ .initialized address key init ∈ d.log ∧
      .connected init.sessionId key.endpoint ∈ d.log
  latest : ∀ address key init, .initialized address key init ∈ d.log →
    ∃ last, d.initializedAs address = some last ∧ init.sessionId ≤ last.sessionId
  events : EachEvent (EventSound calls) d.log

/-! ## What a call holds -/

/-- The variables of `reserve_many`, with the specs of the round that is under way. -/
structure Work.Sound (log : List (QuotaEvent κ)) (args : ReserveCall) (work : Work)
    (pending : List DistributedQuotaSpec) : Prop where
  session : .connected work.sessionId work.endpoint ∈ log
  readied : ∃ done, args.specs = done ++ pending ++ work.specs ∧
    List.Forall₂ (fun spec group => ∃ clientKey, work.clientKey = some clientKey ∧
      Readied log args.req work.endpoint work.sessionId clientKey spec group) done work.groups
  distinct : (leasedCounters work.groups).Nodup
  counterKeys : ∀ key, key ∈ work.counterKeys ↔ key ∈ leasedCounters work.groups

/-- What a call in `ensure_window` knows of the window. -/
def WindowStage.Sound (d : QuotaShared κ) (work : Work) (address : Nat) : WindowStage → Prop
  | requesting => ∀ init, d.initializedAs address = some init → init.sessionId ≠ work.sessionId
  | awaiting => OlderSessions d.log address work.sessionId
  | recording init => OlderSessions d.log address work.sessionId ∧
      init.sessionId = work.sessionId
  | lookup | initializeLock | lookupAgain => True

def StageSound (calls : κ → ReserveCall) (d : QuotaShared κ) (call : κ) : ReserveStage → Prop
  | .session endpoint (.connecting id) =>
      id < d.nextSessionId ∧ (∀ older any, d.sessionEndpoint older = some any → older < id) ∧
        ∀ older, d.sessionEndpoint older = some endpoint → d.isUsable older = false
  | .nextSpec work => work.Sound d.log (calls call) []
  | .entering work spec key =>
      work.Sound d.log (calls call) [spec] ∧
        QuotaWindowKey.fromRule (calls call).req spec work.endpoint = .ok key
  | .window work spec address place =>
      work.Sound d.log (calls call) [spec] ∧
        (∃ key, d.windowKey address = some key ∧
          QuotaWindowKey.fromRule (calls call).req spec work.endpoint = .ok key) ∧
        place.Sound d work address
  | .awaiting work clientKey =>
      ReadiedGroups d.log (calls call).req work.endpoint work.sessionId clientKey
        (calls call).specs work.groups
  | .returned (.ok (.reserved sessionId lease)) =>
      ∃ endpoint, ReadiedGroups d.log (calls call).req endpoint sessionId lease.clientKey
        (calls call).specs lease.groups
  | _ => True

structure ManagerSound (calls : κ → ReserveCall) (s : ManagerState κ) : Prop where
  locks : LocksHeld s
  shared : SharedSound calls s.toQuotaShared
  stages : ∀ call, StageSound calls s.toQuotaShared call (s.stage call)

/-! ## Keys and growing logs -/

theorem endpoint_fromRule {req : QuotaRequest} {spec : DistributedQuotaSpec} {endpoint : String}
    {key : QuotaWindowKey} (h : QuotaWindowKey.fromRule req spec endpoint = .ok key) :
    key.endpoint = endpoint := by
  unfold QuotaWindowKey.fromRule at h
  split at h
  · cases h
  · split at h
    · cases h
    · rw [← Except.ok.inj h]

section Growing

variable {log more : List (QuotaEvent κ)} {req : QuotaRequest} {endpoint : String}
  {sessionId : Nat} {clientKey : UInt32} {specs : List DistributedQuotaSpec}
  {groups : List LeaseCounterGroup} {args : ReserveCall} {work : Work}

theorem Readied.grow {spec : DistributedQuotaSpec} {group : LeaseCounterGroup} (sub : log ⊆ more)
    (h : Readied log req endpoint sessionId clientKey spec group) :
    Readied more req endpoint sessionId clientKey spec group := by
  obtain ⟨address, key, hkey, hevent⟩ := h.window
  exact ⟨⟨address, key, hkey, sub hevent⟩, h.resource, h.amount, h.accounting⟩

theorem ReadiedGroups.grow (sub : log ⊆ more)
    (h : ReadiedGroups log req endpoint sessionId clientKey specs groups) :
    ReadiedGroups more req endpoint sessionId clientKey specs groups where
  session := sub h.session
  readied := h.readied.imp fun _ _ hspec => hspec.grow sub
  distinct := h.distinct

theorem Work.Sound.grow {pending : List DistributedQuotaSpec} (sub : log ⊆ more)
    (h : work.Sound log args pending) : work.Sound more args pending := by
  obtain ⟨done, hspecs, hdone⟩ := h.readied
  refine ⟨sub h.session, ⟨done, hspecs, hdone.imp ?_⟩, h.distinct, h.counterKeys⟩
  rintro spec group ⟨clientKey, hkey, hspec⟩
  exact ⟨clientKey, hkey, hspec.grow sub⟩

/-- With no spec left, the groups are those of all specs. -/
theorem Work.Sound.finished (h : work.Sound log args []) (hspecs : work.specs = [])
    (hkey : work.clientKey = some clientKey) :
    ReadiedGroups log args.req work.endpoint work.sessionId clientKey args.specs work.groups := by
  obtain ⟨done, hall, hdone⟩ := h.readied
  rw [hspecs, List.append_nil, List.append_nil] at hall
  refine ⟨h.session, ?_, h.distinct⟩
  rw [hall]
  apply hdone.imp
  rintro spec group ⟨other, hother, hspec⟩
  rw [hkey] at hother
  rwa [Option.some.inj hother]

/-- One round of `reserve_many` that goes on. -/
theorem Work.Sound.absorb {spec : DistributedQuotaSpec} {init : InitializedWindow} {after : Work}
    {address : Nat} {key : QuotaWindowKey} (h : work.Sound log args [spec])
    (hkey : QuotaWindowKey.fromRule args.req spec work.endpoint = .ok key)
    (hevent : .initialized address key init ∈ log) (hsession : init.sessionId = work.sessionId)
    (habsorb : work.absorb spec init = .ok after) : after.Sound log args [] := by
  unfold Work.absorb at habsorb
  by_cases hclient : work.clientKey.any (· ≠ init.clientKey) = true
  · rw [if_pos hclient] at habsorb
    cases habsorb
  rw [if_neg hclient] at habsorb
  cases hinsert : insertCounters work.counterKeys init.counters with
  | none =>
      simp only [hinsert] at habsorb
      cases habsorb
  | some counterKeys =>
      cases hresource : quotaResource spec.trigger.resource with
      | none =>
          simp only [hinsert, hresource] at habsorb
          cases habsorb
      | some resource =>
          simp only [hinsert, hresource, Except.ok.injEq] at habsorb
          subst habsorb
          obtain ⟨hnodup, hfresh, hafter⟩ := insertCounters_spec hinsert
          obtain ⟨done, hall, hdone⟩ := h.readied
          have hcounters : leasedCounters (work.groups ++ [⟨resource, spec.amount,
              quotaAccounting spec.trigger.resource, init.counters⟩]) =
              leasedCounters work.groups ++ init.counters := by
            simp [leasedCounters]
          refine ⟨h.session, ⟨done ++ [spec], ?_, ?_⟩, ?_, ?_⟩
          · rw [hall]
            simp
          · apply List.rel_append
            · apply hdone.imp
              rintro other group ⟨clientKey, hother, hspec⟩
              have hsame : clientKey = init.clientKey := by
                rw [hother] at hclient
                simpa using hclient
              exact ⟨init.clientKey, rfl, hsame ▸ hspec⟩
            · refine .cons ⟨init.clientKey, rfl, ⟨address, key, hkey, ?_⟩, hresource, rfl, rfl⟩ .nil
              rwa [← hsession]
          · rw [hcounters]
            apply h.distinct.append hnodup
            intro counter hold hnew
            exact hfresh counter hnew ((h.counterKeys counter).mpr hold)
          · intro counter
            rw [hcounters, hafter, List.mem_append, h.counterKeys]
            exact or_comm

end Growing

/-! ## Steps of other calls -/

/-- What a call at the stage has seen of the shared state still holds of it. -/
structure Undisturbed (d after : QuotaShared κ) (stage : ReserveStage) : Prop where
  log : d.log ⊆ after.log
  key : ∀ address key, d.windowKey address = some key → after.windowKey address = some key
  nextSessionId : d.nextSessionId ≤ after.nextSessionId
  sessions : stage.connects = true → ∀ id endpoint, after.sessionEndpoint id = some endpoint →
    d.sessionEndpoint id = some endpoint
  usable : stage.connects = true → ∀ id, after.isUsable id = true → d.isUsable id = true
  window : ∀ address, stage.initializes = some address →
    after.initializedAs address = d.initializedAs address ∧
      ∀ key init, .initialized address key init ∈ after.log →
        .initialized address key init ∈ d.log

theorem Undisturbed.refl (d : QuotaShared κ) (stage : ReserveStage) : Undisturbed d d stage where
  log := List.Subset.refl _
  key := fun _ _ h => h
  nextSessionId := Nat.le_refl _
  sessions := fun _ _ _ h => h
  usable := fun _ _ h => h
  window := fun _ _ => ⟨rfl, fun _ _ h => h⟩

theorem StageSound.undisturbed {calls : κ → ReserveCall} {d after : QuotaShared κ} {call : κ}
    {stage : ReserveStage} (kept : Undisturbed d after stage) (h : StageSound calls d call stage) :
    StageSound calls after call stage := by
  cases stage with
  | idle => trivial
  | session endpoint place =>
      cases place with
      | connecting id =>
          obtain ⟨hid, hfresh, hunusable⟩ := h
          refine ⟨Nat.lt_of_lt_of_le hid kept.nextSessionId, ?_, ?_⟩
          · exact fun older any hany => hfresh older any (kept.sessions rfl older any hany)
          · intro older holder
            have hbefore := hunusable older (kept.sessions rfl older endpoint holder)
            by_contra husable
            rw [Bool.not_eq_false] at husable
            rw [kept.usable rfl older husable] at hbefore
            cases hbefore
      | lookup => trivial
      | connectLock => trivial
      | lookupAgain => trivial
  | nextSpec work => exact Work.Sound.grow kept.log h
  | entering work spec key => exact ⟨h.1.grow kept.log, h.2⟩
  | window work spec address place =>
      obtain ⟨hwork, ⟨key, haddress, hkey⟩, hplace⟩ := h
      refine ⟨hwork.grow kept.log, ⟨key, kept.key address key haddress, hkey⟩, ?_⟩
      have holder : place.locks = true →
          OlderSessions d.log address work.sessionId → OlderSessions after.log address
            work.sessionId := by
        intro hlocks hbefore other init hevent
        have hwindow := kept.window address (by rw [ReserveStage.initializes, if_pos hlocks])
        exact hbefore other init (hwindow.2 other init hevent)
      cases place with
      | lookup => trivial
      | initializeLock => trivial
      | lookupAgain => trivial
      | requesting =>
          intro init hinit
          rw [(kept.window address rfl).1] at hinit
          exact hplace init hinit
      | awaiting => exact holder rfl hplace
      | recording init => exact ⟨holder rfl hplace.1, hplace.2⟩
  | awaiting work clientKey => exact ReadiedGroups.grow kept.log h
  | returned result =>
      cases result with
      | error err => trivial
      | ok outcome =>
          cases outcome with
          | rejected message => trivial
          | reserved sessionId lease =>
              obtain ⟨endpoint, hgroups⟩ := h
              exact ⟨endpoint, hgroups.grow kept.log⟩
  | dropped => trivial

/-! ## Changes of the shared state -/

section Changes

variable {calls : κ → ReserveCall} {d : QuotaShared κ} {stage : ReserveStage}

theorem sharedSound_initial :
    SharedSound calls (ManagerState.initial : ManagerState κ).toQuotaShared := by
  constructor <;>
    simp [ManagerState.initial, QuotaShared.sessionEndpoint, QuotaShared.windowKey,
      QuotaShared.initializedAs, eachEvent_nil]

/-! ### Sessions -/

theorem sessionEndpoint_openSession (endpoint : String) (id other : Nat) :
    (d.openSession endpoint id).sessionEndpoint other =
      if other = id then some endpoint else d.sessionEndpoint other := by
  unfold QuotaShared.sessionEndpoint QuotaShared.openSession
  by_cases h : other = id
  · simp [h]
  · simp [h]

theorem isUsable_openSession (endpoint : String) (id other : Nat) :
    (d.openSession endpoint id).isUsable other = if other = id then true else d.isUsable other := by
  unfold QuotaShared.isUsable QuotaShared.openSession
  by_cases h : other = id
  · simp [h]
  · simp [h]

theorem opened_failSession (id other : Nat) :
    (d.failSession id).opened other = (d.opened other).map fun session =>
      if other = id then { session with usable := false } else session := rfl

@[simp] theorem sessionEndpoint_failSession (id other : Nat) :
    (d.failSession id).sessionEndpoint other = d.sessionEndpoint other := by
  unfold QuotaShared.sessionEndpoint
  rw [opened_failSession, Option.map_map]
  congr 1
  funext session
  simp only [Function.comp_apply]
  split <;> rfl

theorem usable_of_failSession {id other : Nat} (h : (d.failSession id).isUsable other = true) :
    d.isUsable other = true := by
  unfold QuotaShared.isUsable at *
  rw [opened_failSession] at h
  cases hopened : d.opened other with
  | none => simp [hopened] at h
  | some session =>
      by_cases hid : other = id
      · rw [hopened, Option.map_some, Option.map_some, if_pos hid] at h
        cases h
      · simpa [hopened, hid] using h

theorem sharedSound_failSession (sound : SharedSound calls d) (id : Nat) :
    SharedSound calls (d.failSession id) where
  sessionId := fun other endpoint h => sound.sessionId other endpoint (by simpa using h)
  logged := fun other endpoint => by
    rw [sessionEndpoint_failSession]
    exact sound.logged other endpoint
  mapped := fun other endpoint h husable =>
    sound.mapped other endpoint (by simpa using h) (usable_of_failSession husable)
  owner := fun other endpoint h => by
    rw [sessionEndpoint_failSession]
    exact sound.owner other endpoint h
  newest := fun other endpoint h older holder =>
    sound.newest other endpoint h older (by simpa using holder)
  address := sound.address
  windows := sound.windows
  initialized := sound.initialized
  latest := sound.latest
  events := sound.events

theorem undisturbed_failSession (id : Nat) : Undisturbed d (d.failSession id) stage where
  log := List.Subset.refl _
  key := fun _ _ h => h
  nextSessionId := Nat.le_refl _
  sessions := fun _ other endpoint h => by simpa using h
  usable := fun _ _ h => usable_of_failSession h
  window := fun _ _ => ⟨rfl, fun _ _ h => h⟩

theorem unusable_of_usableSession {endpoint : String} (sound : SharedSound calls d)
    (h : d.usableSession endpoint = none) {id : Nat} (hid : d.sessionEndpoint id = some endpoint) :
    d.isUsable id = false := by
  by_contra husable
  rw [Bool.not_eq_false] at husable
  rw [QuotaShared.usableSession, sound.mapped id endpoint hid husable] at h
  simp [Option.filter, husable] at h

theorem forgetSession_sessions (endpoint : String) :
    (d.forgetSession endpoint).sessions = Function.update d.sessions endpoint none := rfl

theorem sessions_of_forgetSession {endpoint any : String} {id : Nat}
    (h : (d.forgetSession endpoint).sessions any = some id) : d.sessions any = some id := by
  rw [forgetSession_sessions] at h
  by_cases hany : any = endpoint
  · rw [hany, Function.update_self] at h
    cases h
  · rwa [Function.update_of_ne hany] at h

theorem openSession_sessions (endpoint : String) (id : Nat) :
    (d.openSession endpoint id).sessions = Function.update d.sessions endpoint (some id) := rfl

theorem sharedSound_forgetSession (sound : SharedSound calls d) {endpoint : String}
    (h : d.usableSession endpoint = none) : SharedSound calls (d.forgetSession endpoint) where
  sessionId := fun id any hid => Nat.lt_succ_of_lt (sound.sessionId id any hid)
  logged := sound.logged
  mapped := by
    intro id any hid husable
    have hany : any ≠ endpoint := by
      rintro rfl
      have hnot : (d.forgetSession any).isUsable id = false :=
        unusable_of_usableSession sound h hid
      rw [hnot] at husable
      cases husable
    rw [forgetSession_sessions, Function.update_of_ne hany]
    exact sound.mapped id any hid husable
  owner := fun id any hid => sound.owner id any (sessions_of_forgetSession hid)
  newest := fun id any hid => sound.newest id any (sessions_of_forgetSession hid)
  address := sound.address
  windows := sound.windows
  initialized := sound.initialized
  latest := sound.latest
  events := sound.events

theorem undisturbed_forgetSession (endpoint : String) :
    Undisturbed d (d.forgetSession endpoint) stage where
  log := List.Subset.refl _
  key := fun _ _ h => h
  nextSessionId := Nat.le_succ _
  sessions := fun _ _ _ h => h
  usable := fun _ _ h => h
  window := fun _ _ => ⟨rfl, fun _ _ h => h⟩

theorem mem_openSession_log {endpoint : String} {id : Nat} {event : QuotaEvent κ} :
    event ∈ (d.openSession endpoint id).log ↔ event ∈ d.log ∨ event = .connected id endpoint := by
  simp [QuotaShared.openSession]

/-- The caller holds the connect lock and has an identifier that no session has. -/
theorem sharedSound_openSession (sound : SharedSound calls d) {endpoint : String} {id : Nat}
    (hid : id < d.nextSessionId)
    (hfresh : ∀ older any, d.sessionEndpoint older = some any → older < id)
    (hunusable : ∀ older, d.sessionEndpoint older = some endpoint → d.isUsable older = false) :
    SharedSound calls (d.openSession endpoint id) where
  sessionId := by
    intro other any h
    rw [sessionEndpoint_openSession] at h
    by_cases hsame : other = id
    · rwa [hsame]
    · rw [if_neg hsame] at h
      exact sound.sessionId other any h
  logged := by
    intro other any
    rw [sessionEndpoint_openSession, mem_openSession_log, ← sound.logged,
      QuotaEvent.connected.injEq]
    by_cases hsame : other = id
    · have hnone : d.sessionEndpoint other ≠ some any := fun h =>
        absurd (hfresh other any h) (by omega)
      rw [if_pos hsame, Option.some.injEq]
      exact ⟨fun h => .inr ⟨hsame, h.symm⟩, fun h => (h.resolve_left hnone).2.symm⟩
    · rw [if_neg hsame]
      exact ⟨.inl, fun h => h.resolve_right fun hnew => hsame hnew.1⟩
  mapped := by
    intro other any h husable
    rw [sessionEndpoint_openSession] at h
    rw [isUsable_openSession] at husable
    by_cases hsame : other = id
    · rw [if_pos hsame, Option.some.injEq] at h
      rw [openSession_sessions, ← h, Function.update_self, hsame]
    · rw [if_neg hsame] at h husable
      have hany : any ≠ endpoint := by
        rintro rfl
        rw [hunusable other h] at husable
        cases husable
      rw [openSession_sessions, Function.update_of_ne hany]
      exact sound.mapped other any h husable
  owner := by
    intro last any h
    rw [sessionEndpoint_openSession]
    by_cases hany : any = endpoint
    · rw [openSession_sessions, hany, Function.update_self, Option.some.injEq] at h
      rw [if_pos h.symm, hany]
    · rw [openSession_sessions, Function.update_of_ne hany] at h
      have holder := sound.owner last any h
      rwa [if_neg (Nat.ne_of_lt (hfresh last any holder))]
  newest := by
    intro last any h other hother
    rw [sessionEndpoint_openSession] at hother
    by_cases hany : any = endpoint
    · rw [openSession_sessions, hany, Function.update_self, Option.some.injEq] at h
      by_cases hsame : other = id
      · omega
      · rw [if_neg hsame] at hother
        have := hfresh other any hother
        omega
    · rw [openSession_sessions, Function.update_of_ne hany] at h
      by_cases hsame : other = id
      · rw [if_pos hsame, Option.some.injEq] at hother
        exact absurd hother.symm hany
      · rw [if_neg hsame] at hother
        exact sound.newest last any h other hother
  address := sound.address
  windows := sound.windows
  initialized := by
    intro address init h
    obtain ⟨key, hkey, hevent, hconnected⟩ := sound.initialized address init h
    exact ⟨key, hkey, mem_openSession_log.mpr (.inl hevent),
      mem_openSession_log.mpr (.inl hconnected)⟩
  latest := by
    intro address key init h
    rcases mem_openSession_log.mp h with hold | hnew
    · exact sound.latest address key init hold
    · cases hnew
  events := by
    apply eachEvent_append sound.events
    intro older any hevent
    exact hfresh older any ((sound.logged older any).mpr hevent)

theorem undisturbed_openSession (endpoint : String) (id : Nat) (h : stage.connects = false) :
    Undisturbed d (d.openSession endpoint id) stage where
  log := fun _ hevent => mem_openSession_log.mpr (.inl hevent)
  key := fun _ _ h => h
  nextSessionId := Nat.le_refl _
  sessions := fun hconnects => by
    rw [h] at hconnects
    cases hconnects
  usable := fun hconnects => by
    rw [h] at hconnects
    cases hconnects
  window := by
    intro address _
    refine ⟨rfl, fun key init hevent => ?_⟩
    rcases mem_openSession_log.mp hevent with hold | hnew
    · exact hold
    · cases hnew

/-! ### Windows -/

theorem removeStaleWindows_windows (current key : QuotaWindowKey) :
    (d.removeStaleWindows current).windows key =
      if key.staleFor current then none else d.windows key := rfl

theorem sharedSound_removeStaleWindows (sound : SharedSound calls d) (current : QuotaWindowKey) :
    SharedSound calls (d.removeStaleWindows current) where
  sessionId := sound.sessionId
  logged := sound.logged
  mapped := sound.mapped
  owner := sound.owner
  newest := sound.newest
  address := sound.address
  windows := by
    intro key address h
    rw [removeStaleWindows_windows] at h
    by_cases hstale : key.staleFor current = true
    · rw [if_pos hstale] at h
      cases h
    · rw [if_neg hstale] at h
      exact sound.windows key address h
  initialized := sound.initialized
  latest := sound.latest
  events := sound.events

theorem undisturbed_removeStaleWindows (current : QuotaWindowKey) :
    Undisturbed d (d.removeStaleWindows current) stage where
  log := List.Subset.refl _
  key := fun _ _ h => h
  nextSessionId := Nat.le_refl _
  sessions := fun _ _ _ h => h
  usable := fun _ _ h => h
  window := fun _ _ => ⟨rfl, fun _ _ h => h⟩

theorem windowKey_addWindow (key : QuotaWindowKey) (address : Nat) :
    (d.addWindow key).windowKey address =
      if address = d.nextAddress then some key else d.windowKey address := by
  unfold QuotaShared.windowKey QuotaShared.addWindow
  by_cases h : address = d.nextAddress
  · simp [h]
  · simp [h]

theorem initializedAs_addWindow (key : QuotaWindowKey) (address : Nat) :
    (d.addWindow key).initializedAs address =
      if address = d.nextAddress then none else d.initializedAs address := by
  unfold QuotaShared.initializedAs QuotaShared.addWindow
  by_cases h : address = d.nextAddress
  · simp [h]
  · simp [h]

theorem addWindow_windows (key : QuotaWindowKey) :
    (d.addWindow key).windows = Function.update d.windows key (some d.nextAddress) := rfl

theorem windowKey_of_initializedAs {address : Nat} {init : InitializedWindow}
    (h : d.initializedAs address = some init) : ∃ key, d.windowKey address = some key := by
  obtain ⟨window, hwindow, -⟩ := Option.bind_eq_some_iff.mp h
  exact ⟨window.key, by rw [QuotaShared.windowKey, hwindow, Option.map_some]⟩

theorem ne_nextAddress (sound : SharedSound calls d) {address : Nat} {key : QuotaWindowKey}
    (h : d.windowKey address = some key) : address ≠ d.nextAddress :=
  Nat.ne_of_lt (sound.address address key h)

theorem initializedAs_addWindow_eq (sound : SharedSound calls d) (key : QuotaWindowKey)
    (address : Nat) : (d.addWindow key).initializedAs address = d.initializedAs address := by
  rw [initializedAs_addWindow]
  by_cases hnew : address = d.nextAddress
  · rw [if_pos hnew]
    cases hinit : d.initializedAs address with
    | none => rfl
    | some init =>
        obtain ⟨old, hold⟩ := windowKey_of_initializedAs hinit
        exact absurd hnew (ne_nextAddress sound hold)
  · rw [if_neg hnew]

theorem windowKey_addWindow_of_some (sound : SharedSound calls d) (added : QuotaWindowKey)
    {address : Nat} {key : QuotaWindowKey} (h : d.windowKey address = some key) :
    (d.addWindow added).windowKey address = some key := by
  rwa [windowKey_addWindow, if_neg (ne_nextAddress sound h)]

theorem sharedSound_addWindow (sound : SharedSound calls d) (key : QuotaWindowKey) :
    SharedSound calls (d.addWindow key) where
  sessionId := sound.sessionId
  logged := sound.logged
  mapped := sound.mapped
  owner := sound.owner
  newest := sound.newest
  address := by
    intro address other h
    rw [windowKey_addWindow] at h
    by_cases hnew : address = d.nextAddress
    · rw [hnew]
      exact Nat.lt_succ_self _
    · rw [if_neg hnew] at h
      exact Nat.lt_succ_of_lt (sound.address address other h)
  windows := by
    intro other address h
    rw [addWindow_windows] at h
    by_cases hkey : other = key
    · rw [hkey, Function.update_self, Option.some.injEq] at h
      rw [windowKey_addWindow, if_pos h.symm, hkey]
    · rw [Function.update_of_ne hkey] at h
      exact windowKey_addWindow_of_some sound key (sound.windows other address h)
  initialized := by
    intro address init h
    rw [initializedAs_addWindow_eq sound] at h
    obtain ⟨old, hold, hevents⟩ := sound.initialized address init h
    exact ⟨old, windowKey_addWindow_of_some sound key hold, hevents⟩
  latest := by
    intro address other init h
    rw [initializedAs_addWindow_eq sound]
    exact sound.latest address other init h
  events := sound.events

theorem undisturbed_addWindow (sound : SharedSound calls d) (key : QuotaWindowKey) :
    Undisturbed d (d.addWindow key) stage where
  log := List.Subset.refl _
  key := fun _ _ h => windowKey_addWindow_of_some sound key h
  nextSessionId := Nat.le_refl _
  sessions := fun _ _ _ h => h
  usable := fun _ _ h => h
  window := fun address _ => ⟨initializedAs_addWindow_eq sound key address, fun _ _ h => h⟩

theorem windowKey_setInitialized {address : Nat} {window : DistributedWindow}
    (hwindow : d.heap address = some window) (init : InitializedWindow) (other : Nat) :
    (d.setInitialized address window init).windowKey other = d.windowKey other := by
  unfold QuotaShared.windowKey QuotaShared.setInitialized
  by_cases h : other = address
  · simp [h, hwindow]
  · simp [h]

theorem initializedAs_setInitialized (address : Nat) (window : DistributedWindow)
    (init : InitializedWindow) (other : Nat) :
    (d.setInitialized address window init).initializedAs other =
      if other = address then some init else d.initializedAs other := by
  unfold QuotaShared.initializedAs QuotaShared.setInitialized
  by_cases h : other = address
  · simp [h]
  · simp [h]

theorem mem_setInitialized_log {address : Nat} {window : DistributedWindow}
    {init : InitializedWindow} {event : QuotaEvent κ} :
    event ∈ (d.setInitialized address window init).log ↔
      event ∈ d.log ∨ event = .initialized address window.key init := by
  simp [QuotaShared.setInitialized]

/-- The caller holds the lock of the window, and has seen it initialized on older sessions only. -/
theorem sharedSound_setInitialized (sound : SharedSound calls d) {address : Nat}
    {window : DistributedWindow} {init : InitializedWindow}
    (hwindow : d.heap address = some window) (holder : OlderSessions d.log address init.sessionId)
    (hconnected : .connected init.sessionId window.key.endpoint ∈ d.log) :
    SharedSound calls (d.setInitialized address window init) where
  sessionId := sound.sessionId
  logged := by
    intro id endpoint
    rw [mem_setInitialized_log]
    constructor
    · exact fun h => .inl ((sound.logged id endpoint).mp h)
    · rintro (h | h)
      · exact (sound.logged id endpoint).mpr h
      · cases h
  mapped := sound.mapped
  owner := sound.owner
  newest := sound.newest
  address := by
    intro other key h
    rw [windowKey_setInitialized hwindow] at h
    exact sound.address other key h
  windows := by
    intro key other h
    rw [windowKey_setInitialized hwindow]
    exact sound.windows key other h
  initialized := by
    intro other last h
    rw [initializedAs_setInitialized] at h
    by_cases hsame : other = address
    · rw [if_pos hsame, Option.some.injEq] at h
      refine ⟨window.key, ?_, ?_, ?_⟩
      · rw [windowKey_setInitialized hwindow, hsame, QuotaShared.windowKey, hwindow,
          Option.map_some]
      · rw [mem_setInitialized_log, hsame, h]
        exact .inr rfl
      · rw [mem_setInitialized_log, ← h]
        exact .inl hconnected
    · rw [if_neg hsame] at h
      obtain ⟨key, hkey, hevent, hsession⟩ := sound.initialized other last h
      refine ⟨key, ?_, mem_setInitialized_log.mpr (.inl hevent),
        mem_setInitialized_log.mpr (.inl hsession)⟩
      rwa [windowKey_setInitialized hwindow]
  latest := by
    intro other key earlier h
    rw [initializedAs_setInitialized]
    rcases mem_setInitialized_log.mp h with hold | hnew
    · by_cases hsame : other = address
      · rw [if_pos hsame]
        exact ⟨init, rfl, Nat.le_of_lt (holder key earlier (hsame ▸ hold))⟩
      · rw [if_neg hsame]
        exact sound.latest other key earlier hold
    · rw [QuotaEvent.initialized.injEq] at hnew
      obtain ⟨hother, -, hinit⟩ := hnew
      rw [if_pos hother, hinit]
      exact ⟨init, rfl, Nat.le_refl _⟩
  events := eachEvent_append sound.events holder

theorem undisturbed_setInitialized {address : Nat} {window : DistributedWindow}
    {init : InitializedWindow} (hwindow : d.heap address = some window)
    (hstage : stage.initializes ≠ some address) :
    Undisturbed d (d.setInitialized address window init) stage where
  log := fun _ h => mem_setInitialized_log.mpr (.inl h)
  key := fun other key h => by rwa [windowKey_setInitialized hwindow]
  nextSessionId := Nat.le_refl _
  sessions := fun _ _ _ h => h
  usable := fun _ _ h => h
  window := by
    intro other hother
    have hne : other ≠ address := by
      rintro rfl
      exact hstage hother
    refine ⟨by rw [initializedAs_setInitialized, if_neg hne], fun key last h => ?_⟩
    rcases mem_setInitialized_log.mp h with hold | hnew
    · exact hold
    · cases hnew
      exact absurd rfl hne

/-! ### Requests -/

def QuotaEvent.isRequest : QuotaEvent κ → Bool
  | initSent .. | reserveSent .. => true
  | connected .. | initialized .. => false

theorem mem_record {event other : QuotaEvent κ} :
    other ∈ (d.record event).log ↔ other ∈ d.log ∨ other = event := by
  simp [QuotaShared.record]

theorem sharedSound_record (sound : SharedSound calls d) {event : QuotaEvent κ}
    (hrequest : event.isRequest = true) (hevent : EventSound calls d.log event) :
    SharedSound calls (d.record event) where
  sessionId := sound.sessionId
  logged := by
    intro id endpoint
    rw [mem_record]
    constructor
    · exact fun h => .inl ((sound.logged id endpoint).mp h)
    · rintro (h | rfl)
      · exact (sound.logged id endpoint).mpr h
      · cases hrequest
  mapped := sound.mapped
  owner := sound.owner
  newest := sound.newest
  address := sound.address
  windows := sound.windows
  initialized := by
    intro address init h
    obtain ⟨key, hkey, hold, hconnected⟩ := sound.initialized address init h
    exact ⟨key, hkey, mem_record.mpr (.inl hold), mem_record.mpr (.inl hconnected)⟩
  latest := by
    intro address key init h
    rcases mem_record.mp h with hold | rfl
    · exact sound.latest address key init hold
    · cases hrequest
  events := eachEvent_append sound.events hevent

theorem undisturbed_record {event : QuotaEvent κ} (hrequest : event.isRequest = true) :
    Undisturbed d (d.record event) stage where
  log := fun _ h => mem_record.mpr (.inl h)
  key := fun _ _ h => h
  nextSessionId := Nat.le_refl _
  sessions := fun _ _ _ h => h
  usable := fun _ _ h => h
  window := by
    intro address _
    refine ⟨rfl, fun key init h => ?_⟩
    rcases mem_record.mp h with hold | rfl
    · exact hold
    · cases hrequest

end Changes

end PoleClient.RateLimit
