import PoleClient.Cache.MemoryCache
import PoleClient.Lib.Run

/-! # Recovery from disk

A load that finds its entry uninitialized awaits a load from the failover and
sends what it gets down the event path of remote updates. The check, the end of
the disk load and the update are separate steps, and remote events are applied
between them. The last remote event of an entry is recorded beside the cache.
-/

namespace PoleClient.Cache

open Lib

variable {κ ρ : Type}

/-! ## Loads -/

/-- What a call of `load_service_rule` works with. -/
structure RuleLoad where
  filter : Filter
  type : GovernanceType
  searchKey : String
  typed : filter.getEventType = .governance type

variable (ρ) in
inductive LoadStage where
  | idle
  | waiting (load : RuleLoad)
  | recovering (load : RuleLoad)
  | recovered (load : RuleLoad) (response : DiscoverResponse ρ) (svc : SpecService)
      (served : response.service = some svc)
  | reading (load : RuleLoad)
  | finished (result : Except PoleError (ServiceRule (BoxedRule ρ)))
  | dropped

variable (κ ρ) in
/-- The cache with its loads; `latest` is the last remote event applied to an entry. -/
structure RecoveryState where
  handler : MemoryResourceHandler ρ
  failover : Bool
  stage : κ → LoadStage ρ
  latest : GovernanceType → String → Option (DiscoverResponse ρ × SpecService)

def RecoveryState.new (failover : Bool) : RecoveryState κ ρ where
  handler := .new
  failover := failover
  stage := fun _ => .idle
  latest := fun _ _ => none

def RuleLoad.event (load : RuleLoad) (response : DiscoverResponse ρ) : RemoteData ρ :=
  ⟨load.filter.resourceKey, some response, none⟩

/-- The rules that an event carries, with their kind and service. -/
def RemoteData.ruleUpdate (event : RemoteData ρ) :
    Option (GovernanceType × DiscoverResponse ρ × SpecService) :=
  match event.eventKey.eventType with
  | .governance type =>
      event.discoverValue.bind fun remoteVal =>
        remoteVal.service.map fun svc => (type, remoteVal, svc)
  | _ => none

namespace RecoveryState

def record (s : RecoveryState κ ρ) (event : RemoteData ρ) :
    GovernanceType → String → Option (DiscoverResponse ρ × SpecService) :=
  match RemoteData.ruleUpdate event with
  | none => s.latest
  | some (type, remoteVal, svc) =>
      if (s.handler.governance type (searchKey svc)).isSome then
        setRules s.latest type (searchKey svc) (remoteVal, svc)
      else s.latest

/-! ## Steps -/

variable (κ ρ) in
inductive Action where
  | remote (event : RemoteData ρ)
  | begin (caller : κ) (filter : Filter)
  | check (caller : κ)
  | diskLoaded (caller : κ) (result : Except PoleError (DiscoverResponse ρ))
  | applyRecovered (caller : κ)
  | read (caller : κ)
  | cancel (caller : κ)

variable [DecidableEq κ]

def setStage (s : RecoveryState κ ρ) (caller : κ) (stage : LoadStage ρ) : RecoveryState κ ρ :=
  { s with stage := Function.update s.stage caller stage }

/-- The start of `load_service_rule`; without a service in the filter it panics before it touches
the cache. -/
def beginLoad (s : RecoveryState κ ρ) (caller : κ) (filter : Filter) : RecoveryState κ ρ :=
  match h : filter.getEventType with
  | .governance type =>
      match filter.resourceKey.filter "service" with
      | none => s
      | some service =>
          { s.setStage caller (.waiting
              ⟨filter, type, serviceKey filter.resourceKey.namespaceName service, h⟩) with
            handler := ensureEntry s.handler filter.resourceKey }
  | _ => s.setStage caller (.finished (.error loadTimeout))

def entry (s : RecoveryState κ ρ) (load : RuleLoad) : Option (RulesCacheItem ρ) :=
  s.handler.governance load.type load.searchKey

/-- One step; an action that is not enabled changes nothing. -/
def step (s : RecoveryState κ ρ) : Action κ ρ → RecoveryState κ ρ
  | .remote event =>
      { s with
        handler := (onSpecEvent s.handler event).1
        latest := s.record event }
  | .begin caller filter =>
      match s.stage caller with
      | .idle => s.beginLoad caller filter
      | _ => s
  | .check caller =>
      match s.stage caller with
      | .waiting load =>
          if ((s.entry load).map RulesCacheItem.initialized).getD false then
            s.setStage caller (.reading load)
          else if load.filter.includeCache && s.failover then
            s.setStage caller (.recovering load)
          else s.setStage caller (.reading load)
      | _ => s
  | .diskLoaded caller result =>
      match s.stage caller with
      | .recovering load =>
          match result with
          | .error _ => s.setStage caller (.reading load)
          | .ok response =>
              match h : response.service with
              | none => s.setStage caller (.reading load)
              | some svc => s.setStage caller (.recovered load response svc h)
      | _ => s
  | .applyRecovered caller =>
      match s.stage caller with
      | .recovered load response _ _ =>
          { s.setStage caller (.reading load) with
            handler := (onSpecEvent s.handler (load.event response)).1 }
      | _ => s
  | .read caller =>
      match s.stage caller with
      | .reading load =>
          match s.entry load with
          | none => s
          | some item => s.setStage caller (.finished (item.read load.type))
      | _ => s
  | .cancel caller =>
      match s.stage caller with
      | .finished _ => s
      | _ => s.setStage caller .dropped

end RecoveryState

/-! ## What an event does to the rules -/

theorem applyEvent_governance_of_none {handler after : MemoryResourceHandler ρ}
    {event : RemoteData ρ} {value : CacheItemType ρ} (hnone : RemoteData.ruleUpdate event = none)
    (h : applyEvent handler event = .applied after value) :
    after.governance = handler.governance := by
  rcases applyEvent_cases h with ⟨-, heq⟩ | ⟨type, remoteVal, svc, htype, hvalue, hservice, -⟩ |
    ⟨-, heq⟩ | ⟨-, heq⟩ | rfl
  · rw [heq]
  · simp [RemoteData.ruleUpdate, htype, hvalue, hservice] at hnone
  · rw [heq]
  · rw [heq]
  · rfl

theorem onSpecEvent_governance_of_none (handler : MemoryResourceHandler ρ)
    {event : RemoteData ρ} (hnone : RemoteData.ruleUpdate event = none) :
    (onSpecEvent handler event).1.governance = handler.governance := by
  unfold onSpecEvent
  cases happly : applyEvent handler event with
  | panicked => rfl
  | notFound => rfl
  | applied after value => exact applyEvent_governance_of_none hnone happly

theorem ruleUpdate_eq_some {event : RemoteData ρ} {type : GovernanceType}
    {remoteVal : DiscoverResponse ρ} {svc : SpecService}
    (h : RemoteData.ruleUpdate event = some (type, remoteVal, svc)) :
    event.eventKey.eventType = .governance type ∧ event.discoverValue = some remoteVal ∧
      remoteVal.service = some svc := by
  unfold RemoteData.ruleUpdate at h
  split at h
  · rename_i other htype
    rcases Option.bind_eq_some_iff.mp h with ⟨value, hvalue, hservice⟩
    rcases Option.map_eq_some_iff.mp hservice with ⟨service, hservice, heq⟩
    cases heq
    exact ⟨htype, hvalue, hservice⟩
  · cases h

theorem onSpecEvent_governance (handler : MemoryResourceHandler ρ) {event : RemoteData ρ}
    {type : GovernanceType} {remoteVal : DiscoverResponse ρ} {svc : SpecService}
    (h : RemoteData.ruleUpdate event = some (type, remoteVal, svc)) :
    (onSpecEvent handler event).1.governance =
      if (handler.governance type (searchKey svc)).isSome then
        setRules handler.governance type (searchKey svc)
          ⟨true, svc.revision, remoteVal.rules type⟩
      else handler.governance := by
  rcases ruleUpdate_eq_some h with ⟨htype, hvalue, hservice⟩
  have hevent : applyEvent handler event = applyRules type handler remoteVal svc := by
    unfold applyEvent applyDiscover
    simp only [htype, hvalue, hservice]
  unfold onSpecEvent
  rw [hevent]
  unfold applyRules
  cases handler.governance type (searchKey svc) <;> rfl

theorem RuleLoad.ruleUpdate_event (load : RuleLoad) {response : DiscoverResponse ρ}
    {svc : SpecService} (served : response.service = some svc) :
    RemoteData.ruleUpdate (load.event response) = some (load.type, response, svc) := by
  have htype : load.filter.resourceKey.eventType = .governance load.type := load.typed
  unfold RemoteData.ruleUpdate RuleLoad.event
  simp only [htype, Option.bind_some, served, Option.map_some]

theorem ensureEntry_governance {handler : MemoryResourceHandler ρ} (resource : ResourceEventKey)
    {type : GovernanceType} {key : String} {item : RulesCacheItem ρ}
    (h : handler.governance type key = some item) :
    (ensureEntry handler resource).governance type key = some item := by
  unfold ensureEntry
  cases htype : resource.eventType with
  | governance other =>
      simp only
      cases resource.filter "service" with
      | none => exact h
      | some service =>
          simp only
          by_cases hsame : type = other ∧ key = serviceKey resource.namespaceName service
          · rw [hsame.1, hsame.2, setRules_self, ← hsame.1, ← hsame.2, h]
            rfl
          · rw [setRules_of_ne _ _ hsame, h]
  | «instance» =>
      simp only
      cases resource.filter "service" <;> exact h
  | configFile =>
      simp only
      cases resource.filter "group" <;> cases resource.filter "file" <;> exact h
  | configGroup =>
      simp only
      cases resource.filter "group" <;> exact h
  | service | unknown | serviceContract | serviceIdentity | serviceIdentityBundle | namespaces
  | configGroups => exact h

end PoleClient.Cache
