import PoleClient.Cache.Recovery

/-! # Remote updates and recovered content

An entry is fresh while its rules and revision are those of its last remote
event. Only recovered content can end that, and it gets to an entry with a
remote event only if that event came between the check of a load and the update
with what the load recovered.
-/

namespace PoleClient.Cache

open Lib

namespace RecoveryState

variable {κ ρ : Type}

/-! ## Freshness -/

def Current (type : GovernanceType) (update : DiscoverResponse ρ × SpecService)
    (item : RulesCacheItem ρ) : Prop :=
  item.value = update.1.rules type ∧ item.revision = update.2.revision

/-- Every entry with a remote event has the content of the last one. -/
def Fresh (s : RecoveryState κ ρ) : Prop :=
  ∀ type key update, s.latest type key = some update →
    ∃ item, s.handler.governance type key = some item ∧ Current type update item

/-- Recovered content is about to replace other content of a remote event. -/
def Overwrites (s : RecoveryState κ ρ) : Action κ ρ → Prop
  | .applyRecovered caller =>
      match s.stage caller with
      | .recovered load response svc _ =>
          ∃ update, s.latest load.type (searchKey svc) = some update ∧
            ¬ Current load.type update ⟨true, svc.revision, response.rules load.type⟩
      | _ => False
  | _ => False

theorem fresh_new (failover : Bool) : Fresh (new failover : RecoveryState κ ρ) := by
  intro type key update h
  cases h

section Steps

variable {s : RecoveryState κ ρ}

/-- The entries with a remote event keep them, with nothing else written to them. -/
theorem fresh_of_kept {t : RecoveryState κ ρ} (inv : Fresh s) (latest : t.latest = s.latest)
    (kept : ∀ type key item, s.handler.governance type key = some item →
      t.handler.governance type key = some item) : Fresh t := by
  intro type key update h
  rw [latest] at h
  rcases inv type key update h with ⟨item, hitem, hcurrent⟩
  exact ⟨item, kept type key item hitem, hcurrent⟩

theorem fresh_remote (inv : Fresh s) (event : RemoteData ρ) :
    Fresh { s with handler := (onSpecEvent s.handler event).1, latest := s.record event } := by
  unfold record
  cases hupdate : RemoteData.ruleUpdate event with
  | none =>
      have hkept := onSpecEvent_governance_of_none s.handler hupdate
      exact fun type key update h => by simpa only [hkept] using inv type key update h
  | some update =>
      rcases update with ⟨type, remoteVal, svc⟩
      intro other key update h
      rw [onSpecEvent_governance s.handler hupdate]
      simp only at h ⊢
      split at h
      · rename_i hpresent
        rw [if_pos hpresent]
        by_cases hsame : other = type ∧ key = searchKey svc
        · rw [hsame.1, hsame.2, setRules_self] at h ⊢
          cases h
          exact ⟨_, rfl, rfl, rfl⟩
        · rw [setRules_of_ne _ _ hsame] at h ⊢
          exact inv other key update h
      · rename_i habsent
        rw [if_neg habsent]
        exact inv other key update h

/-- Recovered content goes to an entry with a remote event only if it has the same content. -/
theorem fresh_applyRecovered_iff (inv : Fresh s) {t : RecoveryState κ ρ} {load : RuleLoad}
    {response : DiscoverResponse ρ} {svc : SpecService} (served : response.service = some svc)
    (latest : t.latest = s.latest)
    (handler : t.handler = (onSpecEvent s.handler (load.event response)).1) :
    Fresh t ↔ ∀ update, s.latest load.type (searchKey svc) = some update →
      Current load.type update ⟨true, svc.revision, response.rules load.type⟩ := by
  have hgovernance := onSpecEvent_governance s.handler (load.ruleUpdate_event served)
  constructor
  · intro hfresh update h
    rcases inv _ _ update h with ⟨old, hold, -⟩
    rcases hfresh load.type (searchKey svc) update (by rw [latest]; exact h) with
      ⟨item, hitem, hcurrent⟩
    rw [handler, hgovernance, hold, Option.isSome_some, if_pos rfl, setRules_self] at hitem
    cases hitem
    exact hcurrent
  · intro hsame type key update h
    rw [latest] at h
    rcases inv type key update h with ⟨old, hold, hcurrent⟩
    rw [handler, hgovernance]
    split
    · by_cases heq : type = load.type ∧ key = searchKey svc
      · rw [heq.1, heq.2] at h ⊢
        rw [setRules_self]
        exact ⟨_, rfl, hsame update h⟩
      · rw [setRules_of_ne _ _ heq]
        exact ⟨old, hold, hcurrent⟩
    · exact ⟨old, hold, hcurrent⟩

variable [DecidableEq κ]

theorem beginLoad_latest (caller : κ) (filter : Filter) :
    (s.beginLoad caller filter).latest = s.latest := by
  unfold beginLoad
  split
  · split <;> rfl
  · rfl

theorem beginLoad_kept (caller : κ) (filter : Filter) (type : GovernanceType) (key : String)
    (item : RulesCacheItem ρ) (h : s.handler.governance type key = some item) :
    (s.beginLoad caller filter).handler.governance type key = some item := by
  unfold beginLoad
  split
  · split
    · exact h
    · exact ensureEntry_governance filter.resourceKey h
  · exact h

/-- A step ends the freshness if and only if it overwrites. -/
theorem fresh_step_iff (inv : Fresh s) (action : Action κ ρ) :
    Fresh (s.step action) ↔ ¬ Overwrites s action := by
  have htrue : ∀ {t : RecoveryState κ ρ}, Fresh t → (Fresh t ↔ ¬ False) :=
    fun h => ⟨fun _ h => h, fun _ => h⟩
  cases action with
  | remote event => exact htrue (fresh_remote inv event)
  | begin caller filter =>
      apply htrue
      simp only [step]
      split
      · exact fresh_of_kept inv (beginLoad_latest caller filter) (beginLoad_kept caller filter)
      · exact inv
  | check caller =>
      apply htrue
      simp only [step]
      split
      · split
        · exact inv
        · split <;> exact inv
      · exact inv
  | diskLoaded caller result =>
      apply htrue
      simp only [step]
      split
      · split
        · exact inv
        · split <;> exact inv
      · exact inv
  | applyRecovered caller =>
      simp only [step, Overwrites]
      cases s.stage caller with
      | recovered load response svc served =>
          refine Iff.trans (fresh_applyRecovered_iff inv served rfl rfl) ?_
          simp
      | _ => exact htrue inv
  | read caller =>
      apply htrue
      simp only [step]
      split
      · split <;> exact inv
      · exact inv
  | cancel caller =>
      apply htrue
      simp only [step]
      split <;> exact inv

end Steps

/-! ## Interference -/

/-- The load has started to recover, and has not yet updated the cache. -/
def Recovers (s : RecoveryState κ ρ) (caller : κ) (load : RuleLoad) : Prop :=
  s.stage caller = .recovering load ∨
    ∃ response svc served, s.stage caller = .recovered load response svc served

/-- A remote event comes while a load of its entry recovers, or the failover answers with another
service than it was asked for. -/
def Interferes (s : RecoveryState κ ρ) : Action κ ρ → Prop
  | .remote event =>
      ∃ caller load, s.Recovers caller load ∧ ∃ remoteVal svc,
        RemoteData.ruleUpdate event = some (load.type, remoteVal, svc) ∧
          searchKey svc = load.searchKey
  | .diskLoaded caller (.ok response) =>
      ∃ load svc, s.stage caller = .recovering load ∧ response.service = some svc ∧
        searchKey svc ≠ load.searchKey
  | _ => False

/-- No load recovers an entry that has had a remote event. -/
structure Calm (s : RecoveryState κ ρ) : Prop where
  initialized : ∀ type key, s.latest type key ≠ none →
    ∃ item, s.handler.governance type key = some item ∧ item.initialized = true
  recovers : ∀ caller load, s.Recovers caller load → s.latest load.type load.searchKey = none
  recovered : ∀ caller load response svc served,
    s.stage caller = .recovered load response svc served → searchKey svc = load.searchKey

theorem calm_new (failover : Bool) : Calm (new failover : RecoveryState κ ρ) := by
  constructor
  · exact fun _ _ h => absurd rfl h
  · exact fun _ _ _ => rfl
  · exact fun _ _ _ _ _ h => nomatch h

theorem Calm.not_overwrites {s : RecoveryState κ ρ} (inv : Calm s) (action : Action κ ρ) :
    ¬ Overwrites s action := by
  intro h
  cases action with
  | applyRecovered caller =>
      simp only [Overwrites] at h
      split at h
      · rename_i load response svc served hstage
        rcases h with ⟨update, hupdate, -⟩
        have hnone := inv.recovers caller load (.inr ⟨response, svc, served, hstage⟩)
        rw [inv.recovered caller load response svc served hstage, hnone] at hupdate
        cases hupdate
      · exact h
  | _ => exact h

section CalmSteps

variable {s : RecoveryState κ ρ}

theorem calm_remote (inv : Calm s) (event : RemoteData ρ) (ok : ¬ Interferes s (.remote event)) :
    Calm { s with handler := (onSpecEvent s.handler event).1, latest := s.record event } := by
  unfold record
  cases hupdate : RemoteData.ruleUpdate event with
  | none =>
      have hkept := onSpecEvent_governance_of_none s.handler hupdate
      refine ⟨fun type key h => ?_, inv.recovers, inv.recovered⟩
      simpa only [hkept] using inv.initialized type key h
  | some update =>
      rcases update with ⟨type, remoteVal, svc⟩
      have hgovernance := onSpecEvent_governance s.handler hupdate
      simp only
      split
      · rename_i hpresent
        rw [if_pos hpresent] at hgovernance
        refine ⟨fun other key h => ?_, fun caller load hrecovers => ?_, inv.recovered⟩
        · simp only [hgovernance]
          by_cases hsame : other = type ∧ key = searchKey svc
          · rw [hsame.1, hsame.2, setRules_self]
            exact ⟨_, rfl, rfl⟩
          · simp only [setRules_of_ne _ _ hsame] at h ⊢
            exact inv.initialized other key h
        · have hother : ¬ (load.type = type ∧ load.searchKey = searchKey svc) := by
            intro hsame
            exact ok ⟨caller, load, hrecovers, remoteVal, svc, by rw [hupdate, hsame.1],
              hsame.2.symm⟩
          simp only [setRules_of_ne _ _ hother]
          exact inv.recovers caller load hrecovers
      · rename_i habsent
        rw [if_neg habsent] at hgovernance
        refine ⟨fun other key h => ?_, inv.recovers, inv.recovered⟩
        simpa only [hgovernance] using inv.initialized other key h

theorem calm_kept {t : RecoveryState κ ρ} (inv : Calm s) (latest : t.latest = s.latest)
    (kept : ∀ type key item, s.handler.governance type key = some item →
      t.handler.governance type key = some item ∨
        ∃ after, t.handler.governance type key = some after ∧ after.initialized = true)
    (recovers : ∀ caller load, t.Recovers caller load → s.latest load.type load.searchKey = none)
    (recovered : ∀ caller load response svc served,
      t.stage caller = .recovered load response svc served → searchKey svc = load.searchKey) :
    Calm t := by
  constructor
  · intro type key h
    rw [latest] at h
    rcases inv.initialized type key h with ⟨item, hitem, hinitialized⟩
    rcases kept type key item hitem with hsame | hafter
    · exact ⟨item, hsame, hinitialized⟩
    · exact hafter
  · rw [latest]
    exact recovers
  · exact recovered

variable [DecidableEq κ]

theorem recovers_setStage (caller : κ) {stage : LoadStage ρ}
    (idle : ∀ load, stage ≠ .recovering load)
    (applied : ∀ load response svc served, stage ≠ .recovered load response svc served)
    {other : κ} {load : RuleLoad} (h : (s.setStage caller stage).Recovers other load) :
    s.Recovers other load := by
  by_cases heq : other = caller
  · rcases h with hstage | ⟨response, svc, served, hstage⟩
    · rw [heq] at hstage
      exact absurd ((Function.update_self ..).symm.trans hstage) (idle load)
    · rw [heq] at hstage
      exact absurd ((Function.update_self ..).symm.trans hstage) (applied load response svc served)
  · have hstage : (s.setStage caller stage).stage other = s.stage other :=
      Function.update_of_ne heq ..
    unfold Recovers at h ⊢
    rwa [hstage] at h

theorem recovered_setStage (caller : κ) {stage : LoadStage ρ}
    (applied : ∀ load response svc served, stage ≠ .recovered load response svc served)
    {other : κ} {load : RuleLoad} {response : DiscoverResponse ρ} {svc : SpecService}
    {served : response.service = some svc}
    (h : (s.setStage caller stage).stage other = .recovered load response svc served) :
    s.stage other = .recovered load response svc served := by
  by_cases heq : other = caller
  · rw [heq] at h
    exact absurd ((Function.update_self ..).symm.trans h) (applied load response svc served)
  · exact (Function.update_of_ne heq ..).symm.trans h

theorem calm_setStage (inv : Calm s) (caller : κ) {stage : LoadStage ρ}
    (idle : ∀ load, stage ≠ .recovering load)
    (applied : ∀ load response svc served, stage ≠ .recovered load response svc served) :
    Calm (s.setStage caller stage) :=
  calm_kept inv rfl (fun _ _ _ h => .inl h)
    (fun other load h => inv.recovers other load (recovers_setStage caller idle applied h))
    (fun other load response svc served h =>
      inv.recovered other load response svc served (recovered_setStage caller applied h))

theorem calm_begin (inv : Calm s) (caller : κ) (filter : Filter) :
    Calm (s.beginLoad caller filter) := by
  have hstage : ∃ stage : LoadStage ρ, (∀ load, stage ≠ .recovering load) ∧
      (∀ load response svc served, stage ≠ .recovered load response svc served) ∧
      ((s.beginLoad caller filter).stage = (s.setStage caller stage).stage ∨
        (s.beginLoad caller filter).stage = s.stage) := by
    unfold beginLoad
    split
    · rename_i type htype
      split
      · exact ⟨.idle, fun _ h => (nomatch h), fun _ _ _ _ h => (nomatch h), .inr rfl⟩
      · exact ⟨.waiting _, fun _ h => (nomatch h), fun _ _ _ _ h => (nomatch h), .inl rfl⟩
    · exact ⟨.finished (.error loadTimeout), fun _ h => (nomatch h),
        fun _ _ _ _ h => (nomatch h), .inl rfl⟩
  rcases hstage with ⟨stage, idle, applied, hstage⟩
  refine calm_kept inv (beginLoad_latest caller filter)
    (fun type key item h => .inl (beginLoad_kept caller filter type key item h))
    (fun other load h => inv.recovers other load ?_)
    (fun other load response svc served h => inv.recovered other load response svc served ?_)
  · unfold Recovers at h
    rcases hstage with hset | hsame
    · rw [hset] at h
      exact recovers_setStage caller idle applied h
    · rwa [hsame] at h
  · rcases hstage with hset | hsame
    · rw [hset] at h
      exact recovered_setStage caller applied h
    · rwa [hsame] at h

/-- A load that finds its entry uninitialized finds one without a remote event. -/
theorem calm_recover (inv : Calm s) {caller : κ} {load : RuleLoad}
    (uninitialized : ¬ ((s.entry load).map RulesCacheItem.initialized).getD false = true) :
    Calm (s.setStage caller (.recovering load)) := by
  have hrecovering : ∀ found response svc served, LoadStage.recovering load ≠
      (.recovered found response svc served : LoadStage ρ) := fun _ _ _ _ h => nomatch h
  refine calm_kept inv rfl (fun _ _ _ h => .inl h) (fun other found h => ?_)
    (fun other found response svc served h =>
      inv.recovered other found response svc served (recovered_setStage caller hrecovering h))
  by_cases heq : other = caller
  · have hload : found = load := by
      rw [heq] at h
      rcases h with hstage | ⟨response, svc, served, hstage⟩
      · cases (Function.update_self ..).symm.trans hstage
        rfl
      · cases (Function.update_self ..).symm.trans hstage
    rw [hload]
    apply Classical.byContradiction
    intro hlatest
    rcases inv.initialized load.type load.searchKey hlatest with ⟨item, hitem, hinitialized⟩
    apply uninitialized
    unfold entry
    rw [hitem]
    exact hinitialized
  · apply inv.recovers other found
    have hstage : (s.setStage caller (.recovering load)).stage other = s.stage other :=
      Function.update_of_ne heq ..
    unfold Recovers at h ⊢
    rwa [hstage] at h

/-- The failover answers with the service that it was asked for. -/
theorem calm_diskLoaded (inv : Calm s) {caller : κ} {load : RuleLoad}
    {response : DiscoverResponse ρ} {svc : SpecService} (served : response.service = some svc)
    (hstage : s.stage caller = .recovering load) (own : searchKey svc = load.searchKey) :
    Calm (s.setStage caller (.recovered load response svc served)) := by
  refine calm_kept inv rfl (fun _ _ _ h => .inl h) (fun other found h => ?_)
    (fun other found answer service answered h => ?_)
  · by_cases heq : other = caller
    · have hload : found = load := by
        rw [heq] at h
        rcases h with hfound | ⟨answer, service, answered, hfound⟩
        · cases (Function.update_self ..).symm.trans hfound
        · cases (Function.update_self ..).symm.trans hfound
          rfl
      rw [hload]
      exact inv.recovers caller load (.inl hstage)
    · apply inv.recovers other found
      have hother : (s.setStage caller (.recovered load response svc served)).stage other =
          s.stage other := Function.update_of_ne heq ..
      unfold Recovers at h ⊢
      rwa [hother] at h
  · by_cases heq : other = caller
    · rw [heq] at h
      cases (Function.update_self ..).symm.trans h
      exact own
    · exact inv.recovered other found answer service answered
        ((Function.update_of_ne heq ..).symm.trans h)

theorem calm_applyRecovered (inv : Calm s) {caller : κ} {load : RuleLoad}
    {response : DiscoverResponse ρ} {svc : SpecService} (served : response.service = some svc) :
    Calm { s.setStage caller (.reading load) with
      handler := (onSpecEvent s.handler (load.event response)).1 } := by
  have hread : Calm (s.setStage caller (.reading load)) :=
    calm_setStage inv caller (fun _ h => nomatch h) (fun _ _ _ _ h => nomatch h)
  refine calm_kept hread rfl (fun type key item h => ?_) hread.recovers hread.recovered
  simp only [onSpecEvent_governance s.handler (load.ruleUpdate_event served)]
  split
  · by_cases hsame : type = load.type ∧ key = searchKey svc
    · rw [hsame.1, hsame.2, setRules_self]
      exact .inr ⟨_, rfl, rfl⟩
    · rw [setRules_of_ne _ _ hsame]
      exact .inl h
  · exact .inl h

theorem calm_step (inv : Calm s) (action : Action κ ρ) (ok : ¬ Interferes s action) :
    Calm (s.step action) := by
  cases action with
  | remote event => exact calm_remote inv event ok
  | begin caller filter =>
      simp only [step]
      split
      · exact calm_begin inv caller filter
      · exact inv
  | check caller =>
      simp only [step]
      split
      · split
        · exact calm_setStage inv caller (fun _ h => nomatch h) (fun _ _ _ _ h => nomatch h)
        · rename_i huninitialized
          split
          · exact calm_recover inv huninitialized
          · exact calm_setStage inv caller (fun _ h => nomatch h) (fun _ _ _ _ h => nomatch h)
      · exact inv
  | diskLoaded caller result =>
      simp only [step]
      split
      · rename_i load hstage
        split
        · exact calm_setStage inv caller (fun _ h => nomatch h) (fun _ _ _ _ h => nomatch h)
        · rename_i response
          split
          · exact calm_setStage inv caller (fun _ h => nomatch h) (fun _ _ _ _ h => nomatch h)
          · rename_i svc served
            apply calm_diskLoaded inv served hstage
            apply Classical.byContradiction
            exact fun hforeign => ok ⟨load, svc, hstage, served, hforeign⟩
      · exact inv
  | applyRecovered caller =>
      simp only [step]
      split
      · rename_i load response svc served _
        exact calm_applyRecovered inv served
      · exact inv
  | read caller =>
      simp only [step]
      split
      · split
        · exact inv
        · exact calm_setStage inv caller (fun _ h => nomatch h) (fun _ _ _ _ h => nomatch h)
      · exact inv
  | cancel caller =>
      simp only [step]
      split
      · exact inv
      · exact calm_setStage inv caller (fun _ h => nomatch h) (fun _ _ _ _ h => nomatch h)

end CalmSteps

/-! ## Runs -/

section Runs

variable [DecidableEq κ]

/-- Every state of a run is fresh if and only if nothing overwrites a remote event in it, and
nothing does in a run without interference. -/
theorem recovery_keeps_remote (failover : Bool) (actions : List (Action κ ρ)) :
    (Along step (fun s action => Fresh (s.step action)) (new failover) actions ↔
      Along step (fun s action => ¬ Overwrites s action) (new failover) actions) ∧
    (Along step (fun s action => ¬ Interferes s action) (new failover) actions →
      Along step (fun s action => Fresh (s.step action)) (new failover) actions ∧
        Fresh (run step (new failover) actions)) := by
  have hfresh : Along step (fun s action => ¬ Overwrites s action) (new failover) actions →
      Along step (fun s action => Fresh (s.step action)) (new failover) actions := by
    apply along_of_invariant _ _ (fresh_new failover)
    · exact fun s action inv ok => (fresh_step_iff inv action).mpr ok
    · exact fun s action inv ok => (fresh_step_iff inv action).mpr ok
  refine ⟨⟨?_, hfresh⟩, fun hcalm => ?_⟩
  · apply along_of_invariant _ _ (fresh_new failover)
    · exact fun s action _ ok => ok
    · exact fun s action inv ok => (fresh_step_iff inv action).mp ok
  · have hkept : Along step (fun s action => ¬ Overwrites s action) (new failover) actions :=
      along_of_invariant (fun s action inv ok => calm_step inv action ok)
        (fun s action inv _ => Calm.not_overwrites inv action) (calm_new failover) hcalm
    refine ⟨hfresh hkept, @run_invariant _ _ step _ Fresh ?_ _ actions (fresh_new failover) hkept⟩
    exact fun s action inv ok => (fresh_step_iff inv action).mpr ok

end Runs

/-! ## One load -/

def limitsFilter : Filter where
  resourceKey := ⟨"prod", .governance .rateLimitRule,
    fun name => if name = "service" then some "orders" else none⟩
  includeCache := true

def limitsResponse (revision : String) (rules : List Nat) : DiscoverResponse Nat where
  service := some ⟨"s1", "prod", "orders", .empty, revision⟩
  instances := []
  customRouteRules := []
  circuitBreaker := []
  rateLimit := rules
  faultDetectRules := []
  lanes := []
  losslessRules := []
  trafficSecurityRules := []
  trafficMirrorRules := []
  trafficMockRules := []

def limitsUpdate : RemoteData Nat :=
  ⟨limitsFilter.resourceKey, some (limitsResponse "r2" [2]), none⟩

/-- The load has recovered older rules when the update comes, and reads those of the update. -/
def updateAfterRecovery : List (Action Unit Nat) :=
  [.begin () limitsFilter, .check (), .diskLoaded () (.ok (limitsResponse "r1" [1])),
    .applyRecovered (), .remote limitsUpdate, .read ()]

theorem update_after_recovery :
    Along step (fun s action => Fresh (s.step action)) (new true) updateAfterRecovery ∧
      Fresh (run step (new true) updateAfterRecovery) := by
  apply (recovery_keeps_remote true updateAfterRecovery).2
  refine ⟨id, id, ?_, id, ?_, id, trivial⟩
  · rintro ⟨load, svc, hstage, hservice, hother⟩
    cases hstage
    cases hservice
    exact hother rfl
  · rintro ⟨caller, load, hwaiting | ⟨response, svc, served, hwaiting⟩, -⟩
    · cases hwaiting
    · cases hwaiting

/-- The update comes while the disk load is under way, whose older rules then replace it. -/
theorem disk_replaces_update :
    ¬ Fresh (run step (new true : RecoveryState Unit Nat)
      [.begin () limitsFilter, .check (), .remote limitsUpdate,
        .diskLoaded () (.ok (limitsResponse "r1" [1])), .applyRecovered ()]) := by
  intro hfresh
  rcases hfresh .rateLimitRule (serviceKey "prod" "orders") _ rfl with ⟨item, hitem, hvalue, -⟩
  cases hitem
  cases hvalue

end RecoveryState

end PoleClient.Cache
