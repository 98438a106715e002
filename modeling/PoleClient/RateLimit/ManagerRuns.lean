import PoleClient.RateLimit.ManagerSoundness

/-! # Runs of the distributed quota manager

Each step keeps what the calls share sound, and leaves every other call with what
it has seen. The locks keep the calls apart: a connection is made, and a window
readied, by one call at a time.
-/

namespace PoleClient.RateLimit

open Lib

namespace ManagerState

variable {κ : Type} [DecidableEq κ] {calls : κ → ReserveCall} {s : ManagerState κ}
  {d : QuotaShared κ} {call other : κ} {stage : ReserveStage}

/-! ## Locks -/

theorem stage_setStage (stage : ReserveStage) (other : κ) :
    (s.setStage call stage).stage other = if other = call then stage else s.stage other :=
  Function.update_apply ..

theorem stage_leave (stage : ReserveStage) (other : κ) :
    (s.leave call stage).stage other = if other = call then stage else s.stage other :=
  Function.update_apply ..

theorem locksHeld_setStage (held : LocksHeld s)
    (hconnects : stage.connects = (s.stage call).connects)
    (hinitializes : stage.initializes = (s.stage call).initializes) :
    LocksHeld (s.setStage call stage) where
  connect := by
    intro other
    rw [stage_setStage]
    by_cases hcall : other = call
    · rw [if_pos hcall, hconnects, hcall]
      exact held.connect call
    · rw [if_neg hcall]
      exact held.connect other
  window := by
    intro other address
    rw [stage_setStage]
    by_cases hcall : other = call
    · rw [if_pos hcall, hinitializes, hcall]
      exact held.window call address
    · rw [if_neg hcall]
      exact held.window other address

theorem locksHeld_leave (held : LocksHeld s) (hconnects : stage.connects = false)
    (hinitializes : stage.initializes = none) : LocksHeld (s.leave call stage) where
  connect := by
    intro other
    have hlock : (s.leave call stage).connectLock =
        if s.connectLock = some call then none else s.connectLock := rfl
    rw [stage_leave, hlock]
    by_cases hcall : other = call
    · rw [if_pos hcall, hconnects, hcall]
      by_cases hmine : s.connectLock = some call
      · simp [hmine]
      · simp [hmine]
    · rw [if_neg hcall, held.connect]
      by_cases hmine : s.connectLock = some call
      · simp [hmine, Ne.symm hcall]
      · simp [hmine]
  window := by
    intro other address
    have hlock : (s.leave call stage).initializeLock address =
        if s.initializeLock address = some call then none else s.initializeLock address := rfl
    rw [stage_leave, hlock]
    by_cases hcall : other = call
    · rw [if_pos hcall, hinitializes, hcall]
      by_cases hmine : s.initializeLock address = some call
      · simp [hmine]
      · simp [hmine]
    · rw [if_neg hcall, held.window]
      by_cases hmine : s.initializeLock address = some call
      · simp [hmine, Ne.symm hcall]
      · simp [hmine]

theorem locksHeld_takeConnectLock (held : LocksHeld s) (hfree : s.connectLock = none)
    (hconnects : stage.connects = true) (hbefore : (s.stage call).initializes = none)
    (hinitializes : stage.initializes = none) : LocksHeld (s.takeConnectLock call stage) where
  connect := by
    intro other
    have hstage : (s.takeConnectLock call stage).stage other =
        if other = call then stage else s.stage other := stage_setStage stage other
    have hlock : (s.takeConnectLock call stage).connectLock = some call := rfl
    rw [hstage, hlock]
    by_cases hcall : other = call
    · simp [hcall, hconnects]
    · rw [if_neg hcall, held.connect, hfree]
      simp [Ne.symm hcall]
  window := by
    intro other address
    have hstage : (s.takeConnectLock call stage).stage other =
        if other = call then stage else s.stage other := stage_setStage stage other
    have hlock : (s.takeConnectLock call stage).initializeLock = s.initializeLock := rfl
    rw [hstage, hlock]
    by_cases hcall : other = call
    · rw [if_pos hcall, ← held.window, hcall, hbefore, hinitializes]
    · rw [if_neg hcall]
      exact held.window other address

theorem locksHeld_takeInitializeLock (held : LocksHeld s) {address : Nat}
    (hfree : s.initializeLock address = none) (hbefore : (s.stage call).connects = false)
    (hconnects : stage.connects = false) (hnone : (s.stage call).initializes = none)
    (hinitializes : stage.initializes = some address) :
    LocksHeld (s.takeInitializeLock call address stage) where
  connect := by
    intro other
    have hstage : (s.takeInitializeLock call address stage).stage other =
        if other = call then stage else s.stage other := stage_setStage stage other
    have hlock : (s.takeInitializeLock call address stage).connectLock = s.connectLock := rfl
    rw [hstage, hlock]
    by_cases hcall : other = call
    · rw [if_pos hcall, ← held.connect, hcall, hbefore, hconnects]
    · rw [if_neg hcall]
      exact held.connect other
  window := by
    intro other wanted
    have hstage : (s.takeInitializeLock call address stage).stage other =
        if other = call then stage else s.stage other := stage_setStage stage other
    have hlock : (s.takeInitializeLock call address stage).initializeLock wanted =
        if wanted = address then some call else s.initializeLock wanted :=
      Function.update_apply ..
    have hold := held.window other wanted
    rw [hstage, hlock]
    by_cases hcall : other = call
    · rw [hcall, hnone] at hold
      have hother : s.initializeLock wanted ≠ some call := fun h => by simpa using hold.mpr h
      by_cases hwanted : wanted = address
      · simp [hcall, hwanted, hinitializes]
      · simp [hcall, hwanted, Ne.symm hwanted, hinitializes, hother]
    · rw [if_neg hcall]
      by_cases hwanted : wanted = address
      · rw [hwanted] at hold ⊢
        rw [hold, hfree]
        simp [Ne.symm hcall]
      · rw [if_neg hwanted]
        exact hold

omit [DecidableEq κ] in
theorem connects_of_ne (held : LocksHeld s) (hcall : (s.stage call).connects = true)
    (hne : other ≠ call) : (s.stage other).connects = false := by
  by_contra hother
  rw [Bool.not_eq_false] at hother
  have hlock := (held.connect other).mp hother
  rw [(held.connect call).mp hcall] at hlock
  exact hne (Option.some.inj hlock).symm

omit [DecidableEq κ] in
theorem initializes_of_ne (held : LocksHeld s) {address : Nat}
    (hcall : (s.stage call).initializes = some address) (hne : other ≠ call) :
    (s.stage other).initializes ≠ some address := by
  intro hother
  have hlock := (held.window other address).mp hother
  rw [(held.window call address).mp hcall] at hlock
  exact hne (Option.some.inj hlock).symm

/-! ## What a step keeps -/

/-- The call moves on after a change that leaves the others undisturbed. -/
theorem managerSound_setStage (sound : ManagerSound calls s) (shared : SharedSound calls d)
    (kept : ∀ other, other ≠ call → Undisturbed s.toQuotaShared d (s.stage other))
    (hconnects : stage.connects = (s.stage call).connects)
    (hinitializes : stage.initializes = (s.stage call).initializes)
    (own : StageSound calls d call stage) :
    ManagerSound calls ((s.setShared d).setStage call stage) where
  locks := locksHeld_setStage (s := s.setShared d) ⟨sound.locks.connect, sound.locks.window⟩
    hconnects hinitializes
  shared := shared
  stages := by
    intro other
    rw [stage_setStage]
    by_cases hcall : other = call
    · rw [if_pos hcall, hcall]
      exact own
    · rw [if_neg hcall]
      exact (sound.stages other).undisturbed (kept other hcall)

theorem managerSound_leave (sound : ManagerSound calls s) (shared : SharedSound calls d)
    (kept : ∀ other, other ≠ call → Undisturbed s.toQuotaShared d (s.stage other))
    (hconnects : stage.connects = false) (hinitializes : stage.initializes = none)
    (own : StageSound calls d call stage) :
    ManagerSound calls ((s.setShared d).leave call stage) where
  locks := locksHeld_leave (s := s.setShared d) ⟨sound.locks.connect, sound.locks.window⟩
    hconnects hinitializes
  shared := shared
  stages := by
    intro other
    rw [stage_leave]
    by_cases hcall : other = call
    · rw [if_pos hcall, hcall]
      exact own
    · rw [if_neg hcall]
      exact (sound.stages other).undisturbed (kept other hcall)

theorem managerSound_move (sound : ManagerSound calls s)
    (hconnects : stage.connects = (s.stage call).connects)
    (hinitializes : stage.initializes = (s.stage call).initializes)
    (own : StageSound calls s.toQuotaShared call stage) :
    ManagerSound calls (s.setStage call stage) :=
  managerSound_setStage sound sound.shared (fun _ _ => Undisturbed.refl _ _) hconnects hinitializes
    own

theorem managerSound_end (sound : ManagerSound calls s) (hconnects : stage.connects = false)
    (hinitializes : stage.initializes = none)
    (own : StageSound calls s.toQuotaShared call stage) :
    ManagerSound calls (s.leave call stage) :=
  managerSound_leave sound sound.shared (fun _ _ => Undisturbed.refl _ _) hconnects hinitializes own

variable (stage) in
theorem managerSound_locked {t : ManagerState κ} (sound : ManagerSound calls s)
    (locks : LocksHeld t) (hstages : t.stage = Function.update s.stage call stage)
    (hshared : t.toQuotaShared = s.toQuotaShared)
    (own : StageSound calls s.toQuotaShared call stage) : ManagerSound calls t where
  locks := locks
  shared := hshared ▸ sound.shared
  stages := by
    intro other
    rw [hshared, hstages, Function.update_apply]
    by_cases hcall : other = call
    · rw [if_pos hcall, hcall]
      exact own
    · rw [if_neg hcall]
      exact sound.stages other

theorem managerSound_error (sound : ManagerSound calls s) (err : PoleError) :
    ManagerSound calls (s.leave call (.returned (.error err))) :=
  managerSound_end sound rfl rfl trivial

omit [DecidableEq κ] in
theorem managerSound_bindings (sound : ManagerSound calls s) (bindings : DistributedQuotaManager) :
    ManagerSound calls { s with bindings := bindings } :=
  ⟨⟨sound.locks.connect, sound.locks.window⟩, sound.shared, sound.stages⟩

/-! ## Steps -/

section Steps

omit [DecidableEq κ] in
theorem sound_workOn {log : List (QuotaEvent κ)} {endpoint : String} {id : Nat}
    (h : .connected id endpoint ∈ log) (args : ReserveCall) :
    (workOn endpoint id args).Sound log args [] where
  session := h
  readied := ⟨[], rfl, .nil⟩
  distinct := List.nodup_nil
  counterKeys := fun _ => Iff.rfl

omit [DecidableEq κ] in
/-- The session that a lookup finds is one of the endpoint. -/
theorem connected_of_usableSession (sound : ManagerSound calls s) {endpoint : String} {id : Nat}
    (h : s.usableSession endpoint = some id) : .connected id endpoint ∈ s.log := by
  have hmapped := (Option.filter_eq_some_iff.mp h).1
  exact (sound.shared.logged id endpoint).mp (sound.shared.owner id endpoint hmapped)

omit [DecidableEq κ] in
/-- A usable session is the newest of its endpoint, and so the window has not been initialized on
it or on a newer one. -/
theorem olderSessions_of_usable (sound : ManagerSound calls s) {sessionId address : Nat}
    {endpoint : String} {key : QuotaWindowKey} (hconnected : .connected sessionId endpoint ∈ s.log)
    (husable : s.isUsable sessionId = true) (haddress : s.windowKey address = some key)
    (hendpoint : key.endpoint = endpoint)
    (hother : ∀ init, s.initializedAs address = some init → init.sessionId ≠ sessionId) :
    OlderSessions s.log address sessionId := by
  have hsession := (sound.shared.logged sessionId endpoint).mpr hconnected
  have hmapped := sound.shared.mapped sessionId endpoint hsession husable
  intro old init hevent
  obtain ⟨last, hlast, hle⟩ := sound.shared.latest address old init hevent
  obtain ⟨current, hcurrent, -, hlastSession⟩ := sound.shared.initialized address last hlast
  obtain rfl := Option.some.inj (haddress.symm.trans hcurrent)
  rw [hendpoint] at hlastSession
  have hnewest := sound.shared.newest sessionId endpoint hmapped last.sessionId
    ((sound.shared.logged _ _).mpr hlastSession)
  have hne := hother last hlast
  omega

variable (env : EndpointEnv)

theorem managerSound_start (sound : ManagerSound calls s) (hstage : s.stage call = .idle) :
    ManagerSound calls (s.start env calls call) := by
  unfold start
  simp only
  split
  · exact managerSound_error sound _
  split
  · exact managerSound_error sound _
  split
  · exact managerSound_error sound _
  split
  · exact managerSound_error (managerSound_bindings sound _) _
  · exact managerSound_end (managerSound_bindings sound _) rfl rfl trivial
  · refine managerSound_move (managerSound_bindings sound _) ?_ ?_ trivial
    · exact (congrArg ReserveStage.connects hstage).symm
    · exact (congrArg ReserveStage.initializes hstage).symm

theorem managerSound_sessionStep (sound : ManagerSound calls s) {endpoint : String}
    {place : SessionStage} (hstage : s.stage call = .session endpoint place) :
    ManagerSound calls (s.sessionStep calls call endpoint place) := by
  cases place with
  | lookup =>
      unfold sessionStep
      cases hfound : s.usableSession endpoint with
      | some id =>
          exact managerSound_move sound (by rw [hstage]; rfl) (by rw [hstage]; rfl)
            (sound_workOn (connected_of_usableSession sound hfound) _)
      | none => exact managerSound_move sound (by rw [hstage]; rfl) (by rw [hstage]; rfl) trivial
  | connectLock =>
      unfold sessionStep
      cases hlock : s.connectLock with
      | some holder => exact sound
      | none =>
          apply managerSound_locked (.session endpoint .lookupAgain) sound
          · exact locksHeld_takeConnectLock sound.locks hlock rfl (by rw [hstage]; rfl) rfl
          · rfl
          · rfl
          · trivial
  | lookupAgain =>
      unfold sessionStep
      cases hfound : s.usableSession endpoint with
      | some id =>
          exact managerSound_end sound rfl rfl
            (sound_workOn (connected_of_usableSession sound hfound) _)
      | none =>
          apply managerSound_setStage sound (sharedSound_forgetSession sound.shared hfound)
          · exact fun _ _ => undisturbed_forgetSession endpoint
          · rw [hstage]
            rfl
          · rw [hstage]
            rfl
          · refine ⟨Nat.lt_succ_self _, sound.shared.sessionId, ?_⟩
            exact fun older holder => unusable_of_usableSession sound.shared hfound holder
  | connecting id => exact sound

theorem managerSound_finishConnect (sound : ManagerSound calls s) {endpoint : String} {id : Nat}
    (hstage : s.stage call = .session endpoint (.connecting id))
    (result : Except PoleError Unit) :
    ManagerSound calls (s.finishConnect calls call endpoint id result) := by
  cases result with
  | error err => exact managerSound_error sound err
  | ok _ =>
      have hown := sound.stages call
      rw [hstage] at hown
      obtain ⟨hid, hfresh, hunusable⟩ := hown
      apply managerSound_leave sound (sharedSound_openSession sound.shared hid hfresh hunusable)
      · intro other hne
        apply undisturbed_openSession
        exact connects_of_ne sound.locks (by rw [hstage]; rfl) hne
      · rfl
      · rfl
      · exact sound_workOn (mem_openSession_log.mpr (.inr rfl)) _

theorem managerSound_nextSpec (sound : ManagerSound calls s) {work : Work}
    (hstage : s.stage call = .nextSpec work) : ManagerSound calls (s.nextSpec calls call work) := by
  have hown := sound.stages call
  rw [hstage] at hown
  unfold nextSpec
  cases hspecs : work.specs with
  | nil =>
      cases hkey : work.clientKey with
      | none => exact managerSound_end sound rfl rfl trivial
      | some clientKey =>
          have hgroups := Work.Sound.finished hown hspecs hkey
          simp only
          split
          · apply managerSound_setStage sound (sharedSound_record sound.shared rfl ?_)
            · exact fun _ _ => undisturbed_record rfl
            · rw [hstage]
              rfl
            · rw [hstage]
              rfl
            · exact hgroups.grow fun _ h => mem_record.mpr (.inl h)
            · exact ⟨work.endpoint, work.groups, hgroups, rfl⟩
          · exact managerSound_error sound _
  | cons spec specs =>
      simp only
      cases hkey : QuotaWindowKey.fromRule (calls call).req spec work.endpoint with
      | error err => exact managerSound_error sound err
      | ok key =>
          apply managerSound_setStage sound (sharedSound_removeStaleWindows sound.shared key)
          · exact fun _ _ => undisturbed_removeStaleWindows key
          · rw [hstage]
            rfl
          · rw [hstage]
            rfl
          · obtain ⟨done, hall, hdone⟩ := hown.readied
            refine ⟨⟨hown.session, ⟨done, ?_, hdone⟩, hown.distinct, hown.counterKeys⟩, hkey⟩
            rw [hall, hspecs]
            simp

theorem managerSound_enter (sound : ManagerSound calls s) {work : Work}
    {spec : DistributedQuotaSpec} {key : QuotaWindowKey}
    (hstage : s.stage call = .entering work spec key) :
    ManagerSound calls (s.enter call work spec key) := by
  have hown := sound.stages call
  rw [hstage] at hown
  unfold enter
  cases hfound : s.windows key with
  | some address =>
      refine managerSound_move sound (by rw [hstage]; rfl) (by rw [hstage]; rfl) ?_
      exact ⟨hown.1, ⟨key, sound.shared.windows key address hfound, hown.2⟩, trivial⟩
  | none =>
      apply managerSound_setStage sound (sharedSound_addWindow sound.shared key)
      · exact fun _ _ => undisturbed_addWindow sound.shared key
      · rw [hstage]
        rfl
      · rw [hstage]
        rfl
      · refine ⟨hown.1, ⟨key, ?_, hown.2⟩, trivial⟩
        rw [windowKey_addWindow, if_pos rfl]

theorem managerSound_ready (sound : ManagerSound calls s) {work : Work}
    {spec : DistributedQuotaSpec} {init : InitializedWindow} {address : Nat} {key : QuotaWindowKey}
    (shared : SharedSound calls d)
    (kept : ∀ other, other ≠ call → Undisturbed s.toQuotaShared d (s.stage other))
    (hwork : work.Sound d.log (calls call) [spec])
    (hkey : QuotaWindowKey.fromRule (calls call).req spec work.endpoint = .ok key)
    (hevent : .initialized address key init ∈ d.log) (hsession : init.sessionId = work.sessionId) :
    ManagerSound calls ((s.setShared d).ready call work spec init) := by
  unfold ready
  cases habsorb : work.absorb spec init with
  | error err => exact managerSound_leave sound shared kept rfl rfl trivial
  | ok after =>
      exact managerSound_leave sound shared kept rfl rfl
        (hwork.absorb hkey hevent hsession habsorb)

theorem managerSound_windowStep (sound : ManagerSound calls s) {work : Work}
    {spec : DistributedQuotaSpec} {address : Nat} {place : WindowStage}
    (hstage : s.stage call = .window work spec address place) :
    ManagerSound calls (s.windowStep calls call work spec address place) := by
  have hown := sound.stages call
  rw [hstage] at hown
  obtain ⟨hwork, ⟨key, haddress, hkey⟩, hplace⟩ := hown
  have hfound : ∀ init, s.initializedOn address work.sessionId = some init →
      ManagerSound calls (s.ready call work spec init) := by
    intro init hinit
    obtain ⟨hinit, hsession⟩ := Option.filter_eq_some_iff.mp hinit
    obtain ⟨other, hother, hevent, -⟩ := sound.shared.initialized address init hinit
    obtain rfl := Option.some.inj (haddress.symm.trans hother)
    exact managerSound_ready sound sound.shared (fun _ _ => Undisturbed.refl _ _) hwork hkey hevent
      (beq_iff_eq.mp hsession)
  cases place with
  | lookup =>
      unfold windowStep
      cases hinit : s.initializedOn address work.sessionId with
      | some init => exact hfound init hinit
      | none =>
          exact managerSound_move sound (by rw [hstage]; rfl) (by rw [hstage]; rfl)
            ⟨hwork, ⟨key, haddress, hkey⟩, trivial⟩
  | initializeLock =>
      unfold windowStep
      cases hlock : s.initializeLock address with
      | some holder => exact sound
      | none =>
          apply managerSound_locked (.window work spec address .lookupAgain) sound
          · apply locksHeld_takeInitializeLock sound.locks hlock
            · rw [hstage]
              rfl
            · rfl
            · rw [hstage]
              rfl
            · rfl
          · rfl
          · rfl
          · exact ⟨hwork, ⟨key, haddress, hkey⟩, trivial⟩
  | lookupAgain =>
      unfold windowStep
      cases hinit : s.initializedOn address work.sessionId with
      | some init => exact hfound init hinit
      | none =>
          refine managerSound_move sound (by rw [hstage]; rfl) (by rw [hstage]; rfl)
            ⟨hwork, ⟨key, haddress, hkey⟩, ?_⟩
          intro init holds hsame
          have hnever := Option.filter_eq_none_iff.mp hinit init holds
          rw [hsame, beq_self_eq_true] at hnever
          exact hnever rfl
  | requesting =>
      unfold windowStep
      cases hwindow : s.heap address with
      | none => exact sound
      | some window =>
          obtain rfl : window.key = key := by
            rw [QuotaShared.windowKey, hwindow] at haddress
            exact Option.some.inj haddress
          cases hrequest : buildInitRequest (calls call).clientId window.key spec with
          | error err =>
              simp only [hrequest]
              exact managerSound_error sound err
          | ok request =>
              simp only [hrequest]
              by_cases husable : s.isUsable work.sessionId = true
              · rw [if_pos husable]
                have holder := olderSessions_of_usable sound hwork.session husable haddress
                  (endpoint_fromRule hkey) hplace
                apply managerSound_setStage sound (sharedSound_record sound.shared rfl ?_)
                · exact fun _ _ => undisturbed_record rfl
                · rw [hstage]
                  rfl
                · rw [hstage]
                  rfl
                · refine ⟨hwork.grow fun _ h => mem_record.mpr (.inl h),
                    ⟨window.key, haddress, hkey⟩, fun other init hevent => ?_⟩
                  rcases mem_record.mp hevent with hold | hnew
                  · exact holder other init hold
                  · cases hnew
                · have hsame := endpoint_fromRule hkey
                  refine ⟨holder, window.key, spec, ?_, hsame ▸ hwork.session, hsame ▸ hkey,
                    hrequest⟩
                  obtain ⟨done, hall, -⟩ := hwork.readied
                  rw [hall]
                  simp
              · rw [if_neg husable]
                exact managerSound_error sound _
  | awaiting => exact sound
  | recording init =>
      unfold windowStep
      cases hwindow : s.heap address with
      | none => exact sound
      | some window =>
          obtain rfl : window.key = key := by
            rw [QuotaShared.windowKey, hwindow] at haddress
            exact Option.some.inj haddress
          obtain ⟨holder, hsession⟩ := hplace
          have hconnected : .connected init.sessionId window.key.endpoint ∈ s.log := by
            rw [hsession, endpoint_fromRule hkey]
            exact hwork.session
          have hshared := sharedSound_setInitialized sound.shared hwindow (hsession ▸ holder)
            hconnected
          apply managerSound_ready sound hshared
          · intro other hne
            apply undisturbed_setInitialized hwindow
            exact initializes_of_ne sound.locks (by rw [hstage]; rfl) hne
          · exact hwork.grow fun _ h => mem_setInitialized_log.mpr (.inl h)
          · exact hkey
          · exact mem_setInitialized_log.mpr (.inr rfl)
          · exact hsession

theorem managerSound_advance (sound : ManagerSound calls s) (call : κ) :
    ManagerSound calls (s.advance env calls call) := by
  unfold advance
  cases hstage : s.stage call with
  | idle => exact managerSound_start env sound hstage
  | session endpoint place => exact managerSound_sessionStep sound hstage
  | nextSpec work => exact managerSound_nextSpec sound hstage
  | entering work spec key => exact managerSound_enter sound hstage
  | window work spec address place => exact managerSound_windowStep sound hstage
  | awaiting work clientKey => exact sound
  | returned result => exact sound
  | dropped => exact sound

theorem sessionId_of_initOutcome {sessionId : Nat} {init : InitializedWindow}
    {answer : Except PoleError (Option RateLimitInitResponse)}
    (h : initOutcome sessionId answer = .ok init) : init.sessionId = sessionId := by
  unfold initOutcome at h
  split at h
  · cases h
  · cases h
  · split at h
    · cases h
    · split at h
      · cases h
      · rw [← Except.ok.inj h]

theorem outcome_eq_reserved {work : Work} {clientKey : UInt32} {sessionId : Nat}
    {answer : Except PoleError RemoteRateLimitResponse} {lease : DistributedLeaseBackend}
    (h : work.outcome clientKey answer = .ok (.reserved sessionId lease)) :
    sessionId = work.sessionId ∧ lease.clientKey = clientKey ∧ lease.groups = work.groups := by
  unfold Work.outcome at h
  cases hanswer : reserveOutcome answer with
  | error err =>
      rw [hanswer] at h
      cases h
  | ok result =>
      rw [hanswer] at h
      cases result with
      | rejected message => cases h
      | reserved leaseId =>
          cases h
          exact ⟨rfl, rfl, rfl⟩

theorem managerSound_initAnswer (sound : ManagerSound calls s) {work : Work}
    {spec : DistributedQuotaSpec} {address : Nat} {init : InitializedWindow}
    {answer : Except PoleError (Option RateLimitInitResponse)}
    (hstage : s.stage call = .window work spec address .awaiting)
    (hinit : initOutcome work.sessionId answer = .ok init) :
    ManagerSound calls (s.setStage call (.window work spec address (.recording init))) := by
  have hown := sound.stages call
  rw [hstage] at hown
  exact managerSound_move sound (by rw [hstage]; rfl) (by rw [hstage]; rfl)
    ⟨hown.1, hown.2.1, hown.2.2, sessionId_of_initOutcome hinit⟩

theorem managerSound_reserveAnswer (sound : ManagerSound calls s) {work : Work}
    {clientKey : UInt32} (hstage : s.stage call = .awaiting work clientKey)
    (answer : Except PoleError RemoteRateLimitResponse) :
    ManagerSound calls (s.leave call (.returned (work.outcome clientKey answer))) := by
  have hown := sound.stages call
  rw [hstage] at hown
  apply managerSound_end sound rfl rfl
  cases houtcome : work.outcome clientKey answer with
  | error err => trivial
  | ok outcome =>
      cases outcome with
      | rejected message => trivial
      | reserved sessionId lease =>
          obtain ⟨rfl, hkey, hgroups⟩ := outcome_eq_reserved houtcome
          refine ⟨work.endpoint, ?_⟩
          rw [hkey, hgroups]
          exact hown

theorem managerSound_step (sound : ManagerSound calls s) (action : ManagerAction κ) :
    ManagerSound calls (s.step env calls action) := by
  cases action with
  | advance call => exact managerSound_advance env sound call
  | connectResult call result =>
      simp only [step]
      split
      · rename_i hstage
        exact managerSound_finishConnect sound hstage result
      · exact sound
  | initAnswer call answer =>
      simp only [step]
      split
      · rename_i hstage
        split
        · exact managerSound_error sound _
        · rename_i hinit
          exact managerSound_initAnswer sound hstage hinit
      · exact sound
  | reserveAnswer call answer =>
      simp only [step]
      split
      · rename_i hstage
        exact managerSound_reserveAnswer sound hstage answer
      · exact sound
  | cancel call =>
      simp only [step]
      split
      · exact sound
      · exact managerSound_end sound rfl rfl trivial
  | sessionFails id =>
      refine ⟨⟨sound.locks.connect, sound.locks.window⟩, sharedSound_failSession sound.shared id,
        fun other => ?_⟩
      exact (sound.stages other).undisturbed (undisturbed_failSession id)

omit [DecidableEq κ] in
theorem managerSound_initial : ManagerSound calls initial where
  locks := ⟨fun _ => by simp [initial, ReserveStage.connects],
    fun _ _ => by simp [initial, ReserveStage.initializes]⟩
  shared := sharedSound_initial
  stages := fun _ => trivial

theorem managerSound_run (actions : List (ManagerAction κ)) :
    ManagerSound calls (run (step env calls) initial actions) :=
  run_preserves (ManagerSound calls) (fun _ action sound => managerSound_step env sound action)
    actions managerSound_initial

end Steps

/-! ## Progress -/

end ManagerState

def ReserveStage.ended : ReserveStage → Bool
  | returned _ | dropped => true
  | _ => false

/-- The call waits for a connection or for the limiter. -/
def ReserveStage.waitsForAnswer : ReserveStage → Bool
  | session _ (.connecting _) | window _ _ _ .awaiting | awaiting _ _ => true
  | _ => false

namespace ManagerState

variable {κ : Type} [DecidableEq κ] {calls : κ → ReserveCall} {s : ManagerState κ} {call : κ}
  {stage : ReserveStage} (env : EndpointEnv)

def BlockedBy (s : ManagerState κ) (call holder : κ) : Prop :=
  (∃ endpoint, s.stage call = .session endpoint .connectLock ∧ s.connectLock = some holder) ∨
    ∃ work spec address, s.stage call = .window work spec address .initializeLock ∧
      s.initializeLock address = some holder

theorem moved_setStage (h : stage ≠ s.stage call) :
    (s.setStage call stage).stage call ≠ s.stage call := by
  rwa [stage_setStage, if_pos rfl]

theorem moved_leave (h : stage ≠ s.stage call) :
    (s.leave call stage).stage call ≠ s.stage call := by
  rwa [stage_leave, if_pos rfl]

theorem moved_ready {work : Work} {spec : DistributedQuotaSpec} {init : InitializedWindow}
    {address : Nat} {place : WindowStage} (hstage : s.stage call = .window work spec address place)
    (d : QuotaShared κ) :
    ((s.setShared d).ready call work spec init).stage call ≠ s.stage call := by
  have hshared : (s.setShared d).stage call = .window work spec address place := hstage
  unfold ready
  rw [hstage, ← hshared]
  split
  · exact moved_leave (by simp [hshared])
  · exact moved_leave (by simp [hshared])

theorem moved_start (hstage : s.stage call = .idle) :
    (s.start env calls call).stage call ≠ s.stage call := by
  unfold start
  simp only
  split
  · exact moved_leave (by simp [hstage])
  split
  · exact moved_leave (by simp [hstage])
  split
  · exact moved_leave (by simp [hstage])
  split
  · exact moved_leave (s := { s with bindings := _ }) (by simp [hstage])
  · exact moved_leave (s := { s with bindings := _ }) (by simp [hstage])
  · exact moved_setStage (s := { s with bindings := _ }) (by simp [hstage])

theorem moved_sessionStep {endpoint : String} {place : SessionStage}
    (hstage : s.stage call = .session endpoint place) (hwaits : ∀ id, place ≠ .connecting id)
    (hfree : ∀ holder, ¬ s.BlockedBy call holder) :
    (s.sessionStep calls call endpoint place).stage call ≠ s.stage call := by
  cases place with
  | lookup =>
      simp only [sessionStep]
      split
      · exact moved_setStage (by simp [hstage])
      · exact moved_setStage (by simp [hstage])
  | connectLock =>
      unfold sessionStep
      cases hlock : s.connectLock with
      | some holder => exact absurd (.inl ⟨endpoint, hstage, hlock⟩) (hfree holder)
      | none => exact moved_setStage (by simp [hstage])
  | lookupAgain =>
      simp only [sessionStep]
      split
      · exact moved_leave (by simp [hstage])
      · exact moved_setStage (s := s.setShared _) (by simp [hstage, setShared])
  | connecting id => exact absurd rfl (hwaits id)

theorem moved_nextSpec {work : Work} (hstage : s.stage call = .nextSpec work) :
    (s.nextSpec calls call work).stage call ≠ s.stage call := by
  unfold nextSpec
  split
  · split
    · exact moved_leave (by simp [hstage])
    · exact moved_setStage (s := s.setShared _) (by simp [hstage, setShared])
  · split
    · exact moved_leave (by simp [hstage])
    · split
      · exact moved_setStage (s := s.setShared _) (by simp [hstage, setShared])
      · exact moved_leave (by simp [hstage])

theorem moved_enter {work : Work} {spec : DistributedQuotaSpec} {key : QuotaWindowKey}
    (hstage : s.stage call = .entering work spec key) :
    (s.enter call work spec key).stage call ≠ s.stage call := by
  unfold enter
  split
  · exact moved_setStage (by simp [hstage])
  · exact moved_setStage (s := s.setShared _) (by simp [hstage, setShared])

theorem moved_windowStep {work : Work} {spec : DistributedQuotaSpec} {address : Nat}
    {place : WindowStage} (hstage : s.stage call = .window work spec address place)
    (hwindow : ∃ window, s.heap address = some window) (hwaits : place ≠ .awaiting)
    (hfree : ∀ holder, ¬ s.BlockedBy call holder) :
    (s.windowStep calls call work spec address place).stage call ≠ s.stage call := by
  obtain ⟨window, hwindow⟩ := hwindow
  cases place with
  | lookup =>
      simp only [windowStep]
      split
      · exact moved_ready hstage s.toQuotaShared
      · exact moved_setStage (by simp [hstage])
  | initializeLock =>
      unfold windowStep
      cases hlock : s.initializeLock address with
      | some holder => exact absurd (.inr ⟨work, spec, address, hstage, hlock⟩) (hfree holder)
      | none => exact moved_setStage (by simp [hstage])
  | lookupAgain =>
      simp only [windowStep]
      split
      · exact moved_ready hstage s.toQuotaShared
      · exact moved_setStage (by simp [hstage])
  | requesting =>
      simp only [windowStep, hwindow]
      split
      · exact moved_leave (by simp [hstage])
      · split
        · exact moved_setStage (s := s.setShared _) (by simp [hstage, setShared])
        · exact moved_leave (by simp [hstage])
  | awaiting => exact absurd rfl hwaits
  | recording init =>
      simp only [windowStep, hwindow]
      exact moved_ready hstage _

/-- A call that has not ended moves on, unless it waits for an answer or for a lock. -/
theorem moved_advance (sound : ManagerSound calls s) (hended : (s.stage call).ended = false)
    (hwaits : (s.stage call).waitsForAnswer = false)
    (hfree : ∀ holder, ¬ s.BlockedBy call holder) :
    (s.advance env calls call).stage call ≠ s.stage call := by
  have hown := sound.stages call
  unfold advance
  cases hstage : s.stage call with
  | idle => simpa only [hstage] using moved_start env hstage
  | session endpoint place =>
      have hplace : ∀ id, place ≠ .connecting id := by
        rintro id rfl
        rw [hstage] at hwaits
        cases hwaits
      simpa only [hstage] using moved_sessionStep hstage hplace hfree
  | nextSpec work => simpa only [hstage] using moved_nextSpec hstage
  | entering work spec key => simpa only [hstage] using moved_enter hstage
  | window work spec address place =>
      rw [hstage] at hown
      obtain ⟨-, ⟨key, haddress, -⟩, -⟩ := hown
      obtain ⟨window, hwindow, -⟩ := Option.map_eq_some_iff.mp haddress
      have hplace : place ≠ .awaiting := by
        rintro rfl
        rw [hstage] at hwaits
        cases hwaits
      simpa only [hstage] using moved_windowStep hstage ⟨window, hwindow⟩ hplace hfree
  | awaiting work clientKey =>
      rw [hstage] at hwaits
      cases hwaits
  | returned result =>
      rw [hstage] at hended
      cases hended
  | dropped =>
      rw [hstage] at hended
      cases hended

omit [DecidableEq κ] in
/-- A call that holds a lock has not ended and waits for no lock itself. -/
theorem free_of_holds (locks : LocksHeld s) {blocked holder : κ}
    (h : s.BlockedBy blocked holder) :
    holder ≠ blocked ∧ (s.stage holder).ended = false ∧ ∀ other, ¬ s.BlockedBy holder other := by
  have hholds : (s.stage holder).connects = true ∨
      ∃ address, (s.stage holder).initializes = some address := by
    rcases h with ⟨-, -, hlock⟩ | ⟨-, -, address, -, hlock⟩
    · exact .inl ((locks.connect holder).mpr hlock)
    · exact .inr ⟨address, (locks.window holder address).mpr hlock⟩
  have hwaiting : ∀ other, ¬ s.BlockedBy holder other := by
    rintro other (⟨endpoint, hstage, -⟩ | ⟨work, spec, address, hstage, -⟩)
    · rw [hstage] at hholds
      simp [ReserveStage.connects, SessionStage.locks, ReserveStage.initializes] at hholds
    · rw [hstage] at hholds
      simp [ReserveStage.connects, WindowStage.locks, ReserveStage.initializes] at hholds
  refine ⟨?_, ?_, hwaiting⟩
  · rintro rfl
    exact hwaiting holder h
  · cases hstage : s.stage holder with
    | returned result =>
        rw [hstage] at hholds
        simp [ReserveStage.connects, ReserveStage.initializes] at hholds
    | dropped =>
        rw [hstage] at hholds
        simp [ReserveStage.connects, ReserveStage.initializes] at hholds
    | _ => rfl

end ManagerState

namespace ManagerState

variable {κ : Type} [DecidableEq κ]

/-! ## What holds in every run -/

/-- Of the sessions that were ever connected to an endpoint only the newest can be used, and it is
the one that the calls share. -/
theorem sessions_exclusive (env : EndpointEnv) (calls : κ → ReserveCall)
    (actions : List (ManagerAction κ)) :
    let s := run (step env calls) initial actions
    ∀ endpoint id other, s.sessionEndpoint id = some endpoint →
      s.sessionEndpoint other = some endpoint → s.isUsable id = true →
      s.sessions endpoint = some id ∧ other ≤ id ∧ (s.isUsable other = true → other = id) := by
  intro s endpoint id other hid hother husable
  have sound : ManagerSound calls s := managerSound_run env actions
  have hmapped := sound.shared.mapped id endpoint hid husable
  refine ⟨hmapped, sound.shared.newest id endpoint hmapped other hother, fun hboth => ?_⟩
  rw [sound.shared.mapped other endpoint hother hboth] at hmapped
  exact Option.some.inj hmapped

/-- A window is readied by one call at a time, for the key of a spec of that call and on a session
of the key's endpoint; and once it is readied on a session, no request to ready it goes out on
that session or on an older one. -/
theorem window_readied_once (env : EndpointEnv) (calls : κ → ReserveCall)
    (actions : List (ManagerAction κ)) :
    let s := run (step env calls) initial actions
    (∀ before after call sessionId address request,
      s.log = before ++ .initSent call sessionId address request :: after →
      OlderSessions before address sessionId ∧
        ∃ key, ∃ spec ∈ (calls call).specs, .connected sessionId key.endpoint ∈ before ∧
          QuotaWindowKey.fromRule (calls call).req spec key.endpoint = .ok key ∧
          buildInitRequest (calls call).clientId key spec = .ok request) ∧
    (∀ before after address key init,
      s.log = before ++ .initialized address key init :: after →
      OlderSessions before address init.sessionId) ∧
    ∀ call other address, (s.stage call).initializes = some address →
      (s.stage other).initializes = some address → other = call := by
  intro s
  have sound : ManagerSound calls s := managerSound_run env actions
  refine ⟨?_, ?_, ?_⟩
  · intro before after call sessionId address request hlog
    exact sound.shared.events before _ after hlog
  · intro before after address key init hlog
    exact sound.shared.events before _ after hlog
  · intro call other address hcall hother
    by_contra hne
    exact initializes_of_ne sound.locks hcall hne hother

/-- In every state that can be reached, a call has ended, or it waits for an answer from outside,
or its next step takes it further, or it waits for a lock whose holder waits for an answer or has
such a step. No lock stays with a call that has returned or was dropped. -/
theorem calls_never_deadlock (env : EndpointEnv) (calls : κ → ReserveCall)
    (actions : List (ManagerAction κ)) (call : κ) :
    let s := run (step env calls) initial actions
    let moves := fun call => (s.stage call).waitsForAnswer = true ∨
      (s.step env calls (.advance call)).stage call ≠ s.stage call
    ((s.stage call).ended = true ∨ moves call ∨ ∃ holder, s.BlockedBy call holder ∧ moves holder) ∧
    ((s.stage call).ended = true →
      s.connectLock ≠ some call ∧ ∀ address, s.initializeLock address ≠ some call) := by
  intro s moves
  have sound : ManagerSound calls s := managerSound_run env actions
  have hmoves : ∀ other, (s.stage other).ended = false →
      (∀ holder, ¬ s.BlockedBy other holder) → moves other := by
    intro other hended hfree
    cases hwaits : (s.stage other).waitsForAnswer with
    | true => exact .inl hwaits
    | false => exact .inr (moved_advance env sound hended hwaits hfree)
  constructor
  · cases hended : (s.stage call).ended with
    | true => exact .inl rfl
    | false =>
        right
        by_cases hblocked : ∃ holder, s.BlockedBy call holder
        · obtain ⟨holder, hblocked⟩ := hblocked
          obtain ⟨-, hrunning, hfree⟩ := free_of_holds sound.locks hblocked
          exact .inr ⟨holder, hblocked, hmoves holder hrunning hfree⟩
        · exact .inl (hmoves call hended (not_exists.mp hblocked))
  · intro hended
    constructor
    · intro hlock
      have hconnects := (sound.locks.connect call).mpr hlock
      cases hstage : s.stage call <;> simp_all [ReserveStage.ended, ReserveStage.connects]
    · intro address hlock
      have hinitializes := (sound.locks.window call address).mpr hlock
      cases hstage : s.stage call <;> simp_all [ReserveStage.ended, ReserveStage.initializes]

end ManagerState

end PoleClient.RateLimit
