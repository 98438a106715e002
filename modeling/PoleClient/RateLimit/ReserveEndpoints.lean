import PoleClient.RateLimit.ManagerRuns

/-! # The endpoint that a call reserves on

A call chooses its endpoint once, when it begins. The session on which it later
sends its request, and to which the lease that it returns belongs, is one of the
endpoint that it chose.
-/

namespace PoleClient.RateLimit

open Lib

namespace ManagerState

variable {κ : Type} [DecidableEq κ]

/-! ## Choices -/

/-- The call has not begun, and the limiter that `endpoint_for` now selects is the endpoint. -/
structure Picks (env : EndpointEnv) (calls : κ → ReserveCall) (s : ManagerState κ) (call : κ)
    (endpoint : String) : Prop where
  idle : s.stage call = .idle
  selected : ∃ affinity, callAffinity (calls call).req (calls call).specs = .ok affinity ∧
    (s.bindings.endpointFor env (calls call).instances affinity).1 = .ok endpoint

/-- Somewhere in the run the call began and chose the endpoint. -/
def Chose (env : EndpointEnv) (calls : κ → ReserveCall) (actions : List (ManagerAction κ))
    (call : κ) (endpoint : String) : Prop :=
  ∃ earlier later, actions = earlier ++ .advance call :: later ∧
    Picks env calls (run (step env calls) initial earlier) call endpoint

theorem chose_nil {env : EndpointEnv} {calls : κ → ReserveCall} {call : κ} {endpoint : String} :
    ¬ Chose env calls [] call endpoint := by
  rintro ⟨earlier, later, h, -⟩
  simp at h

theorem chose_concat {env : EndpointEnv} {calls : κ → ReserveCall}
    {actions : List (ManagerAction κ)} {action : ManagerAction κ} {call : κ} {endpoint : String} :
    Chose env calls (actions ++ [action]) call endpoint ↔ Chose env calls actions call endpoint ∨
      action = .advance call ∧
        Picks env calls (run (step env calls) initial actions) call endpoint := by
  constructor
  · rintro ⟨earlier, later, h, hpicks⟩
    rcases List.eq_nil_or_concat later with rfl | ⟨middle, last, rfl⟩
    · obtain ⟨rfl, haction⟩ := List.append_inj' h rfl
      exact .inr ⟨List.singleton_inj.mp haction, hpicks⟩
    · have hsplit : actions ++ [action] = (earlier ++ .advance call :: middle) ++ [last] := by
        simpa using h
      exact .inl ⟨earlier, middle, (List.append_inj' hsplit rfl).1, hpicks⟩
  · rintro (⟨earlier, later, rfl, hpicks⟩ | ⟨rfl, hpicks⟩)
    · exact ⟨earlier, later ++ [action], by simp, hpicks⟩
    · exact ⟨actions, [], rfl, hpicks⟩

/-! ## What follows a choice -/

variable {calls : κ → ReserveCall} {chose : κ → String → Prop} {s t : ManagerState κ}
  {d : QuotaShared κ} {call : κ} {stage : ReserveStage} {log more : List (QuotaEvent κ)}

def OnChosen (chose : κ → String → Prop) (log : List (QuotaEvent κ)) (call : κ) (id : Nat) : Prop :=
  ∃ endpoint, chose call endpoint ∧ .connected id endpoint ∈ log

/-- Before it begins, a call has chosen nothing; then it stays with what it chose. -/
def Held (chose : κ → String → Prop) (log : List (QuotaEvent κ)) (call : κ) : ReserveStage → Prop
  | .idle => ∀ endpoint, ¬ chose call endpoint
  | .session endpoint _ => chose call endpoint
  | .nextSpec work | .entering work _ _ | .window work _ _ _ | .awaiting work _ =>
      chose call work.endpoint
  | .returned (.ok (.reserved id _)) => OnChosen chose log call id
  | _ => True

structure Tied (chose : κ → String → Prop) (s : ManagerState κ) : Prop where
  unique : ∀ call endpoint other, chose call endpoint → chose call other → other = endpoint
  stages : ∀ call, Held chose s.log call (s.stage call)
  sent : ∀ call id request, .reserveSent call id request ∈ s.log → OnChosen chose s.log call id

/-- The log has grown, but by no request to reserve. -/
structure Quiet (log more : List (QuotaEvent κ)) : Prop where
  sub : log ⊆ more
  sent : ∀ call id request, .reserveSent call id request ∈ more →
    .reserveSent call id request ∈ log

omit [DecidableEq κ] in
theorem Quiet.refl (log : List (QuotaEvent κ)) : Quiet log log :=
  ⟨List.Subset.refl _, fun _ _ _ h => h⟩

omit [DecidableEq κ] in
theorem quiet_append {event : QuotaEvent κ}
    (h : ∀ call id request, event ≠ .reserveSent call id request) :
    Quiet log (log ++ [event]) where
  sub := List.subset_append_left _ _
  sent := by
    intro call id request hsent
    rcases List.mem_append.mp hsent with hold | hnew
    · exact hold
    · exact absurd (List.mem_singleton.mp hnew).symm (h call id request)

omit [DecidableEq κ] in
theorem Held.grow (sub : log ⊆ more) (h : Held chose log call stage) :
    Held chose more call stage := by
  cases stage with
  | returned result =>
      cases result with
      | error err => trivial
      | ok outcome =>
          cases outcome with
          | rejected message => trivial
          | reserved id lease =>
              obtain ⟨endpoint, hchose, hconnected⟩ := h
              exact ⟨endpoint, hchose, sub hconnected⟩
  | _ => exact h

omit [DecidableEq κ] in
theorem Tied.own (tied : Tied chose s) (hstage : s.stage call = stage) :
    Held chose s.log call stage :=
  hstage ▸ tied.stages call

/-- The call moves on, and what it sends goes out on a session of the endpoint it chose. -/
theorem tied_sent (tied : Tied chose s) (hstages : t.stage = Function.update s.stage call stage)
    (sub : s.log ⊆ t.log)
    (hsent : ∀ other id request, .reserveSent other id request ∈ t.log →
      .reserveSent other id request ∈ s.log ∨ OnChosen chose t.log other id)
    (own : Held chose t.log call stage) : Tied chose t where
  unique := tied.unique
  stages := by
    intro other
    rw [hstages, Function.update_apply]
    by_cases hcall : other = call
    · rw [if_pos hcall, hcall]
      exact own
    · rw [if_neg hcall]
      exact (tied.stages other).grow sub
  sent := by
    intro other id request hevent
    rcases hsent other id request hevent with hold | hnew
    · obtain ⟨endpoint, hchose, hconnected⟩ := tied.sent other id request hold
      exact ⟨endpoint, hchose, sub hconnected⟩
    · exact hnew

theorem tied_moved (tied : Tied chose s) (hstages : t.stage = Function.update s.stage call stage)
    (quiet : Quiet s.log t.log) (own : Held chose t.log call stage) : Tied chose t :=
  tied_sent tied hstages quiet.sub
    (fun other id request h => .inl (quiet.sent other id request h)) own

variable (env : EndpointEnv)

theorem tied_sessionStep (tied : Tied chose s) {endpoint : String} {place : SessionStage}
    (hstage : s.stage call = .session endpoint place) :
    Tied chose (s.sessionStep calls call endpoint place) := by
  have hown : chose call endpoint := tied.own hstage
  cases place with
  | lookup =>
      simp only [sessionStep]
      split
      · exact tied_moved tied rfl (.refl _) hown
      · exact tied_moved tied rfl (.refl _) hown
  | connectLock =>
      simp only [sessionStep]
      split
      · exact tied_moved tied rfl (.refl _) hown
      · exact tied
  | lookupAgain =>
      simp only [sessionStep]
      split
      · exact tied_moved tied rfl (.refl _) hown
      · exact tied_moved tied rfl (.refl _) hown
  | connecting id => exact tied

theorem tied_finishConnect (tied : Tied chose s) {endpoint : String} {id : Nat}
    (hstage : s.stage call = .session endpoint (.connecting id))
    (result : Except PoleError Unit) :
    Tied chose (s.finishConnect calls call endpoint id result) := by
  have hown : chose call endpoint := tied.own hstage
  cases result with
  | error err => exact tied_moved tied rfl (.refl _) trivial
  | ok _ => exact tied_moved tied rfl (quiet_append (by simp)) hown

/-- The request goes out on the session of the endpoint that the call works on. -/
theorem tied_nextSpec (tied : Tied chose s) (sound : ManagerSound calls s) {work : Work}
    (hstage : s.stage call = .nextSpec work) : Tied chose (s.nextSpec calls call work) := by
  have hown : chose call work.endpoint := tied.own hstage
  have hwork := sound.stages call
  rw [hstage] at hwork
  unfold nextSpec
  split
  · split
    · exact tied_moved tied rfl (.refl _) trivial
    · exact tied_moved tied rfl (.refl _) hown
  · split
    · exact tied_moved tied rfl (.refl _) trivial
    · split
      · have sub := List.subset_append_left s.log
        refine tied_sent tied rfl (sub _) (fun other id request hevent => ?_) hown
        rcases mem_record.mp hevent with hold | hnew
        · exact .inl hold
        · cases hnew
          exact .inr ⟨work.endpoint, hown, sub _ hwork.session⟩
      · exact tied_moved tied rfl (.refl _) trivial

theorem tied_enter (tied : Tied chose s) {work : Work} {spec : DistributedQuotaSpec}
    {key : QuotaWindowKey} (hstage : s.stage call = .entering work spec key) :
    Tied chose (s.enter call work spec key) := by
  have hown : chose call work.endpoint := tied.own hstage
  unfold enter
  split
  · exact tied_moved tied rfl (.refl _) hown
  · exact tied_moved tied rfl (.refl _) hown

theorem endpoint_absorb {work after : Work} {spec : DistributedQuotaSpec}
    {init : InitializedWindow} (h : work.absorb spec init = .ok after) :
    after.endpoint = work.endpoint := by
  unfold Work.absorb at h
  split at h
  · cases h
  · split at h
    · cases h
    · split at h
      · cases h
      · rw [← Except.ok.inj h]

theorem tied_ready (tied : Tied chose s) (quiet : Quiet s.log d.log) {work : Work}
    (hown : chose call work.endpoint) (spec : DistributedQuotaSpec) (init : InitializedWindow) :
    Tied chose ((s.setShared d).ready call work spec init) := by
  unfold ready
  cases habsorb : work.absorb spec init with
  | error err => exact tied_moved tied rfl quiet trivial
  | ok after =>
      have hafter : chose call after.endpoint := endpoint_absorb habsorb ▸ hown
      exact tied_moved tied rfl quiet hafter

theorem tied_windowStep (tied : Tied chose s) {work : Work} {spec : DistributedQuotaSpec}
    {address : Nat} {place : WindowStage}
    (hstage : s.stage call = .window work spec address place) :
    Tied chose (s.windowStep calls call work spec address place) := by
  have hown : chose call work.endpoint := tied.own hstage
  cases place with
  | lookup =>
      simp only [windowStep]
      split
      · exact tied_ready tied (.refl _) hown _ _
      · exact tied_moved tied rfl (.refl _) hown
  | initializeLock =>
      simp only [windowStep]
      split
      · exact tied
      · exact tied_moved tied rfl (.refl _) hown
  | lookupAgain =>
      simp only [windowStep]
      split
      · exact tied_ready tied (.refl _) hown _ _
      · exact tied_moved tied rfl (.refl _) hown
  | requesting =>
      simp only [windowStep]
      split
      · exact tied
      · split
        · exact tied_moved tied rfl (.refl _) trivial
        · split
          · exact tied_moved tied rfl (quiet_append (by simp)) hown
          · exact tied_moved tied rfl (.refl _) trivial
  | awaiting => exact tied
  | recording init =>
      simp only [windowStep]
      split
      · exact tied
      · exact tied_ready tied (quiet_append (by simp)) hown _ _

/-- A lease comes from the session on which the request went out. -/
theorem tied_reserveAnswer (tied : Tied chose s) (sound : ManagerSound calls s) {work : Work}
    {clientKey : UInt32} (hstage : s.stage call = .awaiting work clientKey)
    (answer : Except PoleError RemoteRateLimitResponse) :
    Tied chose (s.leave call (.returned (work.outcome clientKey answer))) := by
  have hown : chose call work.endpoint := tied.own hstage
  have hgroups := sound.stages call
  rw [hstage] at hgroups
  refine tied_moved (t := s.leave call _) tied rfl (.refl _) ?_
  cases houtcome : work.outcome clientKey answer with
  | error err => trivial
  | ok outcome =>
      cases outcome with
      | rejected message => trivial
      | reserved id lease =>
          obtain ⟨rfl, -, -⟩ := outcome_eq_reserved houtcome
          exact ⟨work.endpoint, hown, hgroups.session⟩

/-- A step that begins no call makes no choice. -/
theorem tied_step (tied : Tied chose s) (sound : ManagerSound calls s) (action : ManagerAction κ)
    (hbegins : ∀ call, action = .advance call → s.stage call ≠ .idle) :
    Tied chose (s.step env calls action) := by
  cases action with
  | advance call =>
      simp only [step, advance]
      split
      · rename_i hstage
        exact absurd hstage (hbegins call rfl)
      · rename_i hstage
        exact tied_sessionStep tied hstage
      · rename_i hstage
        exact tied_nextSpec tied sound hstage
      · rename_i hstage
        exact tied_enter tied hstage
      · rename_i hstage
        exact tied_windowStep tied hstage
      · exact tied
      · exact tied
      · exact tied
  | connectResult call result =>
      simp only [step]
      split
      · rename_i hstage
        exact tied_finishConnect tied hstage result
      · exact tied
  | initAnswer call answer =>
      simp only [step]
      split
      · rename_i hstage
        have hown := tied.own hstage
        split
        · exact tied_moved tied rfl (.refl _) trivial
        · exact tied_moved tied rfl (.refl _) hown
      · exact tied
  | reserveAnswer call answer =>
      simp only [step]
      split
      · rename_i hstage
        exact tied_reserveAnswer tied sound hstage answer
      · exact tied
  | cancel call =>
      simp only [step]
      split
      · exact tied
      · exact tied_moved tied rfl (.refl _) trivial
  | sessionFails id => exact ⟨tied.unique, tied.stages, tied.sent⟩

/-! ## Beginning -/

theorem start_cases (env : EndpointEnv) (calls : κ → ReserveCall) (s : ManagerState κ) (call : κ)
    (hstage : s.stage call = .idle) :
    (s.start env calls call).log = s.log ∧ ∃ stage,
      (s.start env calls call).stage = Function.update s.stage call stage ∧
      ((∃ endpoint, stage = .session endpoint .lookup ∧ Picks env calls s call endpoint) ∨
        stage = .dropped ∨ ∃ err, stage = .returned (.error err)) := by
  unfold start
  simp only
  split
  · exact ⟨rfl, _, rfl, .inr (.inr ⟨_, rfl⟩)⟩
  split
  · exact ⟨rfl, _, rfl, .inr (.inr ⟨_, rfl⟩)⟩
  split
  · exact ⟨rfl, _, rfl, .inr (.inr ⟨_, rfl⟩)⟩
  rename_i affinity haffinity
  split
  · exact ⟨rfl, _, rfl, .inr (.inr ⟨_, rfl⟩)⟩
  · exact ⟨rfl, _, rfl, .inr (.inl rfl)⟩
  · rename_i endpoint bindings hendpoint
    refine ⟨rfl, _, rfl, .inl ⟨endpoint, rfl, hstage, affinity, haffinity, ?_⟩⟩
    rw [hendpoint]

variable {env}

omit [DecidableEq κ] in
theorem Picks.unique {endpoint other : String} (h : Picks env calls s call endpoint)
    (hother : Picks env calls s call other) : other = endpoint := by
  obtain ⟨affinity, haffinity, hendpoint⟩ := h.selected
  obtain ⟨same, hsame, hselected⟩ := hother.selected
  rw [haffinity] at hsame
  obtain rfl := Except.ok.inj hsame
  rw [hendpoint] at hselected
  injection hselected with hsame
  exact hsame.symm

omit [DecidableEq κ] in
theorem Held.of_iff {chosen : κ → String → Prop}
    (same : ∀ endpoint, chosen call endpoint ↔ chose call endpoint)
    (h : Held chose log call stage) : Held chosen log call stage := by
  have hsame : chosen call = chose call := funext fun endpoint => propext (same endpoint)
  cases stage with
  | returned result =>
      cases result with
      | error err => trivial
      | ok outcome =>
          cases outcome with
          | rejected message => trivial
          | reserved id lease => simpa only [Held, OnChosen, hsame] using h
  | dropped => trivial
  | _ => simpa only [Held, hsame] using h

/-- The choice that a call makes when it begins is its first. -/
theorem tied_begin (tied : Tied chose s) (hstage : s.stage call = .idle)
    {chosen : κ → String → Prop}
    (hchosen : ∀ other endpoint, chosen other endpoint ↔
      chose other endpoint ∨ other = call ∧ Picks env calls s call endpoint) :
    Tied chosen (s.start env calls call) := by
  have hnone : ∀ endpoint, ¬ chose call endpoint := tied.own hstage
  have hsame : ∀ other, other ≠ call → ∀ endpoint, chosen other endpoint ↔ chose other endpoint :=
    fun other hne endpoint => by simp [hchosen, hne]
  obtain ⟨hlog, stage, hstages, hown⟩ := start_cases env calls s call hstage
  refine ⟨?_, ?_, ?_⟩
  · intro other endpoint last hendpoint hlast
    rcases (hchosen _ _).mp hendpoint with hbefore | ⟨rfl, hpicks⟩
    · rcases (hchosen _ _).mp hlast with hother | ⟨rfl, -⟩
      · exact tied.unique other endpoint last hbefore hother
      · exact absurd hbefore (hnone endpoint)
    · rcases (hchosen _ _).mp hlast with hother | ⟨-, hagain⟩
      · exact absurd hother (hnone last)
      · exact hpicks.unique hagain
  · intro other
    rw [hstages, hlog, Function.update_apply]
    by_cases hcall : other = call
    · rw [if_pos hcall, hcall]
      rcases hown with ⟨endpoint, rfl, hpicks⟩ | rfl | ⟨err, rfl⟩
      · exact (hchosen _ _).mpr (.inr ⟨rfl, hpicks⟩)
      · trivial
      · trivial
    · rw [if_neg hcall]
      exact (tied.stages other).of_iff (hsame other hcall)
  · intro other id request hsent
    rw [hlog] at hsent ⊢
    obtain ⟨endpoint, hchose, hconnected⟩ := tied.sent other id request hsent
    exact ⟨endpoint, (hchosen _ _).mpr (.inl hchose), hconnected⟩

omit [DecidableEq κ] in
theorem chosen_of_connected (sound : ManagerSound calls s) {endpoint : String} {id : Nat}
    (hsession : .connected id endpoint ∈ s.log) (h : OnChosen chose s.log call id) :
    chose call endpoint := by
  obtain ⟨other, hchose, hconnected⟩ := h
  have hother := (sound.shared.logged id other).mpr hconnected
  rw [(sound.shared.logged id endpoint).mpr hsession] at hother
  rwa [Option.some.inj hother]

variable (env)

/-- In a run every call stays with the endpoint that it chose when it began. -/
theorem tied_run (calls : κ → ReserveCall) (actions : List (ManagerAction κ)) :
    Tied (Chose env calls actions) (run (step env calls) initial actions) := by
  induction actions using List.reverseRecOn with
  | nil =>
      refine ⟨fun call endpoint _ h => absurd h chose_nil, fun call endpoint => chose_nil, ?_⟩
      intro call id request h
      cases h
  | append_singleton actions action ih =>
      have sound : ManagerSound calls (run (step env calls) initial actions) :=
        managerSound_run env actions
      rw [run_append, run_cons, run_nil]
      by_cases hbegins : ∃ call, action = .advance call ∧
          (run (step env calls) initial actions).stage call = .idle
      · obtain ⟨call, rfl, hstage⟩ := hbegins
        simp only [step, advance, hstage]
        refine tied_begin ih hstage fun other endpoint => ?_
        rw [chose_concat, ManagerAction.advance.injEq]
        constructor
        · rintro (h | ⟨rfl, h⟩)
          · exact .inl h
          · exact .inr ⟨rfl, h⟩
        · rintro (h | ⟨rfl, h⟩)
          · exact .inl h
          · exact .inr ⟨rfl, h⟩
      · have hsame : Chose env calls (actions ++ [action]) = Chose env calls actions := by
          funext call endpoint
          rw [chose_concat, eq_iff_iff, or_iff_left]
          exact fun h => hbegins ⟨call, h.1, h.2.idle⟩
        rw [hsame]
        exact tied_step env ih sound action fun call haction hstage =>
          hbegins ⟨call, haction, hstage⟩

/-- A call chooses one endpoint at most. It reserves, on a session of the endpoint that it chose,
exactly from the counters that the limiter has handed out before on this session for the windows
of its specs, each counter once, and for its time to live rounded up to a second. The lease that
it returns is over the same counters. -/
theorem reserve_from_own_session (env : EndpointEnv) (calls : κ → ReserveCall)
    (actions : List (ManagerAction κ)) :
    let s := run (step env calls) initial actions
    (∀ call endpoint other, Chose env calls actions call endpoint →
      Chose env calls actions call other → other = endpoint) ∧
    (∀ before after call sessionId request,
      s.log = before ++ .reserveSent call sessionId request :: after →
      ∃ endpoint groups, Chose env calls actions call endpoint ∧
        ReadiedGroups before (calls call).req endpoint sessionId
          request.clientKey (calls call).specs groups ∧
        request = buildReserveRequest (calls call).req request.clientKey groups ∧
        ((calls call).req.checkValid = .ok () →
          (calls call).req.leaseTtl ≤ request.ttlSeconds.toNat * nanosPerSecond ∧
            request.ttlSeconds.toNat * nanosPerSecond <
              (calls call).req.leaseTtl + nanosPerSecond)) ∧
    ∀ call sessionId lease, s.stage call = .returned (.ok (.reserved sessionId lease)) →
      ∃ endpoint, Chose env calls actions call endpoint ∧
        ReadiedGroups s.log (calls call).req endpoint sessionId lease.clientKey
          (calls call).specs lease.groups := by
  intro s
  have sound : ManagerSound calls s := managerSound_run env actions
  have tied : Tied (Chose env calls actions) s := tied_run env calls actions
  refine ⟨tied.unique, ?_, ?_⟩
  · intro before after call sessionId request hlog
    obtain ⟨endpoint, groups, hgroups, hrequest⟩ := sound.shared.events before _ after hlog
    have hsession : .connected sessionId endpoint ∈ s.log := by
      rw [hlog]
      exact List.mem_append_left _ hgroups.session
    have hsent : .reserveSent call sessionId request ∈ s.log := by simp [hlog]
    have hchose := chosen_of_connected sound hsession (tied.sent call sessionId request hsent)
    refine ⟨endpoint, groups, hchose, hgroups, hrequest, fun valid => ?_⟩
    rw [hrequest]
    exact ttlSeconds_bounds valid
  · intro call sessionId lease hstage
    have hown := sound.stages call
    rw [hstage] at hown
    obtain ⟨endpoint, hgroups⟩ := hown
    exact ⟨endpoint, chosen_of_connected sound hgroups.session (tied.own hstage), hgroups⟩

end ManagerState

end PoleClient.RateLimit
