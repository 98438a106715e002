import PoleClient.Discovery.Offline

/-! # Online from the registration on

Until the provider has registered the instance, no request finds it ready. From the
registration on every request does, as long as nobody takes the instance offline or
schedules it anew.
-/

namespace PoleClient.Discovery

open Lib

/-! ## Before the registration -/

/-- The provider is set, and no endpoint state that answers on readiness is registered. -/
def Unregistered (self : LosslessActionRegistry) : Prop :=
  self.hasActionProvider = true ∧
    ∀ ref, (self.endpointStates ref).readinessEnabled = true →
      (self.endpointStates ref).registered = false

/-- The thread has not come past the registration by the provider. -/
def NotPast (self : LosslessActionRegistry) : LosslessThread → Prop
  | .registerState => False
  | .registerStoreOffline _ => False
  | .registerStoreRegistered _ => False
  | .readinessRegistered ref =>
      ref ≤ self.endpointState ∧ (self.endpointStates ref).readinessEnabled = true
  | .readinessOffline _ => False
  | _ => True

theorem unregistered_modify {self : LosslessActionRegistry} (inv : Unregistered self) (ref : Nat)
    {f : LosslessEndpointState → LosslessEndpointState}
    (enabled : ∀ state, (f state).readinessEnabled = state.readinessEnabled)
    (registered : ∀ state, state.registered = false → (f state).registered = false) :
    Unregistered (self.modifyEndpointState ref f) := by
  refine ⟨inv.1, fun other => ?_⟩
  unfold LosslessActionRegistry.modifyEndpointState
  simp only
  split
  · rw [enabled]
    exact fun hready => registered _ (inv.2 ref hready)
  · exact inv.2 other

theorem unregistered_setEndpointState {self : LosslessActionRegistry} (inv : Unregistered self)
    (plan : LosslessExecutionPlan) : Unregistered (self.setEndpointState (.fromPlan plan)) := by
  refine ⟨inv.1, fun ref => ?_⟩
  unfold LosslessActionRegistry.setEndpointState
  simp only
  split
  · intro hready
    simpa [LosslessEndpointState.fromPlan, LosslessEndpointState.new] using hready
  · exact inv.2 ref

theorem notPast_modify {self : LosslessActionRegistry} {thread : LosslessThread}
    (fact : NotPast self thread) (ref : Nat) {f : LosslessEndpointState → LosslessEndpointState}
    (enabled : ∀ state, (f state).readinessEnabled = state.readinessEnabled) :
    NotPast (self.modifyEndpointState ref f) thread := by
  cases thread with
  | readinessRegistered other =>
      refine ⟨fact.1, ?_⟩
      unfold LosslessActionRegistry.modifyEndpointState
      simp only
      split
      · rename_i hsame
        rw [enabled, ← hsame]
        exact fact.2
      · exact fact.2
  | _ => exact fact

theorem notPast_setEndpointState {self : LosslessActionRegistry} {thread : LosslessThread}
    (fact : NotPast self thread) (state : LosslessEndpointState) :
    NotPast (self.setEndpointState state) thread := by
  cases thread with
  | readinessRegistered ref =>
      refine ⟨Nat.le_succ_of_le fact.1, ?_⟩
      have hne : ref ≠ self.endpointState + 1 := by
        have := fact.1
        omega
      unfold LosslessActionRegistry.setEndpointState
      simp only
      rw [if_neg hne]
      exact fact.2
  | _ => exact fact

theorem program_unregistered {self : LosslessActionRegistry} {thread : LosslessThread}
    (answer : HealthAnswer) (inv : Unregistered self) (fact : NotPast self thread)
    (quiet : (losslessProgram self thread answer).event ≠ some .doRegister) :
    Unregistered (losslessProgram self thread answer).shared ∧
      NotPast (losslessProgram self thread answer).shared
        (losslessProgram self thread answer).thread ∧
      ∀ other, NotPast self other → NotPast (losslessProgram self thread answer).shared other := by
  cases thread with
  | setActionProvider => exact ⟨⟨rfl, inv.2⟩, trivial, fun other h => by cases other <;> exact h⟩
  | schedule plan =>
      exact ⟨unregistered_setEndpointState inv plan, trivial,
        fun _ h => notPast_setEndpointState h _⟩
  | delayed delay =>
      refine ⟨inv, ?_, fun _ h => h⟩
      simp only [losslessProgram, waited]
      split
      · split <;> trivial
      · trivial
  | registerFind =>
      refine ⟨inv, ?_, fun _ h => h⟩
      simp only [losslessProgram, inv.1, if_true]
      trivial
  | registerAct => exact absurd rfl quiet
  | registerState => cases fact
  | registerStoreOffline ref => cases fact
  | registerStoreRegistered ref => cases fact
  | deregisterFind served =>
      refine ⟨inv, ?_, fun _ h => h⟩
      simp only [losslessProgram]
      split <;> trivial
  | deregisterAct served => exact ⟨inv, trivial, fun _ h => h⟩
  | deregisterState served => exact ⟨inv, trivial, fun _ h => h⟩
  | deregisterStoreRegistered served ref =>
      exact ⟨unregistered_modify inv ref (fun _ => rfl) fun _ _ => rfl, trivial,
        fun _ h => notPast_modify h ref fun _ => rfl⟩
  | deregisterStoreOffline served ref =>
      exact ⟨unregistered_modify inv ref (fun _ => rfl) fun _ h => h, trivial,
        fun _ h => notPast_modify h ref fun _ => rfl⟩
  | request path =>
      refine ⟨inv, ?_, fun _ h => h⟩
      simp only [losslessProgram, handlePath]
      split
      · cases hready : (self.endpointStates self.endpointState).readinessEnabled with
        | false => trivial
        | true => exact ⟨Nat.le_refl _, hready⟩
      · split
        · split <;> trivial
        · trivial
  | readinessRegistered ref =>
      have hprogram : losslessProgram self (.readinessRegistered ref) answer =
          ⟨self, .finished, some (.answered "/readiness" notReady)⟩ := by
        simp [losslessProgram, inv.2 ref fact.2]
      rw [hprogram]
      exact ⟨inv, trivial, fun _ h => h⟩
  | readinessOffline ref => cases fact
  | offlineStoreRegistered ref =>
      exact ⟨unregistered_modify inv ref (fun _ => rfl) fun _ _ => rfl, trivial,
        fun _ h => notPast_modify h ref fun _ => rfl⟩
  | offlineStoreOffline ref =>
      exact ⟨unregistered_modify inv ref (fun _ => rfl) fun _ h => h, trivial,
        fun _ h => notPast_modify h ref fun _ => rfl⟩
  | finished => exact ⟨inv, trivial, fun _ h => h⟩

theorem event_unregistered {self : LosslessActionRegistry} {thread : LosslessThread}
    (answer : HealthAnswer) (inv : Unregistered self) (fact : NotPast self thread) :
    (losslessProgram self thread answer).event ≠ some (.answered "/readiness" ready) := by
  cases thread with
  | deregisterStoreOffline served ref =>
      cases served with
      | false => simp [losslessProgram]
      | true => simp [losslessProgram, offlineServed]
  | request path =>
      simp only [losslessProgram, handlePath]
      split
      · split
        · simp [ready]
        · simp
      · rename_i hpath
        split
        · split
          · simp [hpath]
          · simp
        · simp [hpath]
  | readinessRegistered ref =>
      simp [losslessProgram, inv.2 ref fact.2, notReady, ready]
  | readinessOffline ref => cases fact
  | _ => simp [losslessProgram]

/-! ## Runs before the registration -/

def losslessEvents : LosslessState → List LosslessMove → List LosslessEvent
  | _, [] => []
  | s, move :: moves =>
      (losslessEvent s move).toList ++ losslessEvents (losslessStep s move) moves

abbrev BeforeRegistration (s : LosslessState) : Prop := Threads.Holds Unregistered NotPast s

theorem beforeRegistration_step {s : LosslessState} {move : LosslessMove}
    (before : BeforeRegistration s) (quiet : losslessEvent s move ≠ some .doRegister) :
    BeforeRegistration (losslessStep s move) := by
  cases move with
  | call begun =>
      refine ⟨before.shared, fun thread hthread => ?_⟩
      rcases List.mem_append.mp hthread with hold | hnew
      · exact before.threads thread hold
      · rw [List.mem_singleton.mp hnew]
        cases begun <;> trivial
  | advance index answer =>
      cases hthread : s.threads[index]? with
      | none =>
          have hstays : losslessStep s (.advance index answer) = s :=
            Threads.moveStep_none hthread answer
          rw [hstays]
          exact before
      | some thread =>
          have hevent : losslessEvent s (.advance index answer) =
              (losslessProgram s.shared thread answer).event := by
            simp [losslessEvent, LosslessMove.move, Threads.emitted, hthread]
          rw [hevent] at quiet
          obtain ⟨hinv, hown, hothers⟩ := program_unregistered answer before.shared
            (before.threads thread (List.mem_of_getElem? hthread)) quiet
          exact Threads.holds_advance before hthread hinv hown hothers

theorem beforeRegistration_run {s : LosslessState} {moves : List LosslessMove}
    (before : BeforeRegistration s) (quiet : .doRegister ∉ losslessEvents s moves) :
    BeforeRegistration (run losslessStep s moves) := by
  induction moves generalizing s with
  | nil => exact before
  | cons move moves ih =>
      rw [losslessEvents, List.mem_append, not_or] at quiet
      refine ih (beforeRegistration_step before ?_) quiet.2
      intro hevent
      rw [hevent] at quiet
      exact quiet.1 (List.mem_singleton.mpr rfl)

def setup (answer : HealthAnswer) : List LosslessMove :=
  [.call .setActionProvider, .advance 0 answer]

theorem beforeRegistration_setup (answer : HealthAnswer) :
    BeforeRegistration (run losslessStep .start (setup answer)) := by
  constructor
  · exact ⟨rfl, fun ref hready => by cases hready⟩
  · intro thread hthread
    have hthreads : (run losslessStep .start (setup answer)).threads = [.finished] := rfl
    rw [hthreads, List.mem_singleton] at hthread
    rw [hthread]
    trivial

/-- Where a request finds the instance ready, the provider has registered it before. -/
theorem registered_of_ready {answer : HealthAnswer} {moves : List LosslessMove}
    {move : LosslessMove}
    (h : losslessEvent (run losslessStep .start (setup answer ++ moves)) move =
      some (.answered "/readiness" ready)) :
    .doRegister ∈ losslessEvents (run losslessStep .start (setup answer)) moves := by
  apply Classical.byContradiction
  intro hquiet
  rw [run_append] at h
  have hbefore := beforeRegistration_run (beforeRegistration_setup answer) hquiet
  obtain ⟨index, input, thread, -, hthread, hevent⟩ := Threads.emitted_eq_some h
  exact event_unregistered input hbefore.shared
    (hbefore.threads thread (List.mem_of_getElem? hthread)) hevent

/-! ## After the registration -/

/-- The endpoint state in use answers on readiness, that the instance is ready. -/
def Online (self : LosslessActionRegistry) : Prop :=
  (self.endpointStates self.endpointState).readinessEnabled = true ∧
    (self.endpointStates self.endpointState).registered = true ∧
    (self.endpointStates self.endpointState).offline = false

/-- The thread neither takes the instance offline nor exchanges the endpoint state, and asks no
other one about readiness. -/
def undisturbing (self : LosslessActionRegistry) : LosslessThread → Bool
  | .schedule _ => false
  | .deregisterFind _ => false
  | .deregisterAct _ => false
  | .deregisterState _ => false
  | .deregisterStoreRegistered _ ref => ref ≠ self.endpointState
  | .deregisterStoreOffline _ ref => ref ≠ self.endpointState
  | .request path => path ≠ "/offline"
  | .readinessRegistered ref => ref = self.endpointState
  | .readinessOffline ref => ref = self.endpointState
  | .offlineStoreRegistered _ => false
  | .offlineStoreOffline _ => false
  | _ => true

def Undisturbing (self : LosslessActionRegistry) (thread : LosslessThread) : Prop :=
  undisturbing self thread = true

theorem undisturbing_congr {self next : LosslessActionRegistry}
    (same : next.endpointState = self.endpointState) (thread : LosslessThread) :
    undisturbing next thread = undisturbing self thread := by
  unfold undisturbing
  rw [same]

theorem online_modify {self : LosslessActionRegistry} (inv : Online self) (ref : Nat)
    {f : LosslessEndpointState → LosslessEndpointState}
    (kept : ref = self.endpointState → ∀ state, state.readinessEnabled = true →
      state.registered = true → state.offline = false →
      (f state).readinessEnabled = true ∧ (f state).registered = true ∧
        (f state).offline = false) :
    Online (self.modifyEndpointState ref f) := by
  unfold Online LosslessActionRegistry.modifyEndpointState
  simp only
  split
  · rename_i hsame
    subst hsame
    exact kept rfl _ inv.1 inv.2.1 inv.2.2
  · exact inv

theorem program_online {self : LosslessActionRegistry} {thread : LosslessThread}
    (answer : HealthAnswer) (inv : Online self) (fact : Undisturbing self thread) :
    Online (losslessProgram self thread answer).shared ∧
      (losslessProgram self thread answer).shared.endpointState = self.endpointState ∧
      Undisturbing self (losslessProgram self thread answer).thread := by
  cases thread with
  | setActionProvider => exact ⟨inv, rfl, rfl⟩
  | schedule plan => cases fact
  | delayed delay =>
      refine ⟨inv, rfl, ?_⟩
      simp only [losslessProgram, waited, Undisturbing]
      split
      · split <;> rfl
      · rfl
  | registerFind =>
      refine ⟨inv, rfl, ?_⟩
      simp only [losslessProgram, Undisturbing]
      split <;> rfl
  | registerAct => exact ⟨inv, rfl, rfl⟩
  | registerState => exact ⟨inv, rfl, rfl⟩
  | registerStoreOffline ref =>
      exact ⟨online_modify inv ref fun _ _ hready hregistered _ => ⟨hready, hregistered, rfl⟩,
        rfl, rfl⟩
  | registerStoreRegistered ref =>
      exact ⟨online_modify inv ref fun _ _ hready _ honline => ⟨hready, rfl, honline⟩, rfl, rfl⟩
  | deregisterFind served => cases fact
  | deregisterAct served => cases fact
  | deregisterState served => cases fact
  | deregisterStoreRegistered served ref =>
      have hne : ref ≠ self.endpointState := of_decide_eq_true fact
      exact ⟨online_modify inv ref fun hsame => absurd hsame hne, rfl, fact⟩
  | deregisterStoreOffline served ref =>
      have hne : ref ≠ self.endpointState := of_decide_eq_true fact
      exact ⟨online_modify inv ref fun hsame => absurd hsame hne, rfl, rfl⟩
  | request path =>
      have hpath : path ≠ "/offline" := of_decide_eq_true fact
      refine ⟨inv, rfl, ?_⟩
      simp only [losslessProgram, handlePath, Undisturbing, hpath, if_false, inv.1]
      split
      · simp [undisturbing]
      · rfl
  | readinessRegistered ref =>
      obtain rfl : ref = self.endpointState := of_decide_eq_true fact
      have hprogram : losslessProgram self (.readinessRegistered self.endpointState) answer =
          ⟨self, .readinessOffline self.endpointState, none⟩ := by
        simp [losslessProgram, inv.2.1]
      rw [hprogram]
      exact ⟨inv, rfl, fact⟩
  | readinessOffline ref => exact ⟨inv, rfl, rfl⟩
  | offlineStoreRegistered ref => cases fact
  | offlineStoreOffline ref => cases fact
  | finished => exact ⟨inv, rfl, rfl⟩

theorem event_online {self : LosslessActionRegistry} {thread : LosslessThread}
    {answer : HealthAnswer} {response : LosslessEndpointResponse} (inv : Online self)
    (fact : Undisturbing self thread)
    (h : (losslessProgram self thread answer).event =
      some (.answered "/readiness" response)) : response = ready := by
  cases thread with
  | deregisterStoreOffline served ref =>
      cases served with
      | false => cases h
      | true => simp [losslessProgram, offlineServed] at h
  | request path =>
      have hpath : path ≠ "/offline" := of_decide_eq_true fact
      simp only [losslessProgram, handlePath, hpath, if_false, inv.1] at h
      split at h
      · cases h
      · rename_i hne
        simp only [Option.some.injEq, LosslessEvent.answered.injEq] at h
        exact absurd h.1 hne
  | readinessRegistered ref =>
      obtain rfl : ref = self.endpointState := of_decide_eq_true fact
      simp [losslessProgram, inv.2.1] at h
  | readinessOffline ref =>
      obtain rfl : ref = self.endpointState := of_decide_eq_true fact
      simpa [losslessProgram, inv.2.2] using h.symm
  | _ => cases h

/-! ## Runs after the registration -/

/-- A call that takes the instance offline, or schedules it anew. -/
def LosslessMove.Disturbs : LosslessMove → Prop
  | call .losslessDeregister => True
  | call (.scheduleRegister _) => True
  | call (.request path) => path = "/offline"
  | _ => False

abbrev StaysOnline (s : LosslessState) : Prop := Threads.Holds Online Undisturbing s

theorem staysOnline_step {s : LosslessState} {move : LosslessMove} (holds : StaysOnline s)
    (other : ¬ move.Disturbs) : StaysOnline (losslessStep s move) := by
  apply Threads.holds_step _ _ holds
  · intro thread hstart
    cases move with
    | advance index answer => cases hstart
    | call begun =>
        cases hstart
        cases begun with
        | setActionProvider => rfl
        | losslessRegister => rfl
        | losslessDeregister => exact absurd trivial other
        | scheduleRegister plan => exact absurd trivial other
        | request path => exact decide_eq_true other
  · intro self thread answer inv fact
    obtain ⟨hinv, hsame, hfact⟩ := program_online answer inv fact
    exact ⟨hinv, (undisturbing_congr hsame _).trans hfact⟩
  · intro self thread answer another inv fact hanother
    obtain ⟨-, hsame, -⟩ := program_online answer inv fact
    exact (undisturbing_congr hsame another).trans hanother

/-- From the registration on, every request on readiness finds the instance ready, until it is
taken offline or scheduled anew. -/
theorem ready_of_online {s : LosslessState} {moves : List LosslessMove} {move : LosslessMove}
    {response : LosslessEndpointResponse} (holds : StaysOnline s)
    (others : ∀ other ∈ moves, ¬ other.Disturbs)
    (h : losslessEvent (run losslessStep s moves) move =
      some (.answered "/readiness" response)) : response = ready := by
  have hholds : StaysOnline (run losslessStep s moves) := by
    induction moves generalizing s with
    | nil => exact holds
    | cons first moves ih =>
        exact ih (staysOnline_step holds (others first List.mem_cons_self))
          (fun other hother => others other (List.mem_cons_of_mem first hother)) h
  obtain ⟨index, input, thread, -, hthread, hevent⟩ := Threads.emitted_eq_some h
  exact event_online hholds.shared (hholds.threads thread (List.mem_of_getElem? hthread)) hevent

end PoleClient.Discovery
