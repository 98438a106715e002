import PoleClient.Discovery.Lossless

/-! # Offline is final

Once the instance is offline, only a registration that began before can bring it
back: it does not look at the offline flag, and clears it. Without such a
registration the instance stays offline in every interleaving.
-/

namespace PoleClient.Discovery

open Lib

/-! ## What is wanted -/

def LosslessMove.Registers : LosslessMove → Prop
  | call .losslessRegister => True
  | call (.scheduleRegister _) => True
  | _ => False

/-- An offline request is answered 200, or a deregistration returns. -/
def TakesOffline (s : LosslessState) (move : LosslessMove) : Prop :=
  losslessEvent s move = some offlineServed ∨ losslessEvent s move = some .deregistered

def StaysOffline (s : LosslessState) (move : LosslessMove) : Prop :=
  losslessEvent s move ≠ some .doRegister ∧
    ∀ response, losslessEvent s move = some (.answered "/readiness" response) →
      response.statusCode ≠ 200

/-- After the instance is taken offline it stays so until the next call to register it. -/
def OfflineFinal (moves : List LosslessMove) : Prop :=
  ∀ first move later, first ++ move :: later <+: moves →
    TakesOffline (run losslessStep .start first) move →
    (∀ other ∈ later, ¬ other.Registers) →
    Along losslessStep StaysOffline (run losslessStep .start (first ++ [move])) later

/-! ## The condition -/

def readinessEnabled (self : LosslessActionRegistry) : Bool :=
  (self.endpointStates self.endpointState).readinessEnabled

/-- The thread cannot bring the instance online: it is no registration that has yet to call the
provider, none that has yet to clear the offline flag that readiness looks at, and no readiness
request on a replaced endpoint state. -/
def harmless (self : LosslessActionRegistry) : LosslessThread → Bool
  | .schedule _ => false
  | .delayed _ => false
  | .registerFind => false
  | .registerAct => false
  | .registerState => !readinessEnabled self
  | .registerStoreOffline ref => ref ≠ self.endpointState || !readinessEnabled self
  | .readinessRegistered ref => ref = self.endpointState && readinessEnabled self
  | .readinessOffline ref => ref = self.endpointState && readinessEnabled self
  | _ => true

/-- The endpoint state that the move takes offline for good. -/
def offlineRef (s : LosslessState) : LosslessMove → Option Nat
  | .call _ => none
  | .advance index _ =>
      match s.threads[index]? with
      | some (.deregisterStoreOffline _ ref) => some ref
      | _ => none

/-- When the instance is taken offline, it is by the endpoint state in use, and no other thread
can bring it online. -/
def NonePending (s : LosslessState) (move : LosslessMove) : Prop :=
  ∀ ref ∈ offlineRef s move,
    ref = s.shared.endpointState ∧ ∀ thread ∈ s.threads, harmless s.shared thread = true

instance (s : LosslessState) (move : LosslessMove) : Decidable (NonePending s move) :=
  inferInstanceAs (Decidable (∀ ref ∈ offlineRef s move, _))

/-! ## Offline threads -/

/-- The flag is set where readiness looks at it. -/
def Offline (self : LosslessActionRegistry) : Prop :=
  readinessEnabled self = true → (self.endpointStates self.endpointState).offline = true

def Harmless (self : LosslessActionRegistry) (thread : LosslessThread) : Prop :=
  harmless self thread = true

/-- The same endpoint state is in use, with the same answer on whether readiness is enabled. -/
def SameUse (self next : LosslessActionRegistry) : Prop :=
  next.endpointState = self.endpointState ∧ readinessEnabled next = readinessEnabled self

theorem SameUse.refl (self : LosslessActionRegistry) : SameUse self self :=
  ⟨rfl, rfl⟩

theorem harmless_congr {self next : LosslessActionRegistry} (same : SameUse self next)
    (thread : LosslessThread) : harmless next thread = harmless self thread := by
  unfold harmless
  rw [same.1, same.2]

theorem sameUse_modify (self : LosslessActionRegistry) (ref : Nat)
    {f : LosslessEndpointState → LosslessEndpointState}
    (kept : ∀ state, (f state).readinessEnabled = state.readinessEnabled) :
    SameUse self (self.modifyEndpointState ref f) := by
  refine ⟨rfl, ?_⟩
  unfold readinessEnabled LosslessActionRegistry.modifyEndpointState
  simp only
  split
  · rename_i href
    rw [kept, href]
  · rfl

theorem offline_modify {self : LosslessActionRegistry} (inv : Offline self) (ref : Nat)
    {f : LosslessEndpointState → LosslessEndpointState}
    (enabled : ∀ state, (f state).readinessEnabled = state.readinessEnabled)
    (kept : ref = self.endpointState → readinessEnabled self = true →
      ∀ state, state.offline = true → (f state).offline = true) :
    Offline (self.modifyEndpointState ref f) := by
  intro hready
  rw [(sameUse_modify self ref enabled).2] at hready
  have hoffline := inv hready
  unfold LosslessActionRegistry.modifyEndpointState
  simp only
  split
  · rename_i href
    exact kept href.symm hready _ (href ▸ hoffline)
  · exact hoffline

theorem program_offline {self : LosslessActionRegistry} {thread : LosslessThread}
    (answer : HealthAnswer) (inv : Offline self) (fact : Harmless self thread) :
    Offline (losslessProgram self thread answer).shared ∧
      SameUse self (losslessProgram self thread answer).shared ∧
      Harmless self (losslessProgram self thread answer).thread := by
  cases thread with
  | setActionProvider => exact ⟨inv, .refl self, rfl⟩
  | schedule plan => cases fact
  | delayed delay => cases fact
  | registerFind => cases fact
  | registerAct => cases fact
  | registerState =>
      refine ⟨inv, .refl self, ?_⟩
      simpa [losslessProgram, Harmless, harmless] using fact
  | registerStoreOffline ref =>
      refine ⟨offline_modify inv ref (fun _ => rfl) ?_, sameUse_modify self ref fun _ => rfl, rfl⟩
      intro href hready
      simp [Harmless, harmless, href, hready] at fact
  | registerStoreRegistered ref =>
      exact ⟨offline_modify inv ref (fun _ => rfl) fun _ _ _ h => h,
        sameUse_modify self ref fun _ => rfl, rfl⟩
  | deregisterFind served =>
      refine ⟨inv, .refl self, ?_⟩
      simp only [losslessProgram, Harmless]
      split <;> rfl
  | deregisterAct served => exact ⟨inv, .refl self, rfl⟩
  | deregisterState served => exact ⟨inv, .refl self, rfl⟩
  | deregisterStoreRegistered served ref =>
      exact ⟨offline_modify inv ref (fun _ => rfl) fun _ _ _ h => h,
        sameUse_modify self ref fun _ => rfl, rfl⟩
  | deregisterStoreOffline served ref =>
      exact ⟨offline_modify inv ref (fun _ => rfl) fun _ _ _ _ => rfl,
        sameUse_modify self ref fun _ => rfl, rfl⟩
  | request path =>
      refine ⟨inv, .refl self, ?_⟩
      simp only [losslessProgram, handlePath, Harmless]
      split
      · cases hready : (self.endpointStates self.endpointState).readinessEnabled with
        | false => rfl
        | true => simp [harmless, readinessEnabled, hready]
      · split
        · split <;> rfl
        · rfl
  | readinessRegistered ref =>
      simp only [losslessProgram]
      split
      · exact ⟨inv, .refl self, fact⟩
      · exact ⟨inv, .refl self, rfl⟩
  | readinessOffline ref => exact ⟨inv, .refl self, rfl⟩
  | offlineStoreRegistered ref =>
      exact ⟨offline_modify inv ref (fun _ => rfl) fun _ _ _ h => h,
        sameUse_modify self ref fun _ => rfl, rfl⟩
  | offlineStoreOffline ref =>
      exact ⟨offline_modify inv ref (fun _ => rfl) fun _ _ _ _ => rfl,
        sameUse_modify self ref fun _ => rfl, rfl⟩
  | finished => exact ⟨inv, .refl self, rfl⟩

theorem event_offline {self : LosslessActionRegistry} {thread : LosslessThread}
    (answer : HealthAnswer) (inv : Offline self) (fact : Harmless self thread) :
    (losslessProgram self thread answer).event ≠ some .doRegister ∧
      ∀ response,
        (losslessProgram self thread answer).event = some (.answered "/readiness" response) →
        response.statusCode ≠ 200 := by
  cases thread with
  | registerAct => cases fact
  | deregisterStoreOffline served ref =>
      cases served with
      | false => exact ⟨by simp [losslessProgram], by simp [losslessProgram]⟩
      | true =>
          exact ⟨by simp [losslessProgram, offlineServed], by simp [losslessProgram, offlineServed]⟩
  | request path =>
      simp only [losslessProgram, handlePath]
      split
      · split
        · refine ⟨by simp, fun response hresponse => ?_⟩
          cases hresponse
          decide
        · exact ⟨by simp, by simp⟩
      · rename_i hpath
        split
        · split
          · exact ⟨by simp, by simp [hpath]⟩
          · exact ⟨by simp, by simp⟩
        · exact ⟨by simp, by simp [hpath]⟩
  | readinessRegistered ref =>
      simp only [losslessProgram]
      split
      · exact ⟨by simp, by simp⟩
      · refine ⟨by simp, fun response hresponse => ?_⟩
        cases hresponse
        decide
  | readinessOffline ref =>
      have href : ref = self.endpointState ∧ readinessEnabled self = true := by
        simpa [Harmless, harmless] using fact
      have hoffline := inv href.2
      simp only [losslessProgram, href.1, hoffline]
      refine ⟨by simp, fun response hresponse => ?_⟩
      cases hresponse
      decide
  | _ => exact ⟨by simp [losslessProgram], by simp [losslessProgram]⟩

/-! ## Runs -/

abbrev OfflineHolds (s : LosslessState) : Prop := Threads.Holds Offline Harmless s

/-- Every move but a call to register keeps the instance offline. -/
theorem offlineHolds_step {s : LosslessState} {move : LosslessMove} (holds : OfflineHolds s)
    (other : ¬ move.Registers) : OfflineHolds (losslessStep s move) := by
  apply Threads.holds_step _ _ holds
  · intro thread hstart
    cases move with
    | advance index answer => cases hstart
    | call begun =>
        cases hstart
        cases begun with
        | losslessRegister => exact absurd trivial other
        | scheduleRegister plan => exact absurd trivial other
        | setActionProvider => rfl
        | losslessDeregister => rfl
        | request path => rfl
  · intro self thread answer inv fact
    obtain ⟨hinv, hsame, hfact⟩ := program_offline answer inv fact
    exact ⟨hinv, (harmless_congr hsame _).trans hfact⟩
  · intro self thread answer another inv fact hanother
    obtain ⟨-, hsame, -⟩ := program_offline answer inv fact
    exact (harmless_congr hsame another).trans hanother

theorem staysOffline_of_holds {s : LosslessState} (holds : OfflineHolds s) (move : LosslessMove) :
    StaysOffline s move := by
  constructor
  · intro hevent
    obtain ⟨index, answer, thread, -, hthread, hprogram⟩ := Threads.emitted_eq_some hevent
    have hfact := holds.threads thread (List.mem_of_getElem? hthread)
    exact (event_offline answer holds.shared hfact).1 hprogram
  · intro response hevent
    obtain ⟨index, answer, thread, -, hthread, hprogram⟩ := Threads.emitted_eq_some hevent
    have hfact := holds.threads thread (List.mem_of_getElem? hthread)
    exact (event_offline answer holds.shared hfact).2 response hprogram

/-- The instance is taken offline by the last store of a deregistration. -/
theorem takesOffline_spec {s : LosslessState} {move : LosslessMove} (h : TakesOffline s move) :
    ∃ index answer served ref, move = .advance index answer ∧
      s.threads[index]? = some (.deregisterStoreOffline served ref) := by
  have hevent : ∃ event, losslessEvent s move = some event ∧
      (event = offlineServed ∨ event = .deregistered) := by
    rcases h with h | h
    · exact ⟨_, h, .inl rfl⟩
    · exact ⟨_, h, .inr rfl⟩
  obtain ⟨event, hemitted, hkind⟩ := hevent
  obtain ⟨index, answer, thread, hmove, hthread, hprogram⟩ := Threads.emitted_eq_some hemitted
  have hmove : move = .advance index answer := by
    cases move with
    | call begun => cases hmove
    | advance i a =>
        cases hmove
        rfl
  cases thread with
  | deregisterStoreOffline served ref => exact ⟨index, answer, served, ref, hmove, hthread⟩
  | request path =>
      simp only [losslessProgram, handlePath] at hprogram
      split at hprogram
      · split at hprogram
        · cases hprogram
          simp [offlineServed] at hkind
        · cases hprogram
      · split at hprogram
        · split at hprogram
          · cases hprogram
            simp [offlineServed] at hkind
          · cases hprogram
        · cases hprogram
          simp [offlineServed] at hkind
  | readinessRegistered ref =>
      simp only [losslessProgram] at hprogram
      split at hprogram
      · cases hprogram
      · cases hprogram
        simp [offlineServed] at hkind
  | readinessOffline ref =>
      cases hprogram
      simp [offlineServed] at hkind
  | registerAct =>
      cases hprogram
      simp [offlineServed] at hkind
  | deregisterAct served =>
      cases hprogram
      simp [offlineServed] at hkind
  | _ => cases hprogram

theorem offlineHolds_of_takes {s : LosslessState} {move : LosslessMove}
    (takes : TakesOffline s move) (none : NonePending s move) :
    OfflineHolds (losslessStep s move) := by
  obtain ⟨index, answer, served, ref, rfl, hthread⟩ := takesOffline_spec takes
  have hoffline : offlineRef s (.advance index answer) = some ref := by
    simp [offlineRef, hthread]
  obtain ⟨rfl, hharmless⟩ := none ref hoffline
  have hsame : SameUse s.shared (s.shared.storeOffline s.shared.endpointState true) :=
    sameUse_modify s.shared s.shared.endpointState fun _ => rfl
  have hstep : losslessStep s (.advance index answer) =
      ⟨s.shared.storeOffline s.shared.endpointState true, s.threads.set index .finished⟩ :=
    Threads.moveStep_some hthread answer
  rw [hstep]
  constructor
  · intro _
    simp [LosslessActionRegistry.storeOffline, LosslessActionRegistry.modifyEndpointState]
  · intro other hother
    rcases List.mem_or_eq_of_mem_set hother with hold | rfl
    · exact (harmless_congr hsame other).trans (hharmless other hold)
    · rfl

/-- In every run in which no registration is pending when the instance is taken offline, offline
is final. -/
theorem offline_final {moves : List LosslessMove}
    (quiet : Along losslessStep NonePending .start moves) : OfflineFinal moves := by
  intro first move later hpart takes others
  have hnone : NonePending (run losslessStep .start first) move := by
    apply along_iff.mp quiet first move
    exact (List.prefix_append_right_inj first).mpr
      (List.cons_prefix_cons.mpr ⟨rfl, List.nil_prefix⟩) |>.trans hpart
  rw [run_append, run_cons, run_nil]
  have hstart := offlineHolds_of_takes takes hnone
  refine @along_of_invariant _ _ losslessStep (fun _ other => ¬ other.Registers) StaysOffline
    OfflineHolds ?_ ?_ _ later hstart (along_of_forall fun other hmem _ => others other hmem)
  · exact fun _ _ holds other => offlineHolds_step holds other
  · exact fun _ other holds _ => staysOffline_of_holds holds other

/-! ## A registration that comes after -/

def healthy : HealthAnswer := ⟨false, true⟩

def advances (index count : Nat) : List LosslessMove :=
  List.replicate count (.advance index healthy)

def registeredFirst : List LosslessMove :=
  .call .setActionProvider :: .call .losslessRegister :: .call .losslessDeregister ::
    advances 0 1 ++ advances 1 5 ++ advances 2 5

theorem offline_final_registeredFirst :
    TakesOffline (run losslessStep .start (registeredFirst.take 13)) (.advance 2 healthy) ∧
      OfflineFinal (registeredFirst ++ .call (.request "/readiness") :: advances 3 3) :=
  ⟨.inr (by decide), offline_final (by decide)⟩

def secondDelay : LosslessExecutionPlan := ⟨some (.delayByTime 1000000000), true, true⟩

def offlineMeanwhile : List LosslessMove :=
  .call .setActionProvider :: .call (.scheduleRegister secondDelay) ::
    .call .losslessDeregister :: advances 0 1 ++ advances 1 1 ++ advances 2 4

def delayElapsed : List LosslessMove :=
  advances 1 6 ++ .call (.request "/readiness") :: advances 3 3

/-- The instance registers after it was taken offline, and answers that it is ready. -/
theorem scheduled_registers_after_offline :
    TakesOffline (run losslessStep .start offlineMeanwhile) (.advance 2 healthy) ∧
    losslessEvent (run losslessStep .start
        (offlineMeanwhile ++ .advance 2 healthy :: delayElapsed.take 2)) (.advance 1 healthy) =
      some .doRegister ∧
    losslessEvent (run losslessStep .start
        (offlineMeanwhile ++ .advance 2 healthy :: delayElapsed.take 9)) (.advance 3 healthy) =
      some (.answered "/readiness" ready) ∧
    ¬ OfflineFinal (offlineMeanwhile ++ .advance 2 healthy :: delayElapsed) := by
  have htakes : TakesOffline (run losslessStep .start offlineMeanwhile) (.advance 2 healthy) :=
    .inr (by decide)
  have hregisters : losslessEvent (run losslessStep .start
      (offlineMeanwhile ++ .advance 2 healthy :: delayElapsed.take 2)) (.advance 1 healthy) =
      some .doRegister := by decide
  refine ⟨htakes, hregisters, by decide, fun hfinal => ?_⟩
  have hquiet : ∀ other ∈ delayElapsed, ¬ other.Registers := by
    simp [delayElapsed, advances, LosslessMove.Registers]
  have halong := hfinal offlineMeanwhile (.advance 2 healthy) delayElapsed List.prefix_rfl htakes
    hquiet
  have hstays := along_iff.mp halong (delayElapsed.take 2) (.advance 1 healthy)
    (List.take_prefix 3 delayElapsed)
  rw [← run_append, List.append_assoc] at hstays
  exact hstays.1 hregisters

end PoleClient.Discovery
