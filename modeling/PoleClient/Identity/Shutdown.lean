import PoleClient.Identity.Credential
import PoleClient.Lib.Run

/-! # Dropping the identity runtime

The worker, the updates of the descriptor and the drop on another thread take
turns, one access to what they share at a time. An await may be ready at once;
where it is not, the worker parks, and a task that was aborted goes no further
than that. What the worker sleeps for is left out: any wait may end at any time.
-/

namespace PoleClient.Identity

open Connector Lib

/-! ## State -/

inductive Wait where
  | descriptor
  | refresh
  | answer (descriptor : ServiceIdentityDescriptor)
  | backoff

inductive WorkerPoint where
  | spawned
  | loopTest
  | takeDescriptor
  | chooseAction (descriptor : ServiceIdentityDescriptor)
  | clearFirst (descriptor : ServiceIdentityDescriptor)
  | await (wait : Wait) (parked : Bool)
  | compare (descriptor : ServiceIdentityDescriptor)
      (response : Except PoleError WorkloadCredentialResponse)
  | clearStale
  | store (credential : CredentialSnapshot)
  | exited

/-- The next step of `IdentityRuntime::drop`. -/
inductive DropPoint where
  | stop
  | abort
  | clear
  | returned
deriving DecidableEq, Repr

/-- `descriptor`, `version` and `closed` are the watch channel, `seen` the version that its
receiver has seen. -/
structure RuntimeState where
  descriptor : Option ServiceIdentityDescriptor
  version : Nat
  seen : Nat
  closed : Bool
  credential : Option CredentialSnapshot
  stopped : Bool
  aborted : Bool
  worker : WorkerPoint
  dropAt : DropPoint

namespace RuntimeState

def start : RuntimeState := ⟨none, 0, 0, false, none, false, false, .spawned, .stop⟩

def goTo (s : RuntimeState) (point : WorkerPoint) : RuntimeState := { s with worker := point }

/-! ## The worker -/

inductive Wake where
  | pending
  | elapsed
  | changed
  | answer (response : Except PoleError WorkloadCredentialResponse)

/-- The poll returns; a task that was aborted is dropped. -/
def suspend (s : RuntimeState) (wait : Wait) : RuntimeState :=
  s.goTo (if s.aborted then .exited else .await wait true)

/-- `changed()` on the receiver of the descriptor. -/
def onChanged (s : RuntimeState) (wait : Wait) (next : WorkerPoint) : RuntimeState :=
  if s.seen ≠ s.version then { s with seen := s.version, worker := next }
  else if s.closed then s.goTo .exited
  else s.suspend wait

def poll (s : RuntimeState) (wait : Wait) (wake : Wake) : RuntimeState :=
  match wait, wake with
  | .descriptor, .changed => s.onChanged .descriptor .takeDescriptor
  | .refresh, .elapsed => s.goTo .loopTest
  | .refresh, .changed => s.onChanged .refresh .loopTest
  | .answer descriptor, .answer response => s.goTo (.compare descriptor response)
  | .backoff, .elapsed => s.goTo .loopTest
  | wait, _ => s.suspend wait

def isCurrent (s : RuntimeState) (descriptor : ServiceIdentityDescriptor) : Bool :=
  (s.descriptor.map fun current => current.revision == descriptor.revision).getD false

/-- What follows from an answer for the current descriptor. -/
def accepted (now : Int64) (descriptor : ServiceIdentityDescriptor)
    (response : Except PoleError WorkloadCredentialResponse) : WorkerPoint :=
  match response.bind fun answer => credentialSnapshot now answer descriptor with
  | .ok credential => .store credential
  | .error _ => .await .backoff false

/-- A step of `run_credential_worker`; `now` is what it reads from the clock, if it does. -/
def workerStep (s : RuntimeState) (now : Int64) (wake : Wake) : RuntimeState :=
  match s.worker with
  | .spawned => s.goTo (if s.aborted then .exited else .loopTest)
  | .loopTest => s.goTo (if s.stopped then .exited else .takeDescriptor)
  | .takeDescriptor =>
      match s.descriptor with
      | some descriptor => s.goTo (.chooseAction descriptor)
      | none => s.goTo (.await .descriptor false)
  | .chooseAction descriptor =>
      match credentialRefreshAction s.credential descriptor.revision now with
      | .wait _ => s.goTo (.await .refresh false)
      | .issue => s.goTo (.clearFirst descriptor)
      | .renew _ => s.goTo (.await (.answer descriptor) false)
  | .clearFirst descriptor =>
      { s with credential := none, worker := .await (.answer descriptor) false }
  | .await wait parked => if parked && s.aborted then s.goTo .exited else s.poll wait wake
  | .compare descriptor response =>
      s.goTo (if s.isCurrent descriptor then accepted now descriptor response else .clearStale)
  | .clearStale => { s with credential := none, worker := .loopTest }
  | .store credential => { s with credential := some credential, worker := .loopTest }
  | .exited => s

/-! ## The other parties -/

def dropStep (s : RuntimeState) : RuntimeState :=
  match s.dropAt with
  | .stop => { s with stopped := true, dropAt := .abort }
  | .abort => { s with aborted := true, dropAt := .clear }
  | .clear => { s with credential := none, dropAt := .returned }
  | .returned => s

/-- The handler sends any descriptor, until it is dropped with the channel's sender. -/
inductive Move where
  | worker (now : Int64) (wake : Wake)
  | update (descriptor : ServiceIdentityDescriptor)
  | close
  | drop

def step (s : RuntimeState) : Move → RuntimeState
  | .worker now wake => s.workerStep now wake
  | .update descriptor =>
      if s.closed then s
      else { s with descriptor := some descriptor, version := s.version + 1 }
  | .close => { s with closed := true }
  | .drop => s.dropStep

/-! ## What is wanted, and the condition -/

/-- The slot is empty, and no handle attaches a credential. -/
structure NoCredential (s : RuntimeState) : Prop where
  empty : s.credential = none
  notAttached : ∀ now headers, ∃ err, injectHttp now s.credential headers = .error err

theorem noCredential_of_empty {s : RuntimeState} (h : s.credential = none) : NoCredential s where
  empty := h
  notAttached := fun now headers => h ▸ injectHttp_none now headers

def MayBeCurrent (s : RuntimeState) (descriptor : ServiceIdentityDescriptor) : Prop :=
  s.isCurrent descriptor = true ∨ s.closed = false

def Acceptable (descriptor : ServiceIdentityDescriptor)
    (response : Except PoleError WorkloadCredentialResponse) : Prop :=
  ∃ now answer credential, response = .ok answer ∧
    credentialSnapshot now answer descriptor = .ok credential

/-- Between two awaits the worker is on its way to store a credential, or to an await that may be
ready at once and lead there. -/
def MayStore (s : RuntimeState) : Prop :=
  match s.worker with
  | .takeDescriptor => s.descriptor.isSome = true ∨ s.closed = false
  | .chooseAction descriptor => MayBeCurrent s descriptor
  | .clearFirst descriptor => MayBeCurrent s descriptor
  | .await .descriptor false =>
      (s.seen ≠ s.version ∧ s.descriptor.isSome = true) ∨ s.closed = false
  | .await (.answer descriptor) false => MayBeCurrent s descriptor
  | .compare descriptor response => MayBeCurrent s descriptor ∧ Acceptable descriptor response
  | .store _ => True
  | _ => False

/-! ## After the drop -/

/-- The drop has returned, the slot is empty, and the worker cannot come to store anything. -/
structure Quiet (s : RuntimeState) : Prop where
  stopped : s.stopped = true
  aborted : s.aborted = true
  returned : s.dropAt = .returned
  empty : s.credential = none
  harmless : ¬ MayStore s

theorem Quiet.goTo {s : RuntimeState} (quiet : Quiet s) {point : WorkerPoint}
    (h : ¬ MayStore (s.goTo point)) : Quiet (s.goTo point) :=
  ⟨quiet.stopped, quiet.aborted, quiet.returned, quiet.empty, h⟩

theorem quiet_suspend {s : RuntimeState} (quiet : Quiet s) (wait : Wait) :
    Quiet (s.suspend wait) := by
  unfold suspend
  rw [if_pos quiet.aborted]
  exact quiet.goTo id

theorem quiet_poll {s : RuntimeState} (quiet : Quiet s) {wait : Wait}
    (hworker : s.worker = .await wait false) (wake : Wake) : Quiet (s.poll wait wake) := by
  have harmless := quiet.harmless
  simp only [MayStore, hworker] at harmless
  have hchanged : ∀ next : WorkerPoint,
      (s.seen ≠ s.version → ¬ MayStore { s with seen := s.version, worker := next }) →
        Quiet (s.onChanged wait next) := by
    intro next hnext
    unfold onChanged
    split
    · rename_i hseen
      exact ⟨quiet.stopped, quiet.aborted, quiet.returned, quiet.empty, hnext hseen⟩
    · split
      · exact quiet.goTo id
      · exact quiet_suspend quiet wait
  cases wait with
  | descriptor =>
      simp only [not_or, not_and] at harmless
      cases wake with
      | changed =>
          refine hchanged .takeDescriptor fun hseen hstore => ?_
          rcases hstore with hsome | hopen
          · exact harmless.1 hseen hsome
          · exact harmless.2 hopen
      | _ => exact quiet_suspend quiet _
  | refresh =>
      cases wake with
      | changed => exact hchanged .loopTest fun _ => id
      | elapsed => exact quiet.goTo id
      | _ => exact quiet_suspend quiet _
  | answer descriptor =>
      cases wake with
      | answer response => exact quiet.goTo fun hstore => harmless hstore.1
      | _ => exact quiet_suspend quiet _
  | backoff =>
      cases wake with
      | elapsed => exact quiet.goTo id
      | _ => exact quiet_suspend quiet _

theorem quiet_workerStep {s : RuntimeState} (quiet : Quiet s) (now : Int64) (wake : Wake) :
    Quiet (s.workerStep now wake) := by
  have harmless := quiet.harmless
  unfold workerStep
  cases hworker : s.worker with
  | spawned =>
      simp only [quiet.aborted, if_true]
      exact quiet.goTo id
  | loopTest =>
      simp only [quiet.stopped, if_true]
      exact quiet.goTo id
  | takeDescriptor =>
      simp only [MayStore, hworker, not_or] at harmless
      cases hdescriptor : s.descriptor with
      | some descriptor => exact absurd (by rw [hdescriptor]; rfl) harmless.1
      | none =>
          apply quiet.goTo
          intro hstore
          rcases hstore with ⟨-, hsome⟩ | hopen
          · exact harmless.1 hsome
          · exact harmless.2 hopen
  | chooseAction descriptor =>
      simp only [MayStore, hworker] at harmless
      simp only [quiet.empty, credentialRefreshAction]
      exact quiet.goTo harmless
  | clearFirst descriptor =>
      simp only [MayStore, hworker] at harmless
      exact ⟨quiet.stopped, quiet.aborted, quiet.returned, rfl, harmless⟩
  | await wait parked =>
      cases parked with
      | true =>
          simp only [quiet.aborted, Bool.and_self, if_true]
          exact quiet.goTo id
      | false => exact quiet_poll quiet hworker wake
  | compare descriptor response =>
      simp only [MayStore, hworker] at harmless
      apply quiet.goTo
      intro hstore
      split at hstore
      · rename_i hcurrent
        unfold accepted at hstore
        split at hstore
        · rename_i credential haccepted
          obtain ⟨answer, hresponse, hsnapshot⟩ := succeeds_of_bind haccepted
          exact harmless ⟨.inl hcurrent, now, answer, credential, hresponse, hsnapshot⟩
        · exact hstore
      · exact hstore
  | clearStale => exact ⟨quiet.stopped, quiet.aborted, quiet.returned, rfl, id⟩
  | store credential => exact absurd (by simp only [MayStore, hworker]) harmless
  | exited => exact quiet

/-- While the channel is open, an update opens no way that was not open before. -/
theorem mayStore_of_update {s : RuntimeState} (hopen : s.closed = false)
    {descriptor : ServiceIdentityDescriptor}
    (h : MayStore { s with descriptor := some descriptor, version := s.version + 1 }) :
    MayStore s := by
  unfold MayStore at h ⊢
  cases hworker : s.worker with
  | takeDescriptor => exact .inr hopen
  | chooseAction descriptor => exact .inr hopen
  | clearFirst descriptor => exact .inr hopen
  | compare descriptor response =>
      simp only [hworker] at h
      exact ⟨.inr hopen, h.2⟩
  | store credential => trivial
  | await wait parked =>
      cases parked with
      | true => simp [hworker] at h
      | false =>
          cases wait with
          | descriptor => exact .inr hopen
          | answer descriptor => exact .inr hopen
          | _ => simp [hworker] at h
  | _ => simp [hworker] at h

theorem mayStore_of_close {s : RuntimeState} (h : MayStore { s with closed := true }) :
    MayStore s := by
  have hcurrent : ∀ descriptor, MayBeCurrent { s with closed := true } descriptor →
      MayBeCurrent s descriptor := fun _ h => h.imp_right nofun
  unfold MayStore at h ⊢
  cases hworker : s.worker with
  | takeDescriptor =>
      simp only [hworker] at h
      exact h.imp_right nofun
  | chooseAction descriptor =>
      simp only [hworker] at h
      exact hcurrent descriptor h
  | clearFirst descriptor =>
      simp only [hworker] at h
      exact hcurrent descriptor h
  | compare descriptor response =>
      simp only [hworker] at h
      exact ⟨hcurrent descriptor h.1, h.2⟩
  | store credential => trivial
  | await wait parked =>
      cases parked with
      | true => simp [hworker] at h
      | false =>
          cases wait with
          | descriptor =>
              simp only [hworker] at h
              exact h.imp_right nofun
          | answer descriptor =>
              simp only [hworker] at h
              exact hcurrent descriptor h
          | _ => simp [hworker] at h
  | _ => simp [hworker] at h

theorem quiet_step (s : RuntimeState) (move : Move) (quiet : Quiet s) : Quiet (s.step move) := by
  cases move with
  | worker now wake => exact quiet_workerStep quiet now wake
  | update descriptor =>
      rw [step]
      split
      · exact quiet
      · rename_i hopen
        exact ⟨quiet.stopped, quiet.aborted, quiet.returned, quiet.empty,
          fun h => quiet.harmless (mayStore_of_update (by simpa using hopen) h)⟩
  | close =>
      exact ⟨quiet.stopped, quiet.aborted, quiet.returned, quiet.empty,
        fun h => quiet.harmless (mayStore_of_close h)⟩
  | drop =>
      rw [step, dropStep, quiet.returned]
      exact quiet

/-! ## Ways to a store -/

def Fills (s : RuntimeState) : Prop := ∃ later, (run step s later).credential ≠ none

theorem fills_of_step {s : RuntimeState} (move : Move) (h : Fills (s.step move)) : Fills s := by
  obtain ⟨later, hlater⟩ := h
  exact ⟨move :: later, hlater⟩

section Ways

variable {s : RuntimeState}

theorem fills_of_store {credential : CredentialSnapshot} (h : s.worker = .store credential) :
    Fills s := by
  refine ⟨[.worker 0 .pending], ?_⟩
  simp [step, workerStep, h]

theorem fills_of_current {descriptor : ServiceIdentityDescriptor}
    {response : Except PoleError WorkloadCredentialResponse}
    (h : s.worker = .compare descriptor response) (current : s.isCurrent descriptor = true)
    (acceptable : Acceptable descriptor response) : Fills s := by
  obtain ⟨now, answer, credential, rfl, hsnapshot⟩ := acceptable
  have haccepted : accepted now descriptor (.ok answer) = .store credential := by
    simp only [accepted, Except.bind, hsnapshot]
  apply fills_of_step (.worker now .pending)
  apply fills_of_store
  simp only [step, workerStep, h, current, if_true, haccepted]
  rfl

/-- While the channel is open, the descriptor can be sent again. -/
theorem fills_of_compare {descriptor : ServiceIdentityDescriptor}
    {response : Except PoleError WorkloadCredentialResponse}
    (h : s.worker = .compare descriptor response) (current : MayBeCurrent s descriptor)
    (acceptable : Acceptable descriptor response) : Fills s := by
  rcases current with hcurrent | hopen
  · exact fills_of_current h hcurrent acceptable
  · apply fills_of_step (.update descriptor)
    refine fills_of_current ?_ ?_ acceptable
    · simpa [step, hopen] using h
    · simp [step, hopen, isCurrent]

def answerFor (descriptor : ServiceIdentityDescriptor) : WorkloadCredentialResponse where
  code := .executeSuccess
  info := ""
  credential := some {
    format := .jwtEd25519
    serialized := "header.claims.signature"
    credentialId := "credential-1"
    keyId := "key-1"
    trustBundleVersion := descriptor.trustBundleVersion
    issuedAt := some ⟨100, 0⟩
    notBefore := some ⟨70, 0⟩
    expiresAt := some ⟨400, 0⟩
    renewAfter := some ⟨300, 0⟩
    bindingType := .serviceToken }

def credentialFor (descriptor : ServiceIdentityDescriptor) : CredentialSnapshot :=
  ⟨"header.claims.signature", "credential-1", 400, 300, descriptor.revision⟩

theorem credentialSnapshot_answerFor (descriptor : ServiceIdentityDescriptor) {now : Int64}
    (valid : now < 400) :
    credentialSnapshot now (answerFor descriptor) descriptor = .ok (credentialFor descriptor) := by
  have hblank : isBlank "header.claims.signature" = false ∧ isBlank "credential-1" = false ∧
      isBlank "key-1" = false := by decide
  obtain ⟨htoken, hid, hkey⟩ := hblank
  have hexpires : ¬ (400 : Int64) ≤ now := Int64.not_le.mpr valid
  simp only [credentialSnapshot, answerFor, validateCredential]
  rw [if_neg (by simp)]
  simp [timestampSeconds, htoken, hid, hkey]
  apply if_neg
  rintro (hother | hexpired)
  · revert hother
    decide
  · exact hexpires hexpired

theorem fills_of_answer {descriptor : ServiceIdentityDescriptor}
    (h : s.worker = .await (.answer descriptor) false) (current : MayBeCurrent s descriptor) :
    Fills s := by
  have hstep : s.step (.worker 0 (.answer (.ok (answerFor descriptor)))) =
      s.goTo (.compare descriptor (.ok (answerFor descriptor))) := by
    simp only [step, workerStep, h]
    rfl
  apply fills_of_step (.worker 0 (.answer (.ok (answerFor descriptor))))
  rw [hstep]
  exact fills_of_compare rfl current
    ⟨100, _, _, rfl, credentialSnapshot_answerFor descriptor (by decide)⟩

theorem fills_of_clearFirst {descriptor : ServiceIdentityDescriptor}
    (h : s.worker = .clearFirst descriptor) (current : MayBeCurrent s descriptor) : Fills s := by
  have hstep : s.step (.worker 0 .pending) =
      { s with credential := none, worker := .await (.answer descriptor) false } := by
    simp only [step, workerStep, h]
  apply fills_of_step (.worker 0 .pending)
  rw [hstep]
  exact fills_of_answer rfl current

theorem fills_of_chooseAction {descriptor : ServiceIdentityDescriptor} (empty : s.credential = none)
    (h : s.worker = .chooseAction descriptor) (current : MayBeCurrent s descriptor) : Fills s := by
  have hstep : s.step (.worker 0 .pending) = s.goTo (.clearFirst descriptor) := by
    simp only [step, workerStep, h, empty, credentialRefreshAction]
  apply fills_of_step (.worker 0 .pending)
  rw [hstep]
  exact fills_of_clearFirst rfl current

theorem fills_of_taken {descriptor : ServiceIdentityDescriptor} (empty : s.credential = none)
    (h : s.worker = .takeDescriptor) (sent : s.descriptor = some descriptor) : Fills s := by
  have hstep : s.step (.worker 0 .pending) = s.goTo (.chooseAction descriptor) := by
    simp only [step, workerStep, h, sent]
  apply fills_of_step (.worker 0 .pending)
  rw [hstep]
  refine fills_of_chooseAction empty rfl (.inl ?_)
  simp [isCurrent, goTo, sent]

def ordersDescriptor : ServiceIdentityDescriptor :=
  ⟨"pole://service/orders", "prod", "orders", "identity-1", "bundle-1", "pole.local",
    "pole-data-plane", "/v1.WorkloadCredentialService", 1, [.jwtEd25519]⟩

theorem fills_of_takeDescriptor (empty : s.credential = none) (h : s.worker = .takeDescriptor)
    (sent : s.descriptor.isSome = true ∨ s.closed = false) : Fills s := by
  rcases sent with hsome | hopen
  · obtain ⟨descriptor, hdescriptor⟩ := Option.isSome_iff_exists.mp hsome
    exact fills_of_taken empty h hdescriptor
  · have hstep : s.step (.update ordersDescriptor) =
        { s with descriptor := some ordersDescriptor, version := s.version + 1 } := by
      simp [step, hopen]
    apply fills_of_step (.update ordersDescriptor)
    rw [hstep]
    exact fills_of_taken empty h rfl

theorem fills_of_changed (empty : s.credential = none)
    (h : s.worker = .await .descriptor false) (changed : s.seen ≠ s.version)
    (sent : s.descriptor.isSome = true) : Fills s := by
  have hstep : s.step (.worker 0 .changed) =
      { s with seen := s.version, worker := .takeDescriptor } := by
    simp [step, workerStep, h, poll, onChanged, changed]
  apply fills_of_step (.worker 0 .changed)
  rw [hstep]
  exact fills_of_takeDescriptor empty rfl (.inl sent)

end Ways

/-- The channel counts every update that the receiver has not seen. -/
def Counted (s : RuntimeState) : Prop := s.seen ≤ s.version

theorem fills_of_mayStore {s : RuntimeState} (counted : Counted s) (empty : s.credential = none)
    (h : MayStore s) : Fills s := by
  unfold MayStore at h
  cases hworker : s.worker with
  | takeDescriptor =>
      simp only [hworker] at h
      exact fills_of_takeDescriptor empty hworker h
  | chooseAction descriptor =>
      simp only [hworker] at h
      exact fills_of_chooseAction empty hworker h
  | clearFirst descriptor =>
      simp only [hworker] at h
      exact fills_of_clearFirst hworker h
  | compare descriptor response =>
      simp only [hworker] at h
      exact fills_of_compare hworker h.1 h.2
  | store credential => exact fills_of_store hworker
  | await wait parked =>
      cases parked with
      | true => simp [hworker] at h
      | false =>
          cases wait with
          | descriptor =>
              simp only [hworker] at h
              rcases h with ⟨hchanged, hsome⟩ | hopen
              · exact fills_of_changed empty hworker hchanged hsome
              · have hstep : s.step (.update ordersDescriptor) =
                    { s with descriptor := some ordersDescriptor, version := s.version + 1 } := by
                  simp [step, hopen]
                have hnew : s.seen ≠ s.version + 1 := by
                  have hle : s.seen ≤ s.version := counted
                  omega
                apply fills_of_step (.update ordersDescriptor)
                rw [hstep]
                exact fills_of_changed empty hworker hnew rfl
          | answer descriptor =>
              simp only [hworker] at h
              exact fills_of_answer hworker h
          | _ => simp [hworker] at h
  | _ => simp [hworker] at h

/-! ## The state in which the drop is about to return -/

/-- What the steps of the drop have done, and the count of the channel. -/
structure Dropping (s : RuntimeState) : Prop where
  stopped : s.dropAt ≠ .stop → s.stopped = true
  aborted : s.dropAt = .clear ∨ s.dropAt = .returned → s.aborted = true
  counted : Counted s

theorem dropping_start : Dropping start :=
  ⟨fun h => absurd rfl h, fun h => (by rcases h with h | h <;> cases h), Nat.le_refl _⟩

/-- What a step of the worker leaves as it is. -/
structure Frame (before after : RuntimeState) : Prop where
  dropAt : after.dropAt = before.dropAt
  stopped : after.stopped = before.stopped
  aborted : after.aborted = before.aborted
  version : after.version = before.version
  seen : after.seen = before.seen ∨ after.seen = before.version

theorem frame_goTo (s : RuntimeState) (point : WorkerPoint) : Frame s (s.goTo point) :=
  ⟨rfl, rfl, rfl, rfl, .inl rfl⟩

theorem frame_onChanged (s : RuntimeState) (wait : Wait) (next : WorkerPoint) :
    Frame s (s.onChanged wait next) := by
  unfold onChanged
  split
  · exact ⟨rfl, rfl, rfl, rfl, .inr rfl⟩
  · split <;> exact frame_goTo s _

theorem frame_poll (s : RuntimeState) (wait : Wait) (wake : Wake) : Frame s (s.poll wait wake) := by
  unfold poll
  split
  · exact frame_onChanged s _ _
  · exact frame_goTo s _
  · exact frame_onChanged s _ _
  · exact frame_goTo s _
  · exact frame_goTo s _
  · exact frame_goTo s _

theorem frame_workerStep (s : RuntimeState) (now : Int64) (wake : Wake) :
    Frame s (s.workerStep now wake) := by
  unfold workerStep
  split
  · exact frame_goTo s _
  · exact frame_goTo s _
  · split <;> exact frame_goTo s _
  · split <;> exact frame_goTo s _
  · exact ⟨rfl, rfl, rfl, rfl, .inl rfl⟩
  · split
    · exact frame_goTo s _
    · exact frame_poll s _ wake
  · exact frame_goTo s _
  · exact ⟨rfl, rfl, rfl, rfl, .inl rfl⟩
  · exact ⟨rfl, rfl, rfl, rfl, .inl rfl⟩
  · exact ⟨rfl, rfl, rfl, rfl, .inl rfl⟩

theorem dropping_step (s : RuntimeState) (move : Move) (inv : Dropping s) :
    Dropping (s.step move) := by
  cases move with
  | worker now wake =>
      obtain ⟨hdrop, hstopped, haborted, hversion, hseen⟩ := frame_workerStep s now wake
      refine ⟨?_, ?_, ?_⟩
      · rw [step, hdrop, hstopped]
        exact inv.stopped
      · rw [step, hdrop, haborted]
        exact inv.aborted
      · have hcounted : s.seen ≤ s.version := inv.counted
        rw [step, Counted, hversion]
        rcases hseen with hkept | hread
        · rwa [hkept]
        · exact Nat.le_of_eq hread
  | update descriptor =>
      rw [step]
      split
      · exact inv
      · exact ⟨inv.stopped, inv.aborted, Nat.le_succ_of_le inv.counted⟩
  | close => exact ⟨inv.stopped, inv.aborted, inv.counted⟩
  | drop =>
      rw [step, dropStep]
      cases hdrop : s.dropAt with
      | stop => exact ⟨fun _ => rfl, fun h => (by rcases h with h | h <;> cases h), inv.counted⟩
      | abort => exact ⟨fun _ => inv.stopped (by rw [hdrop]; nofun), fun _ => rfl, inv.counted⟩
      | clear =>
          exact ⟨fun _ => inv.stopped (by rw [hdrop]; nofun),
            fun _ => inv.aborted (.inl hdrop), inv.counted⟩
      | returned => exact inv

theorem dropping_run (moves : List Move) : Dropping (run step start moves) :=
  run_preserves Dropping dropping_step moves dropping_start

/-- When the drop is about to return: the slot stays empty in every continuation exactly if the
worker is not on its way to a store. -/
theorem no_credential_after_drop_iff {moves : List Move}
    (last : (run step start moves).dropAt = .clear) :
    (∀ later, NoCredential (run step start (moves ++ .drop :: later))) ↔
      ¬ MayStore (run step start moves) := by
  have inv := dropping_run moves
  have hdrop : (run step start moves).step .drop =
      { run step start moves with credential := none, dropAt := .returned } := by
    rw [step, dropStep, last]
  have hlater : ∀ later, run step start (moves ++ .drop :: later) =
      run step { run step start moves with credential := none, dropAt := .returned } later := by
    intro later
    rw [run_append, run_cons, hdrop]
  constructor
  · intro h hstore
    have hfills : Fills { run step start moves with credential := none, dropAt := .returned } :=
      fills_of_mayStore inv.counted rfl hstore
    obtain ⟨later, hfilled⟩ := hfills
    have hempty := (h later).empty
    rw [hlater] at hempty
    exact hfilled hempty
  · intro h later
    have hquiet : Quiet { run step start moves with credential := none, dropAt := .returned } :=
      ⟨inv.stopped (by rw [last]; nofun), inv.aborted (.inl last), rfl, rfl, h⟩
    rw [hlater]
    exact noCredential_of_empty (run_preserves Quiet quiet_step later hquiet).empty

/-! ## A store after the drop -/

/-- The worker has the answer for its descriptor in hand. -/
def answeredMoves : List Move :=
  [.update ordersDescriptor, .worker 0 .pending, .worker 0 .pending, .worker 0 .pending,
    .worker 0 .pending, .worker 0 .pending, .worker 0 (.answer (.ok (answerFor ordersDescriptor))),
    .worker 100 .pending]

/-- The credential is stored, and the worker has parked until it is to be renewed. -/
def refreshedMoves : List Move :=
  answeredMoves ++ [.worker 0 .pending, .worker 0 .pending, .worker 0 .pending,
    .worker 100 .pending, .worker 0 .pending]

theorem refreshed_dropped :
    (run step start (refreshedMoves ++ [.drop, .drop])).dropAt = .clear ∧
      ∀ later, NoCredential (run step start (refreshedMoves ++ [.drop, .drop] ++ .drop :: later)) :=
  ⟨by rfl, (no_credential_after_drop_iff (by rfl)).mpr id⟩

theorem answered_after_drop : ¬ ∀ moves, (run step start moves).dropAt = .returned →
    NoCredential (run step start moves) := by
  intro h
  have hempty := (h (answeredMoves ++ [.drop, .drop, .drop, .worker 0 .pending]) (by rfl)).empty
  cases hempty

end RuntimeState

end PoleClient.Identity
