import PoleClient.Identity.Shutdown

/-! # Requests without a pause

A credential that is accepted may be due for renewal at the same moment. The
worker is run at one instant of the clock, with every request answered at once:
either it comes to wait after at most one request, or it never does.
-/

namespace PoleClient.Identity

open Connector Lib

/-! ## Accepted credentials -/

/-- What the snapshot of an accepted credential says. -/
structure Fresh (now : Int64) (descriptor : ServiceIdentityDescriptor)
    (credential : CredentialSnapshot) : Prop where
  expires : now < credential.expiresAt
  revision : credential.identityRevision = descriptor.revision

theorem fresh_of_validated {now : Int64} {credential : WorkloadCredential}
    {descriptor : ServiceIdentityDescriptor} {snapshot : CredentialSnapshot}
    (h : validateCredential now credential descriptor = .ok snapshot) :
    Fresh now descriptor snapshot := by
  unfold validateCredential at h
  obtain ⟨expiresAt, -, h⟩ := succeeds_of_bind h
  obtain ⟨renewAfter, -, h⟩ := succeeds_of_bind h
  obtain ⟨issuedAt, -, h⟩ := succeeds_of_bind h
  obtain ⟨notBefore, -, h⟩ := succeeds_of_bind h
  split at h
  · cases h
  · rename_i hvalid
    cases h
    constructor
    · simp only [Bool.or_eq_true, decide_eq_true_eq, not_or] at hvalid
      exact Int64.not_le.mp hvalid.2
    · rfl

theorem fresh_of_snapshot {now : Int64} {answer : WorkloadCredentialResponse}
    {descriptor : ServiceIdentityDescriptor} {snapshot : CredentialSnapshot}
    (h : credentialSnapshot now answer descriptor = .ok snapshot) :
    Fresh now descriptor snapshot := by
  unfold credentialSnapshot at h
  split at h
  · cases h
  · cases hcredential : answer.credential with
    | none =>
        rw [hcredential] at h
        cases h
    | some credential =>
        rw [hcredential] at h
        exact fresh_of_validated h

theorem wait_positive {now renewAfter : Int64} (clock : 0 ≤ now) (h : now < renewAfter) :
    0 < min (renewAfter - now) 30 := by
  have hnow := Int64.le_iff_toInt_le.mp clock
  have hlt := Int64.lt_iff_toInt_lt.mp h
  have hhigh := renewAfter.toInt_lt
  rw [show (0 : Int64).toInt = 0 from rfl] at hnow
  have hsub : (renewAfter - now).toInt = renewAfter.toInt - now.toInt := by
    rw [Int64.toInt_sub]
    apply Int.bmod_eq_of_le
    · omega
    · omega
  have hpositive : 0 < renewAfter - now := by
    rw [Int64.lt_iff_toInt_lt, hsub, show (0 : Int64).toInt = 0 from rfl]
    omega
  have hmin : min (renewAfter - now) 30 =
      if renewAfter - now ≤ 30 then renewAfter - now else 30 := rfl
  rw [hmin]
  split
  · exact hpositive
  · decide

theorem refreshAction_fresh {now : Int64} {descriptor : ServiceIdentityDescriptor}
    {credential : CredentialSnapshot} (fresh : Fresh now descriptor credential) :
    credentialRefreshAction (some credential) descriptor.revision now =
      if now < credential.renewAfter then .wait (min (credential.renewAfter - now) 30)
      else .renew credential.token := by
  rw [credentialRefreshAction, if_pos ⟨fresh.revision, fresh.expires⟩]

theorem waits_iff {now : Int64} (clock : 0 ≤ now) {descriptor : ServiceIdentityDescriptor}
    {credential : CredentialSnapshot} (fresh : Fresh now descriptor credential) :
    (∃ seconds, credentialRefreshAction (some credential) descriptor.revision now =
      .wait seconds ∧ 0 < seconds) ↔ now < credential.renewAfter := by
  rw [refreshAction_fresh fresh]
  constructor
  · rintro ⟨seconds, haction, -⟩
    by_contra hdue
    rw [if_neg hdue] at haction
    cases haction
  · intro hlater
    exact ⟨_, if_pos hlater, wait_positive clock hlater⟩

namespace RuntimeState

/-! ## The worker at one instant -/

def answered (now : Int64) (s : RuntimeState) (answer : WorkloadCredentialResponse) :
    RuntimeState :=
  s.workerStep now (.answer (.ok answer))

def requests (now : Int64) (s : RuntimeState) : Bool :=
  match s.worker with
  | .chooseAction descriptor =>
      match credentialRefreshAction s.credential descriptor.revision now with
      | .renew _ => true
      | _ => false
  | .clearFirst _ => true
  | _ => false

def requestsMade (now : Int64) : RuntimeState → List WorkloadCredentialResponse → Nat
  | _, [] => 0
  | s, answer :: answers =>
      (if s.requests now then 1 else 0) + requestsMade now (s.answered now answer) answers

/-- At the head of its loop, with nothing to keep it from refreshing for this descriptor. -/
structure AtHead (descriptor : ServiceIdentityDescriptor) (s : RuntimeState) : Prop where
  worker : s.worker = .loopTest
  running : s.stopped = false
  current : s.descriptor = some descriptor

theorem isCurrent_of_descriptor {s : RuntimeState} {descriptor : ServiceIdentityDescriptor}
    (h : s.descriptor = some descriptor) : s.isCurrent descriptor = true := by
  simp [isCurrent, h]

/-! ## No further request -/

structure Rested (now : Int64) (descriptor : ServiceIdentityDescriptor)
    (credential : CredentialSnapshot) : Prop extends Fresh now descriptor credential where
  later : now < credential.renewAfter

/-- The server's answer is accepted and not due for renewal. -/
def AnswersRested (now : Int64) (descriptor : ServiceIdentityDescriptor)
    (answer : WorkloadCredentialResponse) : Prop :=
  ∃ c, credentialSnapshot now answer descriptor = .ok c ∧ Rested now descriptor c

/-- The worker is on its way to a wait that nothing ends at this instant. -/
def Settled (now : Int64) (descriptor : ServiceIdentityDescriptor) (s : RuntimeState) : Prop :=
  s.stopped = false ∧ s.descriptor = some descriptor ∧
    match s.worker with
    | .loopTest | .takeDescriptor => ∃ c, s.credential = some c ∧ Rested now descriptor c
    | .chooseAction taken =>
        taken = descriptor ∧ ∃ c, s.credential = some c ∧ Rested now descriptor c
    | .await (.answer asked) _ => asked = descriptor
    | .compare asked (.ok answer) => asked = descriptor ∧ AnswersRested now descriptor answer
    | .store c => Rested now descriptor c
    | .await _ _ | .exited => True
    | _ => False

section Settle

variable {now : Int64} {descriptor : ServiceIdentityDescriptor} {s : RuntimeState}
  {answer : WorkloadCredentialResponse}

theorem settled_suspend (running : s.stopped = false) (current : s.descriptor = some descriptor)
    {wait : Wait} (h : ∀ asked, wait = .answer asked → asked = descriptor) :
    Settled now descriptor (s.suspend wait) := by
  unfold suspend
  refine ⟨running, current, ?_⟩
  cases s.aborted with
  | true => trivial
  | false =>
      cases wait with
      | answer asked => exact h asked rfl
      | _ => trivial

/-- A settled worker sends nothing, and stays settled. -/
theorem settled_answered (settled : Settled now descriptor s)
    (rested : AnswersRested now descriptor answer) :
    s.requests now = false ∧ Settled now descriptor (s.answered now answer) := by
  obtain ⟨running, current, hworker⟩ := settled
  unfold requests answered workerStep
  cases hpoint : s.worker with
  | loopTest =>
      simp only [hpoint] at hworker
      simp only [running, Bool.false_eq_true, if_false]
      exact ⟨trivial, running, current, hworker⟩
  | takeDescriptor =>
      simp only [hpoint] at hworker
      simp only [current]
      exact ⟨trivial, running, current, rfl, hworker⟩
  | chooseAction taken =>
      simp only [hpoint] at hworker
      obtain ⟨rfl, c, hslot, hc⟩ := hworker
      have haction := refreshAction_fresh hc.toFresh
      rw [if_pos hc.later, ← hslot] at haction
      simp only [haction]
      exact ⟨trivial, running, current, trivial⟩
  | await wait parked =>
      constructor
      · trivial
      · by_cases hgone : (parked && s.aborted) = true
        · simp only [hgone, if_true]
          exact ⟨running, current, trivial⟩
        · simp only [hgone, Bool.false_eq_true, if_false]
          cases wait with
          | answer asked =>
              simp only [hpoint] at hworker
              exact ⟨running, current, hworker, rested⟩
          | descriptor => exact settled_suspend running current fun _ h => by cases h
          | refresh => exact settled_suspend running current fun _ h => by cases h
          | backoff => exact settled_suspend running current fun _ h => by cases h
  | compare asked response =>
      cases response with
      | error err => simp [hpoint] at hworker
      | ok answer =>
          simp only [hpoint] at hworker
          obtain ⟨rfl, c, hc, hrested⟩ := hworker
          have haccepted : accepted now asked (.ok answer) = .store c := by
            simp only [accepted, Except.bind, hc]
          simp only [isCurrent_of_descriptor current, if_true, haccepted]
          exact ⟨trivial, running, current, hrested⟩
  | store c =>
      simp only [hpoint] at hworker
      exact ⟨rfl, running, current, c, rfl, hworker⟩
  | exited => exact ⟨rfl, running, current, by simp only [hpoint]⟩
  | _ => simp [hpoint] at hworker

theorem requestsMade_settled (settled : Settled now descriptor s)
    {answers : List WorkloadCredentialResponse}
    (rested : ∀ answer ∈ answers, AnswersRested now descriptor answer) :
    requestsMade now s answers = 0 := by
  induction answers generalizing s with
  | nil => rfl
  | cons answer answers ih =>
      obtain ⟨hquiet, hnext⟩ := settled_answered settled (rested answer List.mem_cons_self)
      rw [requestsMade, hquiet, if_neg Bool.false_ne_true, Nat.zero_add]
      exact ih hnext fun other hother => rested other (List.mem_cons_of_mem answer hother)

/-! ## At most one request -/

/-- Before the first request of a turn of the loop. -/
def Starting (descriptor : ServiceIdentityDescriptor) (s : RuntimeState) : Prop :=
  s.stopped = false ∧ s.descriptor = some descriptor ∧
    (s.worker = .loopTest ∨ s.worker = .takeDescriptor ∨ s.worker = .chooseAction descriptor ∨
      s.worker = .clearFirst descriptor)

theorem starting_answered (starting : Starting descriptor s) (now : Int64)
    (answer : WorkloadCredentialResponse) :
    (s.requests now = false ∧ Starting descriptor (s.answered now answer)) ∨
      Settled now descriptor (s.answered now answer) := by
  obtain ⟨running, current, hloop | htake | hchoose | hclear⟩ := starting
  · left
    simp only [requests, answered, workerStep, hloop, running, Bool.false_eq_true, if_false]
    exact ⟨trivial, running, current, .inr (.inl rfl)⟩
  · left
    simp only [requests, answered, workerStep, htake, current]
    exact ⟨trivial, running, current, .inr (.inr (.inl rfl))⟩
  · cases haction : credentialRefreshAction s.credential descriptor.revision now with
    | wait seconds =>
        right
        simp only [answered, workerStep, hchoose, haction]
        exact ⟨running, current, trivial⟩
    | issue =>
        left
        simp only [requests, answered, workerStep, hchoose, haction]
        exact ⟨trivial, running, current, .inr (.inr (.inr rfl))⟩
    | renew token =>
        right
        simp only [answered, workerStep, hchoose, haction]
        exact ⟨running, current, rfl⟩
  · right
    simp only [answered, workerStep, hclear]
    exact ⟨running, current, rfl⟩

theorem requestsMade_starting (starting : Starting descriptor s)
    {answers : List WorkloadCredentialResponse}
    (rested : ∀ answer ∈ answers, AnswersRested now descriptor answer) :
    requestsMade now s answers ≤ 1 := by
  induction answers generalizing s with
  | nil => exact Nat.zero_le 1
  | cons answer answers ih =>
      have hrest : ∀ other ∈ answers, AnswersRested now descriptor other :=
        fun other hother => rested other (List.mem_cons_of_mem answer hother)
      rw [requestsMade]
      rcases starting_answered starting now answer with ⟨hquiet, hnext⟩ | hsettled
      · rw [hquiet, if_neg Bool.false_ne_true, Nat.zero_add]
        exact ih hnext hrest
      · rw [requestsMade_settled hsettled hrest]
        split
        · exact Nat.le_refl 1
        · exact Nat.zero_le 1

/-! ## A request in every turn -/

structure Due (now : Int64) (descriptor : ServiceIdentityDescriptor)
    (credential : CredentialSnapshot) : Prop extends Fresh now descriptor credential where
  due : ¬ now < credential.renewAfter

theorem requestsMade_append (s : RuntimeState) (first second : List WorkloadCredentialResponse) :
    requestsMade now s (first ++ second) =
      requestsMade now s first + requestsMade now (run (answered now) s first) second := by
  induction first generalizing s with
  | nil => rw [List.nil_append, requestsMade, Nat.zero_add, run_nil]
  | cons answer first ih => rw [List.cons_append, requestsMade, ih, requestsMade, run_cons,
      Nat.add_assoc]

theorem answered_head (head : AtHead descriptor s) :
    run (answered now) s [answer, answer] = s.goTo (.chooseAction descriptor) := by
  have htake : s.answered now answer = s.goTo .takeDescriptor := by
    simp only [answered, workerStep, head.worker, head.running, Bool.false_eq_true, if_false]
  have hchoose : (s.goTo .takeDescriptor).answered now answer =
      s.goTo (.chooseAction descriptor) := by
    simp only [answered, workerStep, goTo, head.current]
  rw [run_cons, htake, run_cons, hchoose, run_nil]

theorem answered_asked {c : CredentialSnapshot} (current : s.descriptor = some descriptor)
    (accepts : credentialSnapshot now answer descriptor = .ok c)
    (h : s.worker = .await (.answer descriptor) false) :
    run (answered now) s [answer, answer, answer] =
      { s with credential := some c, worker := .loopTest } := by
  have hcompare : s.answered now answer = s.goTo (.compare descriptor (.ok answer)) := by
    simp only [answered, workerStep, h, Bool.false_and, Bool.false_eq_true, if_false, poll]
  have hstore : (s.goTo (.compare descriptor (.ok answer))).answered now answer =
      s.goTo (.store c) := by
    have hcurrent : (s.goTo (.compare descriptor (.ok answer))).isCurrent descriptor = true :=
      isCurrent_of_descriptor current
    have haccepted : accepted now descriptor (.ok answer) = .store c := by
      simp only [accepted, Except.bind, accepts]
    simp only [answered, workerStep, goTo] at hcurrent ⊢
    simp only [hcurrent, if_true, haccepted]
  rw [run_cons, hcompare, run_cons, hstore]
  rfl

/-- A turn that renews a due credential ends where it began, after a request. -/
theorem renewal_turn (head : AtHead descriptor s) {c : CredentialSnapshot}
    (slot : s.credential = some c) (accepts : credentialSnapshot now answer descriptor = .ok c)
    (due : Due now descriptor c) :
    0 < requestsMade now s (List.replicate 6 answer) ∧
      run (answered now) s (List.replicate 6 answer) = s := by
  have haction := refreshAction_fresh due.toFresh
  rw [if_neg due.due, ← slot] at haction
  have hask : (s.goTo (.chooseAction descriptor)).answered now answer =
      s.goTo (.await (.answer descriptor) false) := by
    simp only [answered, workerStep, goTo, haction]
  have hasked : run (answered now) (s.goTo (.await (.answer descriptor) false))
      [answer, answer, answer] = { s with credential := some c, worker := .loopTest } :=
    @answered_asked now descriptor (s.goTo (.await (.answer descriptor) false)) answer c
      head.current accepts rfl
  have hparts : List.replicate 6 answer = [answer, answer] ++ [answer, answer, answer, answer] :=
    rfl
  constructor
  · have hrequest : (s.goTo (.chooseAction descriptor)).requests now = true := by
      simp only [requests, goTo, haction]
    have hmade : requestsMade now (s.goTo (.chooseAction descriptor))
        [answer, answer, answer, answer] =
          1 + requestsMade now (s.goTo (.await (.answer descriptor) false))
            [answer, answer, answer] := by
      rw [requestsMade, hrequest, if_pos rfl, hask]
    rw [hparts, requestsMade_append, answered_head head, hmade]
    omega
  · rw [hparts, run_append, answered_head head, run_cons, hask, hasked, ← slot, ← head.worker]

theorem requestsMade_turns (head : AtHead descriptor s) {c : CredentialSnapshot}
    (slot : s.credential = some c) (accepts : credentialSnapshot now answer descriptor = .ok c)
    (due : Due now descriptor c) (turns : Nat) :
    turns ≤ requestsMade now s (List.replicate (6 * turns) answer) := by
  induction turns with
  | zero => exact Nat.zero_le _
  | succ turns ih =>
      obtain ⟨hrequest, hreturn⟩ := renewal_turn head slot accepts due
      rw [show 6 * (turns + 1) = 6 + 6 * turns by omega, List.replicate_add,
        requestsMade_append, hreturn]
      omega

theorem first_turn (head : AtHead descriptor s) {c : CredentialSnapshot}
    (accepts : credentialSnapshot now answer descriptor = .ok c)
    (active : ∀ seconds, credentialRefreshAction s.credential descriptor.revision now ≠
      .wait seconds) :
    ∃ steps, run (answered now) s (List.replicate steps answer) =
      { s with credential := some c, worker := .loopTest } := by
  cases haction : credentialRefreshAction s.credential descriptor.revision now with
  | wait seconds => exact absurd haction (active seconds)
  | renew token =>
      refine ⟨6, ?_⟩
      have hask : (s.goTo (.chooseAction descriptor)).answered now answer =
          s.goTo (.await (.answer descriptor) false) := by
        simp only [answered, workerStep, goTo, haction]
      rw [show List.replicate 6 answer = [answer, answer] ++ [answer, answer, answer, answer]
        from rfl, run_append, answered_head head, run_cons, hask]
      exact @answered_asked now descriptor (s.goTo (.await (.answer descriptor) false)) answer c
        head.current accepts rfl
  | issue =>
      refine ⟨7, ?_⟩
      have hclear : (s.goTo (.chooseAction descriptor)).answered now answer =
          s.goTo (.clearFirst descriptor) := by
        simp only [answered, workerStep, goTo, haction]
      have hask : (s.goTo (.clearFirst descriptor)).answered now answer =
          { s with credential := none, worker := .await (.answer descriptor) false } := by
        simp only [answered, workerStep, goTo]
      rw [show List.replicate 7 answer =
        [answer, answer] ++ [answer, answer, answer, answer, answer] from rfl, run_append,
        answered_head head, run_cons, hclear, run_cons, hask]
      exact @answered_asked now descriptor
        { s with credential := none, worker := .await (.answer descriptor) false } answer c
        head.current accepts rfl

/-- A server that keeps giving one acceptable answer gets a bounded number of requests at one
instant exactly if its credential is not due then. -/
theorem bounded_requests_iff (head : AtHead descriptor s) {c : CredentialSnapshot}
    (accepts : credentialSnapshot now answer descriptor = .ok c)
    (active : ∀ seconds, credentialRefreshAction s.credential descriptor.revision now ≠
      .wait seconds) :
    (∃ bound, ∀ steps, requestsMade now s (List.replicate steps answer) ≤ bound) ↔
      now < c.renewAfter := by
  have hfresh := fresh_of_snapshot accepts
  constructor
  · rintro ⟨bound, hbound⟩
    by_contra hdue
    obtain ⟨steps, hfirst⟩ := first_turn head accepts active
    have hhead : AtHead descriptor { s with credential := some c, worker := .loopTest } :=
      ⟨rfl, head.running, head.current⟩
    have hturns := requestsMade_turns hhead rfl accepts ⟨hfresh, hdue⟩ (bound + 1)
    have hall := hbound (steps + 6 * (bound + 1))
    rw [List.replicate_add, requestsMade_append, hfirst] at hall
    omega
  · intro hlater
    refine ⟨1, fun steps => requestsMade_starting ⟨head.running, head.current, .inl head.worker⟩ ?_⟩
    intro other hother
    rw [List.eq_of_mem_replicate hother]
    exact ⟨c, accepts, hfresh, hlater⟩

end Settle

/-! ## No request storm -/

/-- For every credential that is accepted at a time, the action at that time is a wait of a
positive duration exactly if the credential is not due for renewal then. Answers with such
credentials, in any number, draw at most one request at one instant; an answer that is repeated
draws a bounded number exactly if its credential is one of these. -/
theorem no_request_storm_iff (now : Int64) (clock : 0 ≤ now)
    (descriptor : ServiceIdentityDescriptor) :
    (∀ credential snapshot, validateCredential now credential descriptor = .ok snapshot →
      ((∃ seconds, credentialRefreshAction (some snapshot) descriptor.revision now =
        .wait seconds ∧ 0 < seconds) ↔ now < snapshot.renewAfter)) ∧
    (∀ s answers, AtHead descriptor s →
      (∀ answer ∈ answers, AnswersRested now descriptor answer) →
        requestsMade now s answers ≤ 1) ∧
    (∀ s answer snapshot, AtHead descriptor s →
      credentialSnapshot now answer descriptor = .ok snapshot →
      (∀ seconds, credentialRefreshAction s.credential descriptor.revision now ≠
        .wait seconds) →
        ((∃ bound, ∀ steps, requestsMade now s (List.replicate steps answer) ≤ bound) ↔
          now < snapshot.renewAfter)) := by
  constructor
  · intro credential snapshot haccepted
    exact waits_iff clock (fresh_of_validated haccepted)
  constructor
  · intro s answers head rested
    exact requestsMade_starting ⟨head.running, head.current, .inl head.worker⟩ rested
  · intro s answer snapshot head accepts active
    exact bounded_requests_iff head accepts active

/-! ## A credential that comes late -/

def readyState : RuntimeState :=
  { start with descriptor := some ordersDescriptor, worker := .loopTest }

theorem atHead_readyState : AtHead ordersDescriptor readyState := ⟨rfl, rfl, rfl⟩

theorem timely_answers_rest :
    requestsMade 100 readyState (List.replicate 20 (answerFor ordersDescriptor)) ≤ 1 := by
  have hall := no_request_storm_iff 100 (by decide) ordersDescriptor
  apply hall.2.1 readyState _ atHead_readyState
  intro answer hanswer
  rw [List.eq_of_mem_replicate hanswer]
  have haccepted := @credentialSnapshot_answerFor ordersDescriptor 100 (by decide)
  exact ⟨_, haccepted, fresh_of_snapshot haccepted, by decide⟩

/-- At 350 the credential is accepted, to be renewed after 300 and valid until 400. -/
theorem late_credential_storms :
    (¬ ∀ now credential descriptor snapshot, 0 ≤ now →
      validateCredential now credential descriptor = .ok snapshot →
        ∃ seconds, credentialRefreshAction (some snapshot) descriptor.revision now =
          .wait seconds ∧ 0 < seconds) ∧
    ∀ bound, ∃ steps, bound <
      requestsMade 350 readyState (List.replicate steps (answerFor ordersDescriptor)) := by
  have haccepted := @credentialSnapshot_answerFor ordersDescriptor 350 (by decide)
  have hdue : ¬ (350 : Int64) < (credentialFor ordersDescriptor).renewAfter := by decide
  constructor
  · intro h
    obtain ⟨seconds, hwait, -⟩ := h 350 _ ordersDescriptor _ (by decide) haccepted
    rw [refreshAction_fresh (fresh_of_snapshot haccepted), if_neg hdue] at hwait
    cases hwait
  · intro bound
    by_contra hbounded
    have hiff := bounded_requests_iff atHead_readyState haccepted (by intro seconds h; cases h)
    exact hdue (hiff.mp ⟨bound, fun steps => Nat.le_of_not_lt fun h => hbounded ⟨steps, h⟩⟩)

end RuntimeState

end PoleClient.Identity
