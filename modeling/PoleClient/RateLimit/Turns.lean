import PoleClient.RateLimit.Pairing

/-! # Taking turns on the stream

Calls overlap on the stream only if a caller is dropped while a usable session
still owes it a response. The invariant follows the holder of the request lock:
before it sends, and once it has its response, nothing is in flight. A caller
that gives up on the session leaves it marked, and no call passes the check of
a marked session.
-/

namespace PoleClient.RateLimit

open Lib

namespace QuotaSession

variable {κ : Type}

/-! ## The invariant -/

/-- What holds while a call has the request lock. -/
def Phase (s : QuotaSession κ) (call : κ) : Stage → Prop
  | .pendingSlot _ => s.inFlight = []
  | .sending _ => s.inFlight = [] ∧ (s.usable = true → s.inbox call = .waiting)
  | .awaiting _ => s.inbox call ≠ .waiting → s.usable = true → s.inFlight = []
  | .failing _ _ => s.usable = false
  | .idle | .requestLock _ | .returned _ | .dropped => True

structure Orderly (s : QuotaSession κ) : Prop where
  locks : ∀ call, (s.stage call).locks = true ↔ s.requestLock = some call
  phase : ∀ call, s.requestLock = some call → s.Phase call (s.stage call)
  free : s.requestLock = none → s.usable = true → s.inFlight = []
  single : s.inFlight.length ≤ 1
  untouched : ∀ call, (s.stage call).uninstalled = true →
    s.inbox call = .waiting ∧ s.pending ≠ some call
  reader : ∀ message, s.reader = .failing message → s.usable = false

/-- A caller is dropped while a usable session still owes it its response. -/
def LeavesUnanswered (s : QuotaSession κ) : Action κ → Prop
  | .cancel caller =>
      match s.stage caller, s.inbox caller with
      | .awaiting _, .waiting => s.usable = true
      | _, _ => False
  | _ => False

instance (s : QuotaSession κ) (action : Action κ) : Decidable (s.LeavesUnanswered action) := by
  unfold LeavesUnanswered
  split
  · split <;> infer_instance
  · infer_instance

theorem orderly_connected : Orderly (connected : QuotaSession κ) := by
  constructor <;> simp [connected, inFlight, undelivered, Reader.held, Stage.locks]

/-- The holder of the lock finds nothing in flight when it takes the slot. -/
theorem Orderly.not_overlaps {s : QuotaSession κ} (inv : Orderly s) (action : Action κ) :
    ¬ Overlaps s action := by
  intro h
  cases action with
  | install caller =>
      simp only [Overlaps] at h
      split at h
      · rename_i request hstage
        have hphase := inv.phase caller ((inv.locks caller).mp (by rw [hstage]; rfl))
        rw [hstage] at hphase
        exact h hphase
      · exact h
  | _ => exact h

/-! ## Moves of the surroundings -/

theorem Surrounds.unusable {s t : QuotaSession κ} (moved : Surrounds s t)
    (h : s.usable = false) : t.usable = false := by
  apply Bool.eq_false_iff.mpr
  intro husable
  rw [moved.usable husable] at h
  cases h

theorem Surrounds.phase {s t : QuotaSession κ} (moved : Surrounds s t) {call : κ} {stage : Stage}
    (h : s.Phase call stage) : t.Phase call stage := by
  cases stage with
  | idle | requestLock _ | returned _ | dropped => trivial
  | pendingSlot request => exact moved.quiet h
  | sending request =>
      refine ⟨moved.quiet h.1, fun husable => ?_⟩
      rw [moved.inbox]
      exact h.2 (moved.usable husable)
  | awaiting cmd =>
      intro hinbox husable
      rw [moved.inbox] at hinbox
      exact moved.quiet (h hinbox (moved.usable husable))
  | failing message err => exact moved.unusable h

theorem Surrounds.orderly {s t : QuotaSession κ} (moved : Surrounds s t) (inv : Orderly s)
    (reader : ∀ message, t.reader = .failing message → t.usable = false) : Orderly t := by
  constructor
  · rw [moved.stage, moved.requestLock]
    exact inv.locks
  · rw [moved.stage, moved.requestLock]
    exact fun call hlock => moved.phase (inv.phase call hlock)
  · rw [moved.requestLock]
    exact fun hlock husable => moved.quiet (inv.free hlock (moved.usable husable))
  · exact Nat.le_trans moved.flight.length_le inv.single
  · rw [moved.stage, moved.inbox, moved.pending]
    exact inv.untouched
  · exact reader

/-! ## Moves of a caller -/

/-- A caller that is dropped with the lock of a usable session leaves nothing in flight, unless
its response is still due. -/
theorem quiet_of_cancel {s : QuotaSession κ} {caller : κ} (inv : Orderly s)
    (hlock : s.requestLock = some caller) (ok : ¬ LeavesUnanswered s (.cancel caller)) :
    s.usable = true → s.inFlight = [] := by
  intro husable
  have hlocks := (inv.locks caller).mpr hlock
  have hphase := inv.phase caller hlock
  cases hstage : s.stage caller with
  | idle | requestLock _ | returned _ | dropped =>
      rw [hstage] at hlocks
      cases hlocks
  | pendingSlot request =>
      rw [hstage] at hphase
      exact hphase
  | sending request =>
      rw [hstage] at hphase
      exact hphase.1
  | awaiting cmd =>
      rw [hstage] at hphase
      apply hphase _ husable
      intro hinbox
      apply ok
      simp only [LeavesUnanswered, hstage, hinbox]
      exact husable
  | failing message err =>
      rw [hstage] at hphase
      exact absurd (hphase.symm.trans husable) Bool.false_ne_true

section Callers

variable [DecidableEq κ] {s : QuotaSession κ} {caller : κ}

/-- A caller goes on without the lock; if it held the lock of a usable session, nothing may be
in flight. -/
theorem orderly_finish (inv : Orderly s) {stage : Stage} (unlocked : stage.locks = false)
    (uninstalled : stage.uninstalled = true → (s.stage caller).uninstalled = true)
    (quiet : s.requestLock = some caller → s.usable = true → s.inFlight = []) :
    Orderly (s.finish caller stage) := by
  have hrelease := finish_requestLock caller inv.locks stage
  constructor
  · exact locks_finish inv.locks unlocked
  · intro call hlock
    rw [hrelease] at hlock
    split at hlock
    · cases hlock
    · rename_i hheld
      have hne : call ≠ caller := fun heq => hheld (heq ▸ hlock)
      show Phase s call ((s.setStage caller stage).stage call)
      rw [setStage_of_ne stage hne]
      exact inv.phase call hlock
  · intro hlock husable
    rw [hrelease] at hlock
    split at hlock
    · rename_i hheld
      exact quiet hheld husable
    · exact inv.free hlock husable
  · exact inv.single
  · intro call h
    exact inv.untouched call (setStage_reflects stage (fun stage => stage.uninstalled = true)
      uninstalled h)
  · exact inv.reader

theorem orderly_hold (inv : Orderly s) {stage : Stage} (holds : stage.locks = true)
    (hlock : s.requestLock = none ∨ s.requestLock = some caller)
    (uninstalled : stage.uninstalled = true → (s.stage caller).uninstalled = true)
    (phase : s.Phase caller stage) :
    Orderly { s.setStage caller stage with requestLock := some caller } := by
  constructor
  · exact locks_setStage inv.locks holds hlock
  · intro call h
    cases h
    show Phase _ caller ((s.setStage caller stage).stage caller)
    rw [setStage_self]
    cases stage <;> exact phase
  · intro h
    cases h
  · exact inv.single
  · intro call h
    exact inv.untouched call (setStage_reflects stage (fun stage => stage.uninstalled = true)
      uninstalled h)
  · exact inv.reader

theorem orderly_fail (inv : Orderly s) {message : String} {err : PoleError}
    (hlocks : (s.stage caller).locks = true) :
    Orderly (s.markUnhealthy.setStage caller (.failing message err)) := by
  have hlock : s.requestLock = some caller := (inv.locks caller).mp hlocks
  rw [setStage_lock (s := s.markUnhealthy) _ hlock]
  exact orderly_hold ((surrounds_markUnhealthy s).orderly inv fun _ _ => rfl) rfl (.inr hlock)
    (fun h => nomatch h) rfl

/-- The caller's sender replaces what a dropped caller may have left in the slot. -/
theorem orderly_install (inv : Orderly s) {request : RemoteRateLimitRequest}
    (hstage : s.stage caller = .pendingSlot request) :
    Orderly ((s.install caller).setStage caller (.sending request)) := by
  have hlock : s.requestLock = some caller := (inv.locks caller).mp (by rw [hstage]; rfl)
  have hquiet : s.inFlight = [] := by
    have hphase := inv.phase caller hlock
    rwa [hstage] at hphase
  -- no inbox but that of the overwritten sender changes
  have hinbox : ∀ call, (s.stage call).uninstalled = true →
      (s.install caller).inbox call = .waiting := by
    intro call h
    rcases inv.untouched call h with ⟨hwaiting, hslot⟩
    unfold install
    cases hpending : s.pending with
    | none => exact hwaiting
    | some old =>
        have hother : call ≠ old := fun heq => hslot (heq ▸ hpending)
        exact (Function.update_of_ne hother ..).trans hwaiting
  constructor
  · show ∀ call, _ ↔ s.requestLock = some call
    rw [hlock]
    exact locks_setStage inv.locks rfl (.inr hlock)
  · intro call h
    cases hlock.symm.trans h
    show Phase _ caller (((s.install caller).setStage caller (.sending request)).stage caller)
    rw [setStage_self]
    exact ⟨hquiet, fun _ => hinbox caller (by rw [hstage]; rfl)⟩
  · intro h
    cases hlock.symm.trans h
  · exact inv.single
  · intro call h
    have hne : call ≠ caller := by
      intro heq
      rw [heq, setStage_self] at h
      cases h
    rw [setStage_of_ne _ hne] at h
    exact ⟨hinbox call h, fun h => hne (Option.some.inj h).symm⟩
  · exact inv.reader

theorem orderly_send (inv : Orderly s) {request : RemoteRateLimitRequest}
    (hstage : s.stage caller = .sending request) :
    Orderly { s.setStage caller (.awaiting request.cmd) with
      outgoing := s.outgoing ++ [(caller, request)] } := by
  have hlock : s.requestLock = some caller := (inv.locks caller).mp (by rw [hstage]; rfl)
  have hphase := inv.phase caller hlock
  rw [hstage] at hphase
  have hflight : inFlight { s.setStage caller (.awaiting request.cmd) with
      outgoing := s.outgoing ++ [(caller, request)] } = s.inFlight ++ [caller] := by
    simp [inFlight, undelivered, setStage]
  constructor
  · show ∀ call, _ ↔ s.requestLock = some call
    rw [hlock]
    exact locks_setStage inv.locks rfl (.inr hlock)
  · intro call h
    cases hlock.symm.trans h
    show Phase _ caller ((s.setStage caller (.awaiting request.cmd)).stage caller)
    rw [setStage_self]
    exact fun hinbox husable => absurd (hphase.2 husable) hinbox
  · intro h
    cases hlock.symm.trans h
  · rw [hflight, hphase.1]
    exact Nat.le_refl 1
  · intro call h
    exact inv.untouched call (setStage_reflects (.awaiting request.cmd)
      (fun stage => stage.uninstalled = true) (fun h => by cases h) h)
  · exact inv.reader

/-- A delivery to the slot keeps the turns if nothing is left in flight of a usable session, and
the holder of the lock is not about to send on it. -/
theorem orderly_deliver (inv : Orderly s) {result : Except String RemoteRateLimitResponse}
    (quiet : s.usable = true → s.inFlight = [])
    (unsent : ∀ call request, s.requestLock = some call → s.stage call = .sending request →
      s.usable = false) : Orderly (s.deliver result) := by
  unfold deliver
  cases hpending : s.pending with
  | none => exact inv
  | some waiting =>
      constructor
      · exact inv.locks
      · intro call hlock
        have hphase := inv.phase call hlock
        show Phase _ call (s.stage call)
        cases hstage : s.stage call with
        | idle | requestLock _ | returned _ | dropped => trivial
        | pendingSlot request =>
            rw [hstage] at hphase
            exact hphase
        | sending request =>
            rw [hstage] at hphase
            have hunusable := unsent call request hlock hstage
            refine ⟨hphase.1, fun husable => ?_⟩
            exact absurd (hunusable.symm.trans husable) Bool.false_ne_true
        | awaiting cmd => exact fun _ husable => quiet husable
        | failing message err =>
            rw [hstage] at hphase
            exact hphase
      · exact inv.free
      · exact inv.single
      · intro call hstage
        rcases inv.untouched call hstage with ⟨hinbox, hslot⟩
        have hne : call ≠ waiting := fun heq => hslot (heq ▸ hpending)
        refine ⟨?_, fun h => (nomatch h)⟩
        show Function.update s.inbox waiting _ call = .waiting
        rw [Function.update_of_ne hne, hinbox]
      · exact inv.reader

theorem orderly_failure (inv : Orderly s) (hunusable : s.usable = false) (message : String) :
    Orderly (s.deliver (.error message)) := by
  apply orderly_deliver inv
  · intro husable
    rw [hunusable] at husable
    cases husable
  · exact fun _ _ _ _ => hunusable

theorem orderly_finishFailure (inv : Orderly s) {message : String} {err : PoleError}
    (hstage : s.stage caller = .failing message err) :
    Orderly ((s.deliver (.error message)).finish caller (.returned (.error err))) := by
  have hphase := inv.phase caller ((inv.locks caller).mp (by rw [hstage]; rfl))
  rw [hstage] at hphase
  have hunusable : (s.deliver (.error message)).usable = false := by
    unfold deliver
    split <;> exact hphase
  refine orderly_finish (orderly_failure inv hphase message) rfl (fun h => nomatch h)
    (fun _ husable => ?_)
  rw [hunusable] at husable
  cases husable

theorem orderly_resume (inv : Orderly s) {cmd : ProtoEnum RateLimitCmd}
    (hstage : s.stage caller = .awaiting cmd) : Orderly (s.resume caller cmd) := by
  have hphase := inv.phase caller ((inv.locks caller).mp (by rw [hstage]; rfl))
  rw [hstage] at hphase
  unfold resume
  cases hinbox : s.inbox caller with
  | waiting => exact inv
  | canceled =>
      have hquiet := hphase (by rw [hinbox]; exact fun h => nomatch h)
      exact orderly_finish inv rfl (fun h => nomatch h) fun _ => hquiet
  | received result =>
      have hquiet := hphase (by rw [hinbox]; exact fun h => nomatch h)
      cases result with
      | error message => exact orderly_finish inv rfl (fun h => nomatch h) fun _ => hquiet
      | ok response =>
          simp only
          split
          · exact orderly_finish inv rfl (fun h => nomatch h) fun _ => hquiet
          · exact orderly_fail inv (by rw [hstage]; rfl)

theorem orderly_readerDeliver (inv : Orderly s) {answer : Answer κ}
    (hreader : s.reader = .delivering answer) :
    Orderly { s.deliver (.ok answer.response) with reader := .receiving } := by
  have hcons : s.inFlight = answer.call :: inFlight { s with reader := .receiving } := by
    unfold inFlight undelivered
    rw [hreader]
    rfl
  have hinv : Orderly { s with reader := .receiving } :=
    (surrounds_readerIdle s rfl).orderly inv fun _ h => nomatch h
  -- the answer was all that was in flight
  have hquiet : inFlight { s with reader := .receiving } = [] := by
    have hsingle := inv.single
    rw [hcons, List.length_cons] at hsingle
    exact List.eq_nil_of_length_eq_zero (by omega)
  rw [deliver_reader]
  apply orderly_deliver hinv fun _ => hquiet
  intro call request hlock hstage
  have hphase := inv.phase call hlock
  rw [show s.stage call = .sending request from hstage] at hphase
  cases hcons.symm.trans hphase.1

/-! ## Steps and runs -/

theorem orderly_step (inv : Orderly s) (action : Action κ) (ok : ¬ LeavesUnanswered s action) :
    Orderly (s.step action) := by
  cases action with
  | call caller request =>
      simp only [step]
      split
      · rename_i hstage
        rw [← finish_of_not_locks _ (by rw [hstage]; rfl)]
        refine orderly_finish inv rfl (fun _ => by rw [hstage]; rfl) fun hlock => ?_
        have hlocks := (inv.locks caller).mpr hlock
        rw [hstage] at hlocks
        cases hlocks
      · exact inv
  | acquire caller =>
      simp only [step]
      split
      · rename_i request hstage hlock
        split
        · rename_i husable
          exact orderly_hold inv rfl (.inl hlock) (fun _ => by rw [hstage]; rfl)
            (inv.free hlock husable)
        · rw [← finish_of_not_locks _ (by rw [hstage]; rfl)]
          refine orderly_finish inv rfl (fun h => by cases h) fun hheld => ?_
          rw [hlock] at hheld
          cases hheld
      · exact inv
  | install caller =>
      simp only [step]
      split
      · rename_i request hstage
        exact orderly_install inv hstage
      · exact inv
  | send caller =>
      simp only [step]
      split
      · rename_i request hstage
        split
        · exact orderly_fail inv (by rw [hstage]; rfl)
        · exact orderly_send inv hstage
      · exact inv
  | receive caller =>
      simp only [step]
      split
      · rename_i cmd hstage
        exact orderly_resume inv hstage
      · exact inv
  | timeout caller =>
      simp only [step]
      split
      · rename_i hstage _
        exact orderly_fail inv (by rw [hstage]; rfl)
      · exact inv
  | finishFailure caller =>
      simp only [step]
      split
      · rename_i message err hstage
        exact orderly_finishFailure inv hstage
      · exact inv
  | cancel caller =>
      simp only [step]
      split
      · exact inv
      · exact orderly_finish inv rfl (fun h => by cases h) fun hlock => quiet_of_cancel inv hlock ok
  | answer response =>
      simp only [step]
      split
      · exact inv
      · rename_i call request outgoing hout
        exact (surrounds_answer hout response).orderly inv inv.reader
  | readerTake =>
      simp only [step]
      split
      · rename_i answer incoming hreader hin
        exact (surrounds_readerTake hreader hin).orderly inv fun _ h => by cases h
      · exact inv
  | readerDeliver =>
      simp only [step]
      split
      · rename_i answer hreader
        exact orderly_readerDeliver inv hreader
      · exact inv
  | streamEnd error =>
      simp only [step]
      split
      · have hinv := (surrounds_markUnhealthy s).orderly inv fun _ _ => rfl
        exact (surrounds_readerIdle s.markUnhealthy rfl).orderly hinv fun _ _ => rfl
      · exact inv
  | readerFail =>
      simp only [step]
      split
      · rename_i message hreader
        rw [deliver_reader]
        have hinv : Orderly { s with reader := .stopped } :=
          (surrounds_readerIdle s rfl).orderly inv fun _ h => by cases h
        exact orderly_failure hinv (inv.reader message hreader) message
      · exact inv
  | closeChannel =>
      have hmoved := surrounds_closeChannel s
      exact hmoved.orderly inv fun message h => hmoved.unusable (inv.reader message h)

end Callers

/-- Calls overlap only if a caller leaves a usable session that owes it a response. If no calls
overlap, every response that a call returns answers its own request, and every lease it is granted
was granted to it. -/
theorem answers_paired [DecidableEq κ] (actions : List (Action κ)) :
    (Along step (fun s action => ¬ LeavesUnanswered s action) connected actions →
      Along step (fun s action => ¬ Overlaps s action) connected actions) ∧
    (Along step (fun s action => ¬ Overlaps s action) connected actions →
      (∀ call response, (run step connected actions).stage call = .returned (.ok response) →
        (run step connected actions).answerTo call = some response) ∧
      ∀ call result leaseId, (run step connected actions).stage call = .returned result →
        reserveOutcome result = .ok (.reserved leaseId) →
        ∃ response, (run step connected actions).answerTo call = some response ∧
          reserveOutcome (.ok response) = .ok (.reserved leaseId)) := by
  constructor
  · exact @along_of_invariant _ _ step _ _ Orderly
      (fun _ action inv ok => orderly_step inv action ok)
      (fun _ action inv _ => inv.not_overlaps action) _ _ orderly_connected
  · exact fun along => (matched_run along).returns

/-! ## Two callers -/

def reserveRequest : RemoteRateLimitRequest := ⟨.known .reserve, 7⟩

def grant (leaseId : String) : RemoteRateLimitResponse :=
  ⟨.known .reserve, some ⟨rateLimitSuccessCode, leaseId⟩⟩

/-- What a caller does up to its wait for the response. -/
def ask (caller : Nat) : List (Action Nat) :=
  [.call caller reserveRequest, .acquire caller, .install caller, .send caller]

def hear (caller : Nat) : List (Action Nat) :=
  [.readerTake, .readerDeliver, .receive caller]

/-- Two callers, one after the other, and a third that is dropped before it sends. -/
theorem answers_paired_twoCallers :
    (run step connected (ask 0 ++ [.answer (grant "a")] ++ hear 0 ++
      [.call 2 reserveRequest, .cancel 2] ++ ask 1 ++ [.answer (grant "b")] ++ hear 1)).answerTo 1 =
        some (grant "b") := by
  have hpaired := answers_paired (ask 0 ++ [.answer (grant "a")] ++ hear 0 ++
    [.call 2 reserveRequest, .cancel 2] ++ ask 1 ++ [.answer (grant "b")] ++ hear 1)
  exact (hpaired.2 (hpaired.1 (by decide))).1 1 (grant "b") rfl

/-- The first caller is dropped while it waits; the second is handed its lease. -/
theorem dropped_caller_lease_passed_on :
    (run step connected (ask 0 ++ [.cancel 0] ++ ask 1 ++ [.answer (grant "a")] ++ hear 1 ++
        [.answer (grant "b")])).stage 1 = .returned (.ok (grant "a")) ∧
      (run step connected (ask 0 ++ [.cancel 0] ++ ask 1 ++ [.answer (grant "a")] ++ hear 1 ++
        [.answer (grant "b")])).answerTo 1 = some (grant "b") ∧
      reserveOutcome (.ok (grant "a")) = .ok (.reserved "a") :=
  ⟨rfl, rfl, rfl⟩

end QuotaSession

end PoleClient.RateLimit
