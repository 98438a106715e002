import PoleClient.Lib.Run
import PoleClient.RateLimit.Session

/-! # Pairing of responses with calls

A response carries no identifier, and goes to the caller in the pending slot.
That is the caller whose request it answers as long as no call takes the slot
while the stream still carries the request or the answer of another.
-/

namespace PoleClient.RateLimit

open Lib

namespace QuotaSession

variable {κ : Type}

/-! ## What is in flight -/

def Reader.held : Reader κ → List (Answer κ)
  | .delivering answer => [answer]
  | .receiving | .failing _ | .stopped => []

def undelivered (s : QuotaSession κ) : List (Answer κ) := Reader.held s.reader ++ s.incoming

def inFlight (s : QuotaSession κ) : List κ :=
  s.undelivered.map Answer.call ++ s.outgoing.map Prod.fst

def sent (s : QuotaSession κ) : List κ :=
  s.answered.map Answer.call ++ s.outgoing.map Prod.fst

/-- A call takes the pending slot while the answer to another call is still due. -/
def Overlaps (s : QuotaSession κ) : Action κ → Prop
  | .install caller =>
      match s.stage caller with
      | .pendingSlot _ => s.inFlight ≠ []
      | _ => False
  | _ => False

structure Matched (s : QuotaSession κ) : Prop where
  locks : ∀ call, (s.stage call).locks = true ↔ s.requestLock = some call
  sending : ∀ call request, s.stage call = .sending request →
    s.inFlight = [] ∧ ∀ waiting, s.pending = some waiting → waiting = call
  slot : ∀ call ∈ s.inFlight, ∀ waiting, s.pending = some waiting → waiting = call
  recorded : ∀ answer ∈ s.undelivered, answer ∈ s.answered
  once : s.sent.Nodup
  fresh : ∀ call, (s.stage call).unsent = true → call ∉ s.sent
  inbox : ∀ call response, s.inbox call = .received (.ok response) → ⟨call, response⟩ ∈ s.answered
  returned : ∀ call response, s.stage call = .returned (.ok response) →
    ⟨call, response⟩ ∈ s.answered

theorem matched_connected : Matched (connected : QuotaSession κ) := by
  constructor <;> simp [connected, inFlight, undelivered, sent, Reader.held, Stage.locks]

/-! ## Moves of the surroundings -/

/-- The callers keep their stages and inboxes, and the stream gains nothing. -/
structure Surrounds (s t : QuotaSession κ) : Prop where
  stage : t.stage = s.stage
  inbox : t.inbox = s.inbox
  pending : t.pending = s.pending
  requestLock : t.requestLock = s.requestLock
  usable : t.usable = true → s.usable = true
  flight : t.inFlight.Sublist s.inFlight
  sent : t.sent = s.sent
  answered : ∀ answer ∈ s.answered, answer ∈ t.answered
  undelivered : ∀ answer ∈ t.undelivered, answer ∈ s.undelivered ∨ answer ∈ t.answered

theorem Surrounds.quiet {s t : QuotaSession κ} (moved : Surrounds s t) (h : s.inFlight = []) :
    t.inFlight = [] := by
  have hflight := moved.flight
  rw [h] at hflight
  exact List.sublist_nil.mp hflight

theorem Surrounds.matched {s t : QuotaSession κ} (moved : Surrounds s t) (inv : Matched s) :
    Matched t := by
  constructor
  · rw [moved.stage, moved.requestLock]
    exact inv.locks
  · rw [moved.stage, moved.pending]
    intro call request h
    rcases inv.sending call request h with ⟨hquiet, hslot⟩
    exact ⟨moved.quiet hquiet, hslot⟩
  · rw [moved.pending]
    exact fun call hcall => inv.slot call (moved.flight.subset hcall)
  · intro answer h
    rcases moved.undelivered answer h with hold | hnew
    · exact moved.answered answer (inv.recorded answer hold)
    · exact hnew
  · rw [moved.sent]
    exact inv.once
  · rw [moved.stage, moved.sent]
    exact inv.fresh
  · rw [moved.inbox]
    exact fun call response h => moved.answered _ (inv.inbox call response h)
  · rw [moved.stage]
    exact fun call response h => moved.answered _ (inv.returned call response h)

theorem surrounds_markUnhealthy (s : QuotaSession κ) : Surrounds s s.markUnhealthy := by
  refine ⟨rfl, rfl, rfl, rfl, ?_, ?_, rfl, ?_, ?_⟩
  · intro h
    cases h
  · exact List.Sublist.refl _
  · exact fun answer h => h
  · exact fun answer h => .inl h

theorem surrounds_closeChannel (s : QuotaSession κ) : Surrounds s { s with closed := true } := by
  refine ⟨rfl, rfl, rfl, rfl, ?_, ?_, rfl, ?_, ?_⟩
  · intro h
    simp [usable] at h
  · exact List.Sublist.refl _
  · exact fun answer h => h
  · exact fun answer h => .inl h

theorem surrounds_answer {s : QuotaSession κ} {call : κ} {request : RemoteRateLimitRequest}
    {outgoing : List (κ × RemoteRateLimitRequest)}
    (hout : s.outgoing = (call, request) :: outgoing) (response : RemoteRateLimitResponse) :
    Surrounds s { s with
      outgoing := outgoing
      incoming := s.incoming ++ [⟨call, response⟩]
      answered := s.answered ++ [⟨call, response⟩] } := by
  refine ⟨rfl, rfl, rfl, rfl, ?_, ?_, ?_, ?_, ?_⟩
  · exact fun h => h
  · simp [inFlight, undelivered, hout]
  · simp [sent, hout]
  · exact fun answer h => List.mem_append_left _ h
  · intro answer hanswer
    have hcase : answer ∈ s.undelivered ∨ answer = ⟨call, response⟩ := by
      simpa [undelivered, or_assoc] using hanswer
    rcases hcase with hold | rfl
    · exact .inl hold
    · exact .inr (by simp)

/-- The reader moves on; what it has in hand it has taken from the stream, and may drop. -/
theorem surrounds_reader {s : QuotaSession κ} {reader : Reader κ} {incoming : List (Answer κ)}
    (taken : (Reader.held reader ++ incoming).Sublist s.undelivered) :
    Surrounds s { s with reader := reader, incoming := incoming } := by
  refine ⟨rfl, rfl, rfl, rfl, ?_, ?_, rfl, ?_, ?_⟩
  · exact fun h => h
  · exact (taken.map Answer.call).append_right _
  · exact fun answer h => h
  · exact fun answer h => .inl (taken.subset h)

theorem surrounds_readerTake {s : QuotaSession κ} {answer : Answer κ}
    {incoming : List (Answer κ)} (hreader : s.reader = .receiving)
    (hin : s.incoming = answer :: incoming) :
    Surrounds s { s with reader := .delivering answer, incoming := incoming } := by
  apply surrounds_reader
  unfold undelivered
  rw [hreader, hin]
  exact List.Sublist.refl _

theorem surrounds_readerIdle (s : QuotaSession κ) {reader : Reader κ}
    (idle : Reader.held reader = []) : Surrounds s { s with reader := reader } := by
  apply surrounds_reader
  rw [idle]
  exact List.sublist_append_right _ _

/-! ## Moves of a caller -/

section Callers

variable [DecidableEq κ] {s : QuotaSession κ} {caller : κ}

@[simp] theorem setStage_self (stage : Stage) :
    (s.setStage caller stage).stage caller = stage :=
  Function.update_self ..

theorem setStage_of_ne (stage : Stage) {other : κ} (h : other ≠ caller) :
    (s.setStage caller stage).stage other = s.stage other :=
  Function.update_of_ne h ..

/-- What a new stage has only if the old one had it. -/
theorem setStage_reflects (stage : Stage) (p : Stage → Prop) (h : p stage → p (s.stage caller))
    {call : κ} (hcall : p ((s.setStage caller stage).stage call)) : p (s.stage call) := by
  by_cases heq : call = caller
  · rw [heq, setStage_self] at hcall
    rw [heq]
    exact h hcall
  · rwa [setStage_of_ne stage heq] at hcall

theorem locks_setStage (locks : ∀ call, (s.stage call).locks = true ↔ s.requestLock = some call)
    {stage : Stage} (holds : stage.locks = true)
    (hlock : s.requestLock = none ∨ s.requestLock = some caller) (call : κ) :
    ((s.setStage caller stage).stage call).locks = true ↔ some caller = some call := by
  by_cases heq : call = caller
  · rw [heq, setStage_self]
    exact ⟨fun _ => rfl, fun _ => holds⟩
  · rw [setStage_of_ne stage heq, locks call]
    constructor
    · intro h
      rcases hlock with hnone | hsome
      · rw [hnone] at h
        cases h
      · rwa [hsome] at h
    · exact fun h => absurd (Option.some.inj h).symm heq

variable (caller) in
theorem finish_requestLock
    (locks : ∀ call, (s.stage call).locks = true ↔ s.requestLock = some call) (stage : Stage) :
    (s.finish caller stage).requestLock =
      if s.requestLock = some caller then none else s.requestLock := by
  simp only [finish, locks caller]

theorem locks_finish (locks : ∀ call, (s.stage call).locks = true ↔ s.requestLock = some call)
    {stage : Stage} (unlocked : stage.locks = false) (call : κ) :
    ((s.finish caller stage).stage call).locks = true ↔
      (s.finish caller stage).requestLock = some call := by
  rw [finish_requestLock caller locks]
  show ((s.setStage caller stage).stage call).locks = true ↔ _
  by_cases heq : call = caller
  · rw [heq, setStage_self, unlocked]
    split
    · simp
    · rename_i hlock
      simpa using hlock
  · rw [setStage_of_ne stage heq, locks call]
    split
    · rename_i hlock
      rw [hlock]
      simpa using Ne.symm heq
    · rfl

theorem finish_of_not_locks (stage : Stage) (h : (s.stage caller).locks = false) :
    s.finish caller stage = s.setStage caller stage := by
  unfold finish
  rw [h]
  rfl

theorem deliver_reader (s : QuotaSession κ) (result : Except String RemoteRateLimitResponse)
    (reader : Reader κ) :
    { s.deliver result with reader := reader } = deliver { s with reader := reader } result := by
  unfold deliver
  rcases s with ⟨stage, inbox, pending⟩
  cases pending <;> rfl

/-- Without an answer of its own, a caller gains nothing by moving on. -/
theorem matched_finish (inv : Matched s) {stage : Stage} (unlocked : stage.locks = false)
    (unsent : stage.unsent = true → (s.stage caller).unsent = true)
    (recorded : ∀ response, stage = .returned (.ok response) →
      ⟨caller, response⟩ ∈ s.answered) : Matched (s.finish caller stage) := by
  constructor
  · exact locks_finish inv.locks unlocked
  · intro call request h
    exact inv.sending call request (setStage_reflects stage (fun stage => stage = .sending request)
      (fun h => by rw [h] at unlocked; cases unlocked) h)
  · exact inv.slot
  · exact inv.recorded
  · exact inv.once
  · intro call h
    exact inv.fresh call (setStage_reflects stage (fun stage => stage.unsent = true) unsent h)
  · exact inv.inbox
  · intro call response h
    by_cases heq : call = caller
    · rw [heq] at h ⊢
      exact recorded response ((setStage_self stage).symm.trans h)
    · exact inv.returned call response ((setStage_of_ne stage heq).symm.trans h)

theorem matched_hold (inv : Matched s) {stage : Stage} (holds : stage.locks = true)
    (hlock : s.requestLock = none ∨ s.requestLock = some caller)
    (unsent : stage.unsent = true → (s.stage caller).unsent = true)
    (sending : ∀ request, stage = .sending request →
      s.inFlight = [] ∧ ∀ waiting, s.pending = some waiting → waiting = caller) :
    Matched { s.setStage caller stage with requestLock := some caller } := by
  constructor
  · exact locks_setStage inv.locks holds hlock
  · intro call request h
    by_cases heq : call = caller
    · rw [heq] at h ⊢
      exact sending request ((setStage_self stage).symm.trans h)
    · exact inv.sending call request ((setStage_of_ne stage heq).symm.trans h)
  · exact inv.slot
  · exact inv.recorded
  · exact inv.once
  · intro call h
    exact inv.fresh call (setStage_reflects stage (fun stage => stage.unsent = true) unsent h)
  · exact inv.inbox
  · intro call response h
    exact inv.returned call response (setStage_reflects stage
      (fun stage => stage = .returned (.ok response)) (fun h => by rw [h] at holds; cases holds) h)

theorem setStage_lock (stage : Stage) (hlock : s.requestLock = some caller) :
    s.setStage caller stage = { s.setStage caller stage with requestLock := some caller } := by
  rw [← hlock]
  rfl

theorem matched_fail (inv : Matched s) {message : String} {err : PoleError}
    (hlocks : (s.stage caller).locks = true) :
    Matched (s.markUnhealthy.setStage caller (.failing message err)) := by
  have hlock : s.requestLock = some caller := (inv.locks caller).mp hlocks
  rw [setStage_lock (s := s.markUnhealthy) _ hlock]
  exact matched_hold ((surrounds_markUnhealthy s).matched inv) rfl (.inr hlock)
    (fun h => nomatch h) (fun _ h => nomatch h)

/-- The caller's sender takes a slot that nothing on the stream is meant for. -/
theorem matched_install (inv : Matched s) {request : RemoteRateLimitRequest}
    (hstage : s.stage caller = .pendingSlot request) (hquiet : s.inFlight = []) :
    Matched ((s.install caller).setStage caller (.sending request)) := by
  have hlock : s.requestLock = some caller := (inv.locks caller).mp (by rw [hstage]; rfl)
  have hinstalled : Matched (s.install caller) := by
    constructor
    · exact inv.locks
    · intro call other h
      have hother := (inv.locks call).mp (by rw [show s.stage call = _ from h]; rfl)
      cases hlock.symm.trans hother
      cases hstage.symm.trans h
    · intro call h
      have hnone : call ∈ s.inFlight := h
      rw [hquiet] at hnone
      cases hnone
    · exact inv.recorded
    · exact inv.once
    · exact inv.fresh
    · intro call response h
      unfold install at h
      cases hpending : s.pending with
      | none =>
          simp only [hpending] at h
          exact inv.inbox call response h
      | some old =>
          simp only [hpending] at h
          by_cases heq : call = old
          · rw [heq, Function.update_self] at h
            cases h
          · rw [Function.update_of_ne heq] at h
            exact inv.inbox call response h
    · exact inv.returned
  rw [setStage_lock (s := s.install caller) _ hlock]
  exact matched_hold hinstalled rfl (.inr hlock) (fun _ => by
    show (s.stage caller).unsent = true
    rw [hstage]
    rfl) fun _ _ => ⟨hquiet, fun waiting h => (Option.some.inj h).symm⟩

theorem matched_send (inv : Matched s) {request : RemoteRateLimitRequest}
    (hstage : s.stage caller = .sending request) :
    Matched { s.setStage caller (.awaiting request.cmd) with
      outgoing := s.outgoing ++ [(caller, request)] } := by
  have hlock : s.requestLock = some caller := (inv.locks caller).mp (by rw [hstage]; rfl)
  rcases inv.sending caller request hstage with ⟨hquiet, hslot⟩
  have hflight : inFlight { s.setStage caller (.awaiting request.cmd) with
      outgoing := s.outgoing ++ [(caller, request)] } = [caller] := by
    have happend : inFlight { s.setStage caller (.awaiting request.cmd) with
        outgoing := s.outgoing ++ [(caller, request)] } = s.inFlight ++ [caller] := by
      simp [inFlight, undelivered, setStage]
    rw [happend, hquiet, List.nil_append]
  have hsent : sent { s.setStage caller (.awaiting request.cmd) with
      outgoing := s.outgoing ++ [(caller, request)] } = s.sent ++ [caller] := by
    simp [sent, setStage]
  have hwaits : Matched (s.setStage caller (.awaiting request.cmd)) := by
    rw [setStage_lock _ hlock]
    exact matched_hold inv rfl (.inr hlock) (fun h => nomatch h) (fun _ h => nomatch h)
  constructor
  · exact hwaits.locks
  · intro call other h
    have hother := (hwaits.locks call).mp (by
      rw [show (s.setStage caller (.awaiting request.cmd)).stage call = _ from h]
      rfl)
    cases hlock.symm.trans hother
    cases (setStage_self _).symm.trans h
  · rw [hflight]
    intro call h waiting hpending
    rw [List.mem_singleton.mp h]
    exact hslot waiting hpending
  · exact inv.recorded
  · rw [hsent]
    refine List.nodup_append.mpr ⟨inv.once, by simp, fun call h other hother => ?_⟩
    rw [List.mem_singleton.mp hother]
    intro heq
    exact inv.fresh caller (by rw [hstage]; rfl) (heq ▸ h)
  · intro call h
    have hne : call ≠ caller := by
      intro heq
      rw [heq] at h
      cases (congrArg Stage.unsent (setStage_self (s := s) (.awaiting request.cmd))).symm.trans h
    have hunsent : (s.stage call).unsent = true := by
      rwa [← setStage_of_ne (.awaiting request.cmd) hne]
    rw [hsent, List.mem_append, List.mem_singleton]
    exact fun hmem => hmem.elim (inv.fresh call hunsent) hne
  · exact inv.inbox
  · exact hwaits.returned

/-- A response goes to the caller in the slot, and is the answer to that call. -/
theorem matched_deliver (inv : Matched s) {result : Except String RemoteRateLimitResponse}
    (recorded : ∀ response, result = .ok response → ∀ call, s.pending = some call →
      ⟨call, response⟩ ∈ s.answered) : Matched (s.deliver result) := by
  unfold deliver
  cases hpending : s.pending with
  | none => exact inv
  | some waiting =>
      constructor
      · exact inv.locks
      · intro call request h
        exact ⟨(inv.sending call request h).1, fun other h => nomatch h⟩
      · intro call _ other h
        cases h
      · exact inv.recorded
      · exact inv.once
      · exact inv.fresh
      · intro call response h
        by_cases hcall : call = waiting
        · simp only [hcall, Function.update_self, Inbox.received.injEq] at h
          rw [hcall]
          exact recorded response h waiting hpending
        · simp only [Function.update_of_ne hcall] at h
          exact inv.inbox call response h
      · exact inv.returned

theorem matched_failure (inv : Matched s) (message : String) :
    Matched (s.deliver (.error message)) :=
  matched_deliver inv fun _ h => nomatch h

theorem matched_resume (inv : Matched s) {cmd : ProtoEnum RateLimitCmd}
    (hstage : s.stage caller = .awaiting cmd) : Matched (s.resume caller cmd) := by
  unfold resume
  cases hinbox : s.inbox caller with
  | waiting => exact inv
  | canceled => exact matched_finish inv rfl (fun h => nomatch h) (fun _ h => nomatch h)
  | received result =>
      cases result with
      | error message => exact matched_finish inv rfl (fun h => nomatch h) (fun _ h => nomatch h)
      | ok response =>
          simp only
          split
          · refine matched_finish inv rfl (fun h => nomatch h) fun other h => ?_
            cases h
            exact inv.inbox caller response hinbox
          · exact matched_fail inv (by rw [hstage]; rfl)

theorem matched_readerDeliver (inv : Matched s) {answer : Answer κ}
    (hreader : s.reader = .delivering answer) :
    Matched { s.deliver (.ok answer.response) with reader := .receiving } := by
  have hundelivered : s.undelivered = answer :: s.incoming := by
    unfold undelivered
    rw [hreader]
    rfl
  have hcall : answer.call ∈ s.inFlight := by
    unfold inFlight
    rw [hundelivered]
    exact List.mem_append_left _ List.mem_cons_self
  rw [deliver_reader]
  apply matched_deliver ((surrounds_readerIdle s rfl).matched inv)
  intro response h call hpending
  cases h
  rw [inv.slot _ hcall call hpending]
  exact inv.recorded answer (by rw [hundelivered]; exact List.mem_cons_self)

/-! ## Steps and runs -/

theorem matched_step (inv : Matched s) (action : Action κ) (ok : ¬ Overlaps s action) :
    Matched (s.step action) := by
  cases action with
  | call caller request =>
      simp only [step]
      split
      · rename_i hstage
        rw [← finish_of_not_locks _ (by rw [hstage]; rfl)]
        exact matched_finish inv rfl (fun _ => by rw [hstage]; rfl) (fun _ h => nomatch h)
      · exact inv
  | acquire caller =>
      simp only [step]
      split
      · rename_i request hstage hlock
        split
        · exact matched_hold inv rfl (.inl hlock) (fun _ => by rw [hstage]; rfl)
            (fun _ h => nomatch h)
        · rw [← finish_of_not_locks _ (by rw [hstage]; rfl)]
          exact matched_finish inv rfl (fun h => nomatch h) (fun _ h => nomatch h)
      · exact inv
  | install caller =>
      simp only [step]
      split
      · rename_i request hstage
        apply matched_install inv hstage
        simpa [Overlaps, hstage] using ok
      · exact inv
  | send caller =>
      simp only [step]
      split
      · rename_i request hstage
        split
        · exact matched_fail inv (by rw [hstage]; rfl)
        · exact matched_send inv hstage
      · exact inv
  | receive caller =>
      simp only [step]
      split
      · rename_i cmd hstage
        exact matched_resume inv hstage
      · exact inv
  | timeout caller =>
      simp only [step]
      split
      · rename_i hstage _
        exact matched_fail inv (by rw [hstage]; rfl)
      · exact inv
  | finishFailure caller =>
      simp only [step]
      split
      · exact matched_finish (matched_failure inv _) rfl (fun h => nomatch h)
          (fun _ h => nomatch h)
      · exact inv
  | cancel caller =>
      simp only [step]
      split
      · exact inv
      · exact matched_finish inv rfl (fun h => nomatch h) (fun _ h => nomatch h)
  | answer response =>
      simp only [step]
      split
      · exact inv
      · rename_i call request outgoing hout
        exact (surrounds_answer hout response).matched inv
  | readerTake =>
      simp only [step]
      split
      · rename_i answer incoming hreader hin
        exact (surrounds_readerTake hreader hin).matched inv
      · exact inv
  | readerDeliver =>
      simp only [step]
      split
      · rename_i answer hreader
        exact matched_readerDeliver inv hreader
      · exact inv
  | streamEnd error =>
      simp only [step]
      split
      · exact (surrounds_readerIdle s.markUnhealthy rfl).matched
          ((surrounds_markUnhealthy s).matched inv)
      · exact inv
  | readerFail =>
      simp only [step]
      split
      · rw [deliver_reader]
        exact matched_failure ((surrounds_readerIdle s rfl).matched inv) _
      · exact inv
  | closeChannel => exact (surrounds_closeChannel s).matched inv

theorem matched_run {actions : List (Action κ)}
    (along : Along step (fun s action => ¬ Overlaps s action) connected actions) :
    Matched (run step connected actions) :=
  @run_invariant _ _ step _ Matched (fun _ action inv ok => matched_step inv action ok) _ _
    matched_connected along

/-- The recorded answer to a call is the only one. -/
theorem Matched.answerTo_eq (inv : Matched s) {call : κ} {response : RemoteRateLimitResponse}
    (h : ⟨call, response⟩ ∈ s.answered) : s.answerTo call = some response := by
  have honce : (s.answered.map Answer.call).Nodup := (List.nodup_append.mp inv.once).1
  unfold answerTo
  generalize s.answered = answered at h honce
  induction answered with
  | nil => cases h
  | cons first answered ih =>
      rw [List.map_cons, List.nodup_cons] at honce
      rw [List.find?_cons]
      rcases List.mem_cons.mp h with rfl | htail
      · simp
      · have hne : first.call ≠ call := fun heq =>
          honce.1 (List.mem_map.mpr ⟨_, htail, heq.symm⟩)
        rw [decide_eq_false hne]
        exact ih htail honce.2

/-- What a call returns is the answer to its own request, and so is every lease it is granted. -/
theorem Matched.returns (inv : Matched s) :
    (∀ call response, s.stage call = .returned (.ok response) →
      s.answerTo call = some response) ∧
    ∀ call result leaseId, s.stage call = .returned result →
      reserveOutcome result = .ok (.reserved leaseId) →
      ∃ response, s.answerTo call = some response ∧
        reserveOutcome (.ok response) = .ok (.reserved leaseId) := by
  have hanswer : ∀ call response, s.stage call = .returned (.ok response) →
      s.answerTo call = some response :=
    fun call response h => inv.answerTo_eq (inv.returned call response h)
  refine ⟨hanswer, fun call result leaseId hstage houtcome => ?_⟩
  cases result with
  | error err => cases houtcome
  | ok response => exact ⟨response, hanswer call response hstage, houtcome⟩

end Callers

end QuotaSession

end PoleClient.RateLimit
