import PoleClient.Lib.EventLog
import PoleClient.RateLimit.LeaseOpening
import PoleClient.RateLimit.Settlement

/-! # A lease on the wire

The requests that a lease with a distributed backend makes, in every run of calls
and a drop. What becomes of a request comes from outside: the caller may be
dropped, the session may fail, before or after the request has left, and the
answer may be any. The log keeps the requests that left, each with what it came to.
-/

namespace PoleClient.RateLimit

open Lib

/-! ## Messages -/

structure QuotaUpdateRequest where
  clientKey : UInt32
  leaseId : String
  consumptions : List RemoteQuotaConsumption
  sequence : Nat
  timestamp : Int
deriving DecidableEq, Repr

structure QuotaUpdateResponse where
  code : UInt32
  consumptions : List RemoteQuotaConsumption
  sequence : Nat
deriving DecidableEq, Repr

inductive LeaseRequest where
  | update (request : QuotaUpdateRequest)
  | settle (request : QuotaSettleRequest)
deriving DecidableEq, Repr

namespace LeaseRequest

def settles : LeaseRequest → Bool
  | .update _ => false
  | .settle _ => true

def leaseId : LeaseRequest → String
  | .update request => request.leaseId
  | .settle request => request.leaseId

def consumptions : LeaseRequest → List RemoteQuotaConsumption
  | .update request => request.consumptions
  | .settle request => request.consumptions

def sequence : LeaseRequest → Nat
  | .update request => request.sequence
  | .settle request => request.sequence

def timed (timestamp : Int) : LeaseRequest → LeaseRequest
  | .update request => .update { request with timestamp }
  | .settle request => .settle { request with timestamp }

end LeaseRequest

/-! ## The distributed backend -/

def missingUpdateError : PoleError :=
  .new .invalidResponse "quota update response is missing"

def updateCodeError (code : UInt32) : PoleError :=
  .new .serverError ("quota update returned code " ++ toString code)

def updateMismatchError : PoleError :=
  .new .invalidResponse "quota update response does not match the request"

/-- `roundTrip` sends a request on the session and answers with the update part of the
response. -/
def QuotaSession.updateLease
    (roundTrip : QuotaUpdateRequest → Except PoleError (Option QuotaUpdateResponse))
    (clientKey : UInt32) (leaseId : String) (consumptions : List RemoteQuotaConsumption)
    (sequence : Nat) (serverTimestamp : Int) : Except PoleError Unit :=
  match roundTrip ⟨clientKey, leaseId, consumptions, sequence, serverTimestamp⟩ with
  | .error err => .error err
  | .ok none => .error missingUpdateError
  | .ok (some update) =>
      if update.code ≠ rateLimitSuccessCode then .error (updateCodeError update.code)
      else if update.sequence ≠ sequence ∨
          normalizeConsumptions update.consumptions ≠ normalizeConsumptions consumptions then
        .error updateMismatchError
      else .ok ()

/-- What becomes of a request: its caller is dropped, or the session answers. -/
inductive WireOutcome where
  | dropped (sent : Bool)
  | failed (sent : Bool) (error : PoleError)
  | answered (update : Option QuotaUpdateResponse) (settle : Option QuotaSettleResponse)
deriving DecidableEq, Repr

def WireOutcome.sent : WireOutcome → Bool
  | .dropped sent => sent
  | .failed sent _ => sent
  | .answered _ _ => true

def CallResult.ofExcept : Except PoleError Unit → CallResult
  | .ok () => .ok
  | .error error => .err error

namespace DistributedLeaseBackend

def update (self : DistributedLeaseBackend)
    (roundTrip : QuotaUpdateRequest → Except PoleError (Option QuotaUpdateResponse))
    (consumptions : List QuotaConsumption) (sequence : Nat) (serverTimestamp : Int) :
    Except PoleError Unit :=
  match expandConsumptions self.groups consumptions with
  | .error err => .error err
  | .ok remote =>
      QuotaSession.updateLease roundTrip self.clientKey self.leaseId remote sequence serverTimestamp

/-- The request for new totals; none is made where a resource has no total. -/
def request (self : DistributedLeaseBackend) (settles : Bool)
    (consumptions : List QuotaConsumption) (sequence : Nat) (serverTimestamp : Int) :
    Except PoleError LeaseRequest :=
  (expandConsumptions self.groups consumptions).map fun remote =>
    if settles then .settle ⟨self.clientKey, self.leaseId, remote, sequence, serverTimestamp⟩
    else .update ⟨self.clientKey, self.leaseId, remote, sequence, serverTimestamp⟩

/-- How the wait for the backend ends. -/
def answer (self : DistributedLeaseBackend) (settles : Bool)
    (consumptions : List QuotaConsumption) (sequence : Nat) (serverTimestamp : Int)
    (outcome : WireOutcome) : CallResult :=
  match expandConsumptions self.groups consumptions with
  | .error err => .err err
  | .ok _ =>
      match outcome with
      | .dropped _ => .cancelled
      | .failed _ err => .err err
      | .answered update settle =>
          .ofExcept (if settles then
            self.finish (fun _ => .ok settle) consumptions sequence serverTimestamp
          else self.update (fun _ => .ok update) consumptions sequence serverTimestamp)

end DistributedLeaseBackend

/-! ## The lease -/

/-- What a call makes the lease ask its backends for: the new totals, and the next sequence. -/
def QuotaLease.asked (self : QuotaLease) (state : QuotaLeaseState) (call : LeaseCall) :
    Option (List QuotaConsumption × Nat) :=
  match call.updates self with
  | .error _ => none
  | .ok updates =>
      match applyConsumptionUpdates self.reservations state.consumptions updates
          state.finished with
      | .error _ => none
      | .ok next =>
          if call.finishes = false ∧ next = state.consumptions then none
          else
            match nextSequence state.sequence with
            | .error _ => none
            | .ok sequence => some (next, sequence)

/-- What the drop makes the lease settle. -/
def QuotaLease.abandoned (state : QuotaLeaseState) : Option (List QuotaConsumption × Nat) :=
  if state.finished then none
  else
    match nextSequence state.sequence with
    | .error _ => none
    | .ok sequence => some (state.consumptions, sequence)

/-- A request that has left: the call that made it, the totals it brings and what it came to.
The request of the drop is made by no call. -/
structure LeaseExchange where
  call : Option LeaseCall
  totals : List QuotaConsumption
  request : LeaseRequest
  outcome : WireOutcome
  confirmed : Bool
deriving DecidableEq, Repr

structure WireSystem where
  lease : LeaseSystem
  log : List LeaseExchange

inductive WireMove where
  | call (call : LeaseCall) (serverTimestamp : Int) (outcome : WireOutcome)
  | drop (serverTimestamp : Int) (outcome : WireOutcome)
  | other (op : QuotaOp)

section System

variable (env : CallEnv) (lease : QuotaLease) (backend : DistributedLeaseBackend)

def wireOpened (call : QuotaCall) : WireSystem := ⟨lease.opened call, []⟩

def exchanged (call : Option LeaseCall) (settles : Bool) (totals : List QuotaConsumption)
    (sequence : Nat) (serverTimestamp : Int) (outcome : WireOutcome) (confirmed : Bool) :
    List LeaseExchange :=
  match backend.request settles totals sequence serverTimestamp with
  | .error _ => []
  | .ok request => if outcome.sent then [⟨call, totals, request, outcome, confirmed⟩] else []

/-- A call waits for the distributed backend where it asks the backends; the task that the drop
starts is not waited for, and nothing comes of its answer. -/
def wireStep (s : WireSystem) (move : WireMove) : WireSystem :=
  if s.lease.dropped then
    match move with
    | .other op => { s with lease := leaseStep env lease s.lease (.other op) }
    | _ => s
  else
    match move with
    | .call call serverTimestamp outcome =>
        match lease.asked s.lease.state call with
        | none => { s with lease := (lease.operate env call .cancelled s.lease).1 }
        | some (totals, sequence) =>
            let answer := backend.answer call.finishes totals sequence serverTimestamp outcome
            let (after, result) := lease.operate env call answer s.lease
            ⟨after, s.log ++ exchanged backend (some call) call.finishes totals sequence
              serverTimestamp outcome (result = .ok)⟩
    | .drop serverTimestamp outcome =>
        match QuotaLease.abandoned s.lease.state with
        | none => { s with lease := leaseStep env lease s.lease .drop }
        | some (totals, sequence) =>
            ⟨leaseStep env lease s.lease .drop, s.log ++ exchanged backend none true totals
              sequence serverTimestamp outcome false⟩
    | .other op => { s with lease := leaseStep env lease s.lease (.other op) }

end System

/-! ## What a call asks -/

section Asked

variable {env : CallEnv} {lease : QuotaLease} {s : LeaseSystem} {call : LeaseCall}
variable {answer : CallResult} {totals : List QuotaConsumption} {sequence : Nat}

theorem nextSequence_eq {before after : Nat} (h : nextSequence before = .ok after) :
    after = before + 1 := by
  unfold nextSequence at h
  split at h
  · cases h
  · cases h
    rfl

theorem asked_some (h : lease.asked s.state call = some (totals, sequence)) :
    Accepts lease s.state call totals ∧ nextSequence s.state.sequence = .ok sequence := by
  unfold QuotaLease.asked applyConsumptionUpdates at h
  cases hupdates : call.updates lease with
  | error err => simp only [hupdates, reduceCtorEq] at h
  | ok updates =>
      cases hfinished : s.state.finished with
      | true => simp only [hupdates, hfinished, if_true, reduceCtorEq] at h
      | false =>
          simp only [hupdates, hfinished, Bool.false_eq_true, if_false] at h
          cases hnext : applyUpdates lease.reservations [] s.state.consumptions updates with
          | error err => simp only [hnext, reduceCtorEq] at h
          | ok next =>
              simp only [hnext] at h
              by_cases hsame : call.finishes = false ∧ next = s.state.consumptions
              · rw [if_pos hsame] at h
                cases h
              · rw [if_neg hsame] at h
                cases hsequence : nextSequence s.state.sequence with
                | error err => simp only [hsequence, reduceCtorEq] at h
                | ok following =>
                    simp only [hsequence, Option.some.injEq, Prod.mk.injEq] at h
                    obtain ⟨rfl, rfl⟩ := h
                    exact ⟨⟨hfinished, ⟨updates, hupdates, hnext⟩,
                      fun hfinishes heq => hsame ⟨hfinishes, heq⟩⟩, rfl⟩

theorem operate_asked (h : lease.asked s.state call = some (totals, sequence)) :
    lease.operate env call answer s = lease.ask env call.finishes totals answer s := by
  obtain ⟨⟨unfinished, ⟨updates, hupdates, hnext⟩, changes⟩, hsequence⟩ := asked_some h
  have hplus := nextSequence_eq hsequence
  rw [operate_updates hupdates]
  cases hfinishes : call.finishes with
  | false =>
      unfold QuotaLease.updateConsumptions applyConsumptionUpdates compositeUpdate QuotaLease.ask
      rcases hbackends : operateBackends env .update totals (s.state.sequence + 1) answer s.call
        lease.backends with ⟨after, result⟩
      cases result <;> simp only [unfinished, Bool.false_eq_true, if_false, hnext,
        if_neg (changes hfinishes), hsequence, hplus, hbackends]
  | true =>
      unfold QuotaLease.finishConsumptions applyConsumptionUpdates compositeFinish QuotaLease.ask
      rcases hbackends : operateBackends env .finish totals (s.state.sequence + 1) answer s.call
        lease.backends with ⟨after, result⟩
      cases result <;> simp only [unfinished, Bool.false_eq_true, if_false, if_true, hnext,
        hsequence, hplus, hbackends]

theorem operate_unasked (h : lease.asked s.state call = none) :
    (lease.operate env call answer s).1 = s := by
  by_cases haccepts : ∃ next, Accepts lease s.state call next
  · obtain ⟨next, unfinished, ⟨updates, hupdates, hnext⟩, changes⟩ := haccepts
    have hsame : ¬ (call.finishes = false ∧ next = s.state.consumptions) :=
      fun hboth => changes hboth.1 hboth.2
    cases hsequence : nextSequence s.state.sequence with
    | ok sequence =>
        simp only [QuotaLease.asked, applyConsumptionUpdates, hupdates, unfinished,
          Bool.false_eq_true, if_false, hnext, if_neg hsame, hsequence, reduceCtorEq] at h
    | error err =>
        rw [operate_updates hupdates]
        cases hfinishes : call.finishes with
        | false =>
            simp only [QuotaLease.updateConsumptions, applyConsumptionUpdates, unfinished,
              Bool.false_eq_true, if_false, hnext, if_neg (changes hfinishes), hsequence]
        | true =>
            simp only [QuotaLease.finishConsumptions, applyConsumptionUpdates, unfinished,
              Bool.false_eq_true, if_false, if_true, hnext, hsequence]
  · exact operate_refuses fun next haccepted => haccepts ⟨next, haccepted⟩

theorem operateBackends_confirmed {op : String → Nat → Nat → QuotaOp}
    {consumptions : List QuotaConsumption} {backends : List QuotaLeaseBackend}
    (leased : .distributed ∈ backends) {counter : QuotaCall}
    (h : (operateBackends env op consumptions sequence answer counter backends).2 = .ok) :
    answer = .ok := by
  induction backends generalizing counter with
  | nil => cases leased
  | cons first backends ih =>
      rw [operateBackends] at h
      cases first with
      | distributed =>
          cases answer with
          | ok => rfl
          | err err => cases h
          | cancelled => cases h
      | localCounter own =>
          have hrest : .distributed ∈ backends := by simpa using leased
          rcases hfirst : operateBackend env op consumptions sequence answer counter
            (.localCounter own) with ⟨after, result⟩
          rw [hfirst] at h
          cases result with
          | ok => exact ih hrest h
          | err err => cases h
          | cancelled => cases h

/-- Only an answer of the distributed backend confirms, and only then does the lease go on. -/
theorem ask_state (leased : .distributed ∈ lease.backends) (finishes : Bool) :
    (lease.ask env finishes totals answer s).1.dropped = s.dropped ∧
    ((lease.ask env finishes totals answer s).2 = .ok ∧ answer = .ok ∧
        (lease.ask env finishes totals answer s).1.state =
          ⟨totals, s.state.sequence + 1, finishes⟩ ∨
      (lease.ask env finishes totals answer s).2 ≠ .ok ∧
        (lease.ask env finishes totals answer s).1.state = s.state) := by
  unfold QuotaLease.ask
  rcases hbackends : operateBackends env (if finishes then .finish else .update) totals
    (s.state.sequence + 1) answer s.call lease.backends with ⟨after, result⟩
  cases result with
  | ok =>
      have hanswer := @operateBackends_confirmed env _ _ _ _ _ leased _
        (congrArg Prod.snd hbackends)
      exact ⟨rfl, .inl ⟨rfl, hanswer, rfl⟩⟩
  | err err => exact ⟨rfl, .inr ⟨nofun, rfl⟩⟩
  | cancelled => exact ⟨rfl, .inr ⟨nofun, rfl⟩⟩

end Asked

/-! ## The log replayed -/

/-- The lease's state after an exchange, by what it came to. -/
def LeaseExchange.apply (state : QuotaLeaseState) (exchange : LeaseExchange) : QuotaLeaseState :=
  if exchange.confirmed then
    ⟨exchange.totals, exchange.request.sequence, exchange.request.settles⟩
  else state

/-- The state that the confirmed exchanges alone lead to. -/
def replay (lease : QuotaLease) (log : List LeaseExchange) : QuotaLeaseState :=
  log.foldl LeaseExchange.apply ⟨lease.consumptions, 0, false⟩

/-- The exchange that the lease makes after those before it. -/
structure Made (lease : QuotaLease) (backend : DistributedLeaseBackend)
    (before : List LeaseExchange) (exchange : LeaseExchange) : Prop where
  undropped : ∀ earlier ∈ before, earlier.call ≠ none
  calls : ∀ call, exchange.call = some call → exchange.request.settles = call.finishes ∧
    lease.asked (replay lease before) call = some (exchange.totals, exchange.request.sequence)
  drops : exchange.call = none → exchange.request.settles = true ∧ exchange.confirmed = false ∧
    QuotaLease.abandoned (replay lease before) =
      some (exchange.totals, exchange.request.sequence)
  requested : ∃ serverTimestamp,
    backend.request exchange.request.settles exchange.totals exchange.request.sequence
      serverTimestamp = .ok exchange.request ∧
    (exchange.confirmed = true → backend.answer exchange.request.settles exchange.totals
      exchange.request.sequence serverTimestamp exchange.outcome = .ok)

structure WireInv (lease : QuotaLease) (backend : DistributedLeaseBackend) (s : WireSystem) :
    Prop where
  made : EachEvent (Made lease backend) s.log
  replayed : s.lease.state = replay lease s.log
  undropped : s.lease.dropped = false → ∀ exchange ∈ s.log, exchange.call ≠ none

section Replay

variable {env : CallEnv} {lease : QuotaLease} {backend : DistributedLeaseBackend}
variable {s : WireSystem} {settles : Bool} {totals : List QuotaConsumption} {sequence : Nat}
variable {serverTimestamp : Int} {outcome : WireOutcome} {request : LeaseRequest}

theorem replay_append (log : List LeaseExchange) (exchange : LeaseExchange) :
    replay lease (log ++ [exchange]) = exchange.apply (replay lease log) :=
  List.foldl_append

theorem request_spec
    (h : backend.request settles totals sequence serverTimestamp = .ok request) :
    request.settles = settles ∧ request.sequence = sequence ∧
      request.leaseId = backend.leaseId ∧
      expandConsumptions backend.groups totals = .ok request.consumptions := by
  unfold DistributedLeaseBackend.request at h
  cases hremote : expandConsumptions backend.groups totals with
  | error err =>
      rw [hremote] at h
      cases h
  | ok remote =>
      rw [hremote] at h
      cases settles with
      | false =>
          cases h
          exact ⟨rfl, rfl, rfl, rfl⟩
      | true =>
          cases h
          exact ⟨rfl, rfl, rfl, rfl⟩

theorem sent_of_answer (h : backend.answer settles totals sequence serverTimestamp outcome = .ok) :
    outcome.sent = true ∧
      ∃ request, backend.request settles totals sequence serverTimestamp = .ok request := by
  unfold DistributedLeaseBackend.answer at h
  unfold DistributedLeaseBackend.request
  cases hremote : expandConsumptions backend.groups totals with
  | error err =>
      rw [hremote] at h
      cases h
  | ok remote =>
      rw [hremote] at h
      refine ⟨?_, _, rfl⟩
      cases outcome with
      | dropped sent => cases h
      | failed sent err => cases h
      | answered update settle => rfl

theorem exchanged_cases (call : Option LeaseCall) (confirmed : Bool) :
    exchanged backend call settles totals sequence serverTimestamp outcome confirmed = [] ∨
      ∃ request, backend.request settles totals sequence serverTimestamp = .ok request ∧
        exchanged backend call settles totals sequence serverTimestamp outcome confirmed =
          [⟨call, totals, request, outcome, confirmed⟩] := by
  unfold exchanged
  cases hrequest : backend.request settles totals sequence serverTimestamp with
  | error err => exact .inl rfl
  | ok request =>
      cases hsent : outcome.sent with
      | false => exact .inl rfl
      | true => exact .inr ⟨request, rfl, rfl⟩

theorem exchanged_confirmed (call : Option LeaseCall) (confirmed : Bool)
    (h : backend.answer settles totals sequence serverTimestamp outcome = .ok) :
    ∃ request, backend.request settles totals sequence serverTimestamp = .ok request ∧
      exchanged backend call settles totals sequence serverTimestamp outcome confirmed =
        [⟨call, totals, request, outcome, confirmed⟩] := by
  obtain ⟨hsent, request, hrequest⟩ := sent_of_answer h
  refine ⟨request, hrequest, ?_⟩
  simp only [exchanged, hrequest, hsent, if_true]

theorem wireInv_opened (call : QuotaCall) : WireInv lease backend (wireOpened lease call) :=
  ⟨eachEvent_nil, rfl, fun _ _ h => absurd h List.not_mem_nil⟩

/-- The other operations on the counter do not reach the lease. -/
theorem wireInv_other (inv : WireInv lease backend s) (op : QuotaOp) :
    WireInv lease backend { s with lease := leaseStep env lease s.lease (.other op) } :=
  ⟨inv.made, inv.replayed, inv.undropped⟩

theorem drop_state (undropped : s.lease.dropped = false) :
    (leaseStep env lease s.lease .drop).state = s.lease.state ∧
      (leaseStep env lease s.lease .drop).dropped = true := by
  simp only [leaseStep, undropped, Bool.false_eq_true, if_false, QuotaLease.drop]
  split
  · exact ⟨rfl, rfl⟩
  · split
    · exact ⟨rfl, rfl⟩
    · exact ⟨rfl, rfl⟩

theorem wireInv_call (leased : .distributed ∈ lease.backends) (inv : WireInv lease backend s)
    (undropped : s.lease.dropped = false) (call : LeaseCall) (serverTimestamp : Int)
    (outcome : WireOutcome) :
    WireInv lease backend (wireStep env lease backend s (.call call serverTimestamp outcome)) := by
  simp only [wireStep, undropped, Bool.false_eq_true, if_false]
  cases hasked : lease.asked s.lease.state call with
  | none =>
      simp only [operate_unasked hasked]
      exact inv
  | some asked =>
      obtain ⟨totals, sequence⟩ := asked
      have hsequence := nextSequence_eq (asked_some hasked).2
      simp only [operate_asked hasked]
      obtain ⟨hdropped, hcase⟩ := @ask_state env lease s.lease
        (backend.answer call.finishes totals sequence serverTimestamp outcome) totals leased
        call.finishes
      -- what the log gets, and that the answer was ok where the call was confirmed
      have hmade : ∀ request confirmed,
          backend.request call.finishes totals sequence serverTimestamp = .ok request →
          (confirmed = true → backend.answer call.finishes totals sequence serverTimestamp
            outcome = .ok) →
          Made lease backend s.log ⟨some call, totals, request, outcome, confirmed⟩ := by
        intro request confirmed hrequest hanswer
        obtain ⟨hsettles, hnumber, -⟩ := request_spec hrequest
        refine ⟨inv.undropped undropped, ?_, nofun, serverTimestamp, ?_⟩
        · intro other hother
          cases hother
          rw [hnumber, ← inv.replayed]
          exact ⟨hsettles, hasked⟩
        · rw [hsettles, hnumber]
          exact ⟨hrequest, hanswer⟩
      have hcalls : ∀ exchange ∈ s.log ++ exchanged backend (some call) call.finishes totals
          sequence serverTimestamp outcome ((lease.ask env call.finishes totals
            (backend.answer call.finishes totals sequence serverTimestamp outcome)
            s.lease).2 = .ok), exchange.call ≠ none := by
        intro exchange hmem
        rcases List.mem_append.mp hmem with hold | hnew
        · exact inv.undropped undropped exchange hold
        · rcases exchanged_cases (some call) _ with hnone | ⟨request, -, hone⟩
          · rw [hnone] at hnew
            cases hnew
          · rw [hone, List.mem_singleton] at hnew
            rw [hnew]
            exact Option.some_ne_none call
      rcases hcase with ⟨hok, hanswer, hstate⟩ | ⟨hnot, hstate⟩
      · obtain ⟨request, hrequest, hexchanged⟩ :=
          exchanged_confirmed (some call) true hanswer
        obtain ⟨hsettles, hnumber, -⟩ := request_spec hrequest
        simp only [hok, decide_true, hexchanged] at hcalls ⊢
        refine ⟨eachEvent_append inv.made (hmade request true hrequest fun _ => hanswer), ?_,
          fun _ => hcalls⟩
        rw [replay_append, hstate]
        simp only [LeaseExchange.apply, if_true, hsettles, hnumber, hsequence]
      · rcases @exchanged_cases backend call.finishes totals sequence serverTimestamp outcome
          (some call) false with hnone | ⟨request, hrequest, hone⟩
        · simp only [hnot, decide_false, hnone, List.append_nil] at hcalls ⊢
          exact ⟨inv.made, hstate.trans inv.replayed, fun _ => hcalls⟩
        · simp only [hnot, decide_false, hone] at hcalls ⊢
          refine ⟨eachEvent_append inv.made (hmade request false hrequest nofun), ?_,
            fun _ => hcalls⟩
          rw [replay_append, hstate, inv.replayed]
          rfl

theorem wireInv_drop (inv : WireInv lease backend s) (undropped : s.lease.dropped = false)
    (serverTimestamp : Int) (outcome : WireOutcome) :
    WireInv lease backend (wireStep env lease backend s (.drop serverTimestamp outcome)) := by
  obtain ⟨hstate, hdropped⟩ := @drop_state env lease s undropped
  simp only [wireStep, undropped, Bool.false_eq_true, if_false]
  have hclosed : ∀ log : List LeaseExchange,
      (leaseStep env lease s.lease .drop).dropped = false →
      ∀ exchange ∈ log, exchange.call ≠ none := by
    intro log hfalse
    rw [hdropped] at hfalse
    cases hfalse
  cases habandoned : QuotaLease.abandoned s.lease.state with
  | none => exact ⟨inv.made, hstate.trans inv.replayed, hclosed s.log⟩
  | some asked =>
      obtain ⟨totals, sequence⟩ := asked
      rcases @exchanged_cases backend true totals sequence serverTimestamp outcome none false with
        hnone | ⟨request, hrequest, hone⟩
      · simp only [hnone, List.append_nil]
        exact ⟨inv.made, hstate.trans inv.replayed, hclosed s.log⟩
      · simp only [hone]
        obtain ⟨hsettles, hnumber, -⟩ := request_spec hrequest
        refine ⟨eachEvent_append inv.made ⟨inv.undropped undropped, nofun, ?_, serverTimestamp,
          ?_⟩, ?_, hclosed _⟩
        · intro _
          rw [hnumber, ← inv.replayed]
          exact ⟨hsettles, rfl, habandoned⟩
        · rw [hsettles, hnumber]
          exact ⟨hrequest, nofun⟩
        · rw [replay_append, hstate, inv.replayed]
          rfl

theorem wireInv_step (leased : .distributed ∈ lease.backends) (inv : WireInv lease backend s)
    (move : WireMove) : WireInv lease backend (wireStep env lease backend s move) := by
  cases hdropped : s.lease.dropped with
  | true =>
      cases move with
      | call call serverTimestamp outcome =>
          simp only [wireStep, hdropped, if_true]
          exact inv
      | drop serverTimestamp outcome =>
          simp only [wireStep, hdropped, if_true]
          exact inv
      | other op =>
          simp only [wireStep, hdropped, if_true]
          exact wireInv_other inv op
  | false =>
      cases move with
      | call call serverTimestamp outcome =>
          exact wireInv_call leased inv hdropped call serverTimestamp outcome
      | drop serverTimestamp outcome => exact wireInv_drop inv hdropped serverTimestamp outcome
      | other op =>
          simp only [wireStep, hdropped, Bool.false_eq_true, if_false]
          exact wireInv_other inv op

theorem wireInv_run (leased : .distributed ∈ lease.backends) (call : QuotaCall)
    (moves : List WireMove) :
    WireInv lease backend (run (wireStep env lease backend) (wireOpened lease call) moves) :=
  run_preserves (WireInv lease backend) (fun _ move inv => wireInv_step leased inv move) moves
    (wireInv_opened call)

end Replay

end PoleClient.RateLimit
