import Mathlib.Logic.Function.Basic
import PoleClient.Core.Model

/-! # A session on the quota stream

All callers of a `QuotaSession` share one stream. Requests go out in order,
responses come back without an identifier, and a single pending slot says who
is waiting. A step is what runs between two await points of one caller or of
the reader task, or a move of the surroundings: the server answers, the stream
ends, the channel closes. A caller may be dropped wherever it waits.
-/

namespace PoleClient.RateLimit

/-! ## Messages -/

inductive RateLimitCmd where
  | init
  | reserve
  | update
  | settle
deriving DecidableEq, Repr

/-- A request on the stream; its body does not take part in the pairing. -/
structure RemoteRateLimitRequest where
  cmd : ProtoEnum RateLimitCmd
  clientKey : UInt32
deriving DecidableEq, Repr

structure QuotaReserveResponse where
  code : UInt32
  leaseId : String
deriving DecidableEq, Repr

structure RemoteRateLimitResponse where
  cmd : ProtoEnum RateLimitCmd
  quotaReserveResponse : Option QuotaReserveResponse
deriving DecidableEq, Repr

/-- A response on its way; `call` is the call whose request it answers, which the client
does not see. -/
structure Answer (κ : Type) where
  call : κ
  response : RemoteRateLimitResponse
deriving DecidableEq, Repr

def apiTimeout (message : String) : PoleError := .new .apiTimeout message

def networkErrorMessage (message : String) : PoleError := .new .networkError message

/-! ## State -/

/-- The receiving end of a caller's oneshot channel. -/
inductive Inbox where
  | waiting
  | received (result : Except String RemoteRateLimitResponse)
  | canceled
deriving Repr

/-- Where a call of `round_trip` stands. -/
inductive Stage where
  | idle
  | requestLock (request : RemoteRateLimitRequest)
  | pendingSlot (request : RemoteRateLimitRequest)
  | sending (request : RemoteRateLimitRequest)
  | awaiting (expectedCmd : ProtoEnum RateLimitCmd)
  | failing (message : String) (err : PoleError)
  | returned (result : Except PoleError RemoteRateLimitResponse)
  | dropped
deriving Repr

def Stage.locks : Stage → Bool
  | pendingSlot _ | sending _ | awaiting _ | failing _ _ => true
  | idle | requestLock _ | returned _ | dropped => false

def Stage.uninstalled : Stage → Bool
  | idle | requestLock _ | pendingSlot _ => true
  | sending _ | awaiting _ | failing _ _ | returned _ | dropped => false

def Stage.unsent : Stage → Bool
  | idle | requestLock _ | pendingSlot _ | sending _ => true
  | awaiting _ | failing _ _ | returned _ | dropped => false

/-- The reader task: at the stream, with a message in hand, or in `mark_failed`. -/
inductive Reader (κ : Type) where
  | receiving
  | delivering (answer : Answer κ)
  | failing (message : String)
  | stopped
deriving DecidableEq, Repr

/-- The session with the stream around it. `outgoing` are the requests that the server has
not answered, `incoming` the answers that the reader has not taken, `answered` all answers
that the server has given. -/
structure QuotaSession (κ : Type) where
  stage : κ → Stage
  inbox : κ → Inbox
  pending : Option κ
  requestLock : Option κ
  healthy : Bool
  closed : Bool
  outgoing : List (κ × RemoteRateLimitRequest)
  incoming : List (Answer κ)
  reader : Reader κ
  answered : List (Answer κ)

namespace QuotaSession

variable {κ : Type}

def connected : QuotaSession κ where
  stage := fun _ => .idle
  inbox := fun _ => .waiting
  pending := none
  requestLock := none
  healthy := true
  closed := false
  outgoing := []
  incoming := []
  reader := .receiving
  answered := []

/-- The check that a caller makes once it has the request lock. -/
def usable (s : QuotaSession κ) : Bool := s.healthy && !s.closed

variable [DecidableEq κ]

def setStage (s : QuotaSession κ) (call : κ) (stage : Stage) : QuotaSession κ :=
  { s with stage := Function.update s.stage call stage }

/-- The call ends and drops its request guard, if it has it. -/
def finish (s : QuotaSession κ) (call : κ) (stage : Stage) : QuotaSession κ :=
  { s.setStage call stage with
    requestLock := if (s.stage call).locks then none else s.requestLock }

/-- Take the pending sender, if there is one, and send. -/
def deliver (s : QuotaSession κ) (result : Except String RemoteRateLimitResponse) :
    QuotaSession κ :=
  match s.pending with
  | none => s
  | some call =>
      { s with
        pending := none
        inbox := Function.update s.inbox call (.received result) }

/-- Install the call's sender; a sender that is overwritten is dropped unsent. -/
def install (s : QuotaSession κ) (call : κ) : QuotaSession κ :=
  { s with
    pending := some call
    inbox := match s.pending with
      | none => s.inbox
      | some old => Function.update s.inbox old .canceled }

/-- The part of `mark_failed` before the pending lock. -/
def markUnhealthy (s : QuotaSession κ) : QuotaSession κ :=
  { s with healthy := false }

/-! ## Steps -/

inductive Action (κ : Type) where
  | call (caller : κ) (request : RemoteRateLimitRequest)
  | acquire (caller : κ)
  | install (caller : κ)
  | send (caller : κ)
  | receive (caller : κ)
  | timeout (caller : κ)
  | finishFailure (caller : κ)
  | cancel (caller : κ)
  | answer (response : RemoteRateLimitResponse)
  | readerTake
  | readerDeliver
  | streamEnd (error : Option String)
  | readerFail
  | closeChannel
deriving DecidableEq, Repr

/-- What a caller does with the outcome of its wait. -/
def resume (s : QuotaSession κ) (caller : κ) (expectedCmd : ProtoEnum RateLimitCmd) :
    QuotaSession κ :=
  match s.inbox caller with
  | .waiting => s
  | .canceled =>
      s.finish caller (.returned (.error (networkErrorMessage "rate limit response was canceled")))
  | .received (.error message) =>
      s.finish caller (.returned (.error (networkErrorMessage message)))
  | .received (.ok response) =>
      if response.cmd = expectedCmd then s.finish caller (.returned (.ok response))
      else
        s.markUnhealthy.setStage caller
          (.failing "rate limit response command is out of order"
            (.new .invalidResponse "rate limit response command is out of order"))

/-- One step; an action that is not enabled changes nothing. -/
def step (s : QuotaSession κ) : Action κ → QuotaSession κ
  | .call caller request =>
      match s.stage caller with
      | .idle => s.setStage caller (.requestLock request)
      | _ => s
  | .acquire caller =>
      match s.stage caller, s.requestLock with
      | .requestLock request, none =>
          if s.usable then
            { s.setStage caller (.pendingSlot request) with requestLock := some caller }
          else
            s.setStage caller
              (.returned (.error (networkErrorMessage "rate limit stream is unavailable")))
      | _, _ => s
  | .install caller =>
      match s.stage caller with
      | .pendingSlot request => (s.install caller).setStage caller (.sending request)
      | _ => s
  | .send caller =>
      match s.stage caller with
      | .sending request =>
          if s.closed then
            s.markUnhealthy.setStage caller
              (.failing "rate limit stream is unavailable"
                (networkErrorMessage "rate limit stream is unavailable"))
          else
            { s.setStage caller (.awaiting request.cmd) with
              outgoing := s.outgoing ++ [(caller, request)] }
      | _ => s
  | .receive caller =>
      match s.stage caller with
      | .awaiting expectedCmd => s.resume caller expectedCmd
      | _ => s
  | .timeout caller =>
      -- a response that is there when the timer fires is taken first
      match s.stage caller, s.inbox caller with
      | .awaiting _, .waiting =>
          s.markUnhealthy.setStage caller
            (.failing "rate limit request timed out" (apiTimeout "rate limit request timed out"))
      | _, _ => s
  | .finishFailure caller =>
      match s.stage caller with
      | .failing message err => (s.deliver (.error message)).finish caller (.returned (.error err))
      | _ => s
  | .cancel caller =>
      match s.stage caller with
      | .returned _ => s
      | _ => s.finish caller .dropped
  | .answer response =>
      match s.outgoing with
      | [] => s
      | (call, _) :: outgoing =>
          { s with
            outgoing := outgoing
            incoming := s.incoming ++ [⟨call, response⟩]
            answered := s.answered ++ [⟨call, response⟩] }
  | .readerTake =>
      match s.reader, s.incoming with
      | .receiving, answer :: incoming =>
          { s with reader := .delivering answer, incoming := incoming }
      | _, _ => s
  | .readerDeliver =>
      match s.reader with
      | .delivering answer => { s.deliver (.ok answer.response) with reader := .receiving }
      | _ => s
  | .streamEnd error =>
      match s.reader with
      | .receiving =>
          { s.markUnhealthy with
            reader := .failing (match error with
              | none => "rate limit stream closed"
              | some error => "rate limit stream receive failed: " ++ error) }
      | _ => s
  | .readerFail =>
      match s.reader with
      | .failing message => { s.deliver (.error message) with reader := .stopped }
      | _ => s
  | .closeChannel => { s with closed := true }

/-! ## Results -/

def answerTo (s : QuotaSession κ) (call : κ) : Option RemoteRateLimitResponse :=
  (s.answered.find? fun answer => answer.call = call).map Answer.response

end QuotaSession

def rateLimitSuccessCode : UInt32 := 200000

inductive RemoteReserveResult where
  | reserved (leaseId : String)
  | rejected (message : String)
deriving DecidableEq, Repr

/-- What `reserve` makes of the result of its round trip. -/
def reserveOutcome (result : Except PoleError RemoteRateLimitResponse) :
    Except PoleError RemoteReserveResult :=
  match result with
  | .error err => .error err
  | .ok response =>
      match response.quotaReserveResponse with
      | none => .error (.new .invalidResponse "quota reserve response is missing")
      | some reserve =>
          if reserve.code ≠ rateLimitSuccessCode then
            .ok (.rejected ("distributed rate limit quota exhausted, code " ++
              toString reserve.code))
          else if reserve.leaseId.isEmpty then
            .error (.new .invalidResponse "quota reserve response has an empty lease id")
          else .ok (.reserved reserve.leaseId)

end PoleClient.RateLimit
