import PoleClient.RateLimit.MultiReserve

/-! # The quota lease

A lease keeps the totals that its backends have confirmed and the sequence of the
last confirmed operation. An update or a finish asks the backends in order, each
with the new totals and the next sequence, and is confirmed when all of them are.
What the distributed backend answers comes from outside. A call waits for that
answer only, so it can be dropped nowhere else: the local backends answer at once.
-/

namespace PoleClient.RateLimit

/-! ## Backends -/

inductive CallResult where
  | ok
  | err (error : PoleError)
  | cancelled
deriving DecidableEq, Repr

/-- `update` and `finish` of a backend, by the operation on the counter. -/
def operateBackend (env : CallEnv) (op : String → Nat → Nat → QuotaOp)
    (consumptions : List QuotaConsumption) (sequence : Nat) (answer : CallResult)
    (call : QuotaCall) (backend : QuotaLeaseBackend) : QuotaCall × CallResult :=
  match backend with
  | .distributed => (call, answer)
  | .localCounter backend =>
      match consumptionFor consumptions backend.resource with
      | .error err => (call, .err err)
      | .ok consumedTotal =>
          match call.perform env (op backend.leaseId consumedTotal.toNat sequence) with
          | (call, .error err) => (call, .err err)
          | (call, .ok _) => (call, .ok)

/-- The loop of `CompositeLeaseBackend`: it stops at the first backend that does not confirm. -/
def operateBackends (env : CallEnv) (op : String → Nat → Nat → QuotaOp)
    (consumptions : List QuotaConsumption) (sequence : Nat) (answer : CallResult) :
    QuotaCall → List QuotaLeaseBackend → QuotaCall × CallResult
  | call, [] => (call, .ok)
  | call, backend :: backends =>
      match operateBackend env op consumptions sequence answer call backend with
      | (call, .ok) => operateBackends env op consumptions sequence answer call backends
      | (call, .err err) => (call, .err err)
      | (call, .cancelled) => (call, .cancelled)

def compositeUpdate (env : CallEnv) (consumptions : List QuotaConsumption) (sequence : Nat)
    (answer : CallResult) (call : QuotaCall) (backends : List QuotaLeaseBackend) :
    QuotaCall × CallResult :=
  operateBackends env .update consumptions sequence answer call backends

def compositeFinish (env : CallEnv) (consumptions : List QuotaConsumption) (sequence : Nat)
    (answer : CallResult) (call : QuotaCall) (backends : List QuotaLeaseBackend) :
    QuotaCall × CallResult :=
  operateBackends env .finish consumptions sequence answer call backends

def compositeAbandon (env : CallEnv) (consumptions : List QuotaConsumption) (sequence : Nat)
    (call : QuotaCall) (backends : List QuotaLeaseBackend) : QuotaCall :=
  backends.foldl (abandon env consumptions sequence) call

/-! ## Totals and sequences -/

def nextSequence (sequence : Nat) : Except PoleError Nat :=
  if sequence = u64Max then .error (.new .invalidState "quota lease sequence is exhausted")
  else .ok (sequence + 1)

/-- The first consumption of the resource gets the total. -/
def setConsumption (resource : QuotaResource) (consumedTotal : UInt32) :
    List QuotaConsumption → List QuotaConsumption
  | [] => []
  | consumption :: consumptions =>
      if consumption.resource = resource then { consumption with consumedTotal } :: consumptions
      else consumption :: setConsumption resource consumedTotal consumptions

/-- The loop of `apply_consumption_updates`, with the resources seen so far. -/
def applyUpdates (reservations : List QuotaAmount) :
    List QuotaResource → List QuotaConsumption → List QuotaConsumption →
      Except PoleError (List QuotaConsumption)
  | _, next, [] => .ok next
  | seen, next, update :: updates =>
      if update.resource ∈ seen then
        .error (.new .apiInvalidArgument
          ("duplicate quota consumption for " ++ update.resource.debugName))
      else
        match reservations.find? fun reservation => reservation.resource = update.resource with
        | none => .error (.new .apiInvalidArgument
            ("quota resource " ++ update.resource.debugName ++ " was not reserved"))
        | some reservation =>
            match next.find? fun consumption => consumption.resource = update.resource with
            -- every reservation has a consumption, as the source expects
            | none => applyUpdates reservations (update.resource :: seen) next updates
            | some consumption =>
                if update.consumedTotal < consumption.consumedTotal then
                  .error (.new .apiInvalidArgument
                    ("quota consumed total cannot decrease from " ++
                      toString consumption.consumedTotal ++ " to " ++
                      toString update.consumedTotal))
                else if update.consumedTotal > reservation.amount then
                  .error (.new .apiInvalidArgument
                    ("quota consumed total " ++ toString update.consumedTotal ++
                      " exceeds reservation " ++ toString reservation.amount))
                else
                  applyUpdates reservations (update.resource :: seen)
                    (setConsumption update.resource update.consumedTotal next) updates

def leaseFinishedError : PoleError :=
  .new .invalidState "quota lease is already finished"

def applyConsumptionUpdates (reservations : List QuotaAmount)
    (current updates : List QuotaConsumption) (finished : Bool) :
    Except PoleError (List QuotaConsumption) :=
  if finished then .error leaseFinishedError
  else applyUpdates reservations [] current updates

/-! ## The lease -/

structure QuotaLeaseState where
  consumptions : List QuotaConsumption
  sequence : Nat
  finished : Bool
deriving DecidableEq, Repr

/-- The state of a lease, with the counter that its local backends share with all others. -/
structure LeaseSystem where
  state : QuotaLeaseState
  dropped : Bool
  call : QuotaCall

namespace QuotaLease

/-- `QuotaLease::new`. -/
def opened (self : QuotaLease) (call : QuotaCall) : LeaseSystem :=
  ⟨⟨self.consumptions, 0, false⟩, false, call⟩

def singleResource (self : QuotaLease) : Except PoleError QuotaResource :=
  match self.reservations with
  | [reservation] => .ok reservation.resource
  | _ => .error (.new .apiInvalidArgument
      "multi-resource quota lease requires the per-resource API")

def updateConsumptions (env : CallEnv) (self : QuotaLease) (updates : List QuotaConsumption)
    (answer : CallResult) (s : LeaseSystem) : LeaseSystem × CallResult :=
  match applyConsumptionUpdates self.reservations s.state.consumptions updates
      s.state.finished with
  | .error err => (s, .err err)
  | .ok next =>
      if next = s.state.consumptions then (s, .ok)
      else
        match nextSequence s.state.sequence with
        | .error err => (s, .err err)
        | .ok sequence =>
            match compositeUpdate env next sequence answer s.call self.backends with
            | (call, .ok) =>
                ({ s with state := { s.state with consumptions := next, sequence }, call }, .ok)
            | (call, stopped) => ({ s with call }, stopped)

def finishConsumptions (env : CallEnv) (self : QuotaLease) (updates : List QuotaConsumption)
    (answer : CallResult) (s : LeaseSystem) : LeaseSystem × CallResult :=
  if s.state.finished then
    match applyConsumptionUpdates self.reservations s.state.consumptions updates false with
    | .error err => (s, .err err)
    | .ok next => if next = s.state.consumptions then (s, .ok) else (s, .err leaseFinishedError)
  else
    match applyConsumptionUpdates self.reservations s.state.consumptions updates false with
    | .error err => (s, .err err)
    | .ok next =>
        match nextSequence s.state.sequence with
        | .error err => (s, .err err)
        | .ok sequence =>
            match compositeFinish env next sequence answer s.call self.backends with
            | (call, .ok) => ({ s with state := ⟨next, sequence, true⟩, call }, .ok)
            | (call, stopped) => ({ s with call }, stopped)

/-- `Drop`: nobody else holds the lease's lock by then. -/
def drop (env : CallEnv) (self : QuotaLease) (s : LeaseSystem) : LeaseSystem :=
  if s.state.finished then { s with dropped := true }
  else
    match nextSequence s.state.sequence with
    | .error _ => { s with dropped := true }
    | .ok sequence =>
        { s with
          dropped := true
          call := compositeAbandon env s.state.consumptions sequence s.call self.backends }

end QuotaLease

/-! ## Runs -/

inductive LeaseCall where
  | update (consumedTotal : UInt32)
  | updateConsumptions (updates : List QuotaConsumption)
  | finish (consumedTotal : UInt32)
  | finishConsumptions (updates : List QuotaConsumption)
deriving DecidableEq, Repr

/-- A call on the lease; `answer` is what its wait for the distributed backend comes to. -/
def QuotaLease.operate (env : CallEnv) (self : QuotaLease) (call : LeaseCall)
    (answer : CallResult) (s : LeaseSystem) : LeaseSystem × CallResult :=
  match call with
  | .update consumedTotal =>
      match self.singleResource with
      | .error err => (s, .err err)
      | .ok resource => self.updateConsumptions env [⟨resource, consumedTotal⟩] answer s
  | .updateConsumptions updates => self.updateConsumptions env updates answer s
  | .finish consumedTotal =>
      match self.singleResource with
      | .error err => (s, .err err)
      | .ok resource => self.finishConsumptions env [⟨resource, consumedTotal⟩] answer s
  | .finishConsumptions updates => self.finishConsumptions env updates answer s

/-- A call on the lease, its drop, or an operation of another lease on the same counter. -/
inductive LeaseMove where
  | call (call : LeaseCall) (answer : CallResult)
  | drop
  | other (op : QuotaOp)

/-- A dropped lease is called no more. -/
def leaseStep (env : CallEnv) (lease : QuotaLease) (s : LeaseSystem) (move : LeaseMove) :
    LeaseSystem :=
  match move with
  | .call call answer => if s.dropped then s else (lease.operate env call answer s).1
  | .drop => if s.dropped then s else lease.drop env s
  | .other op => { s with call := (s.call.perform env op).1 }

end PoleClient.RateLimit
