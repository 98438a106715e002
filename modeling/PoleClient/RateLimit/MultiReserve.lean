import PoleClient.RateLimit.Ledger

/-! # Reserving several resources

`DefaultRateLimitAPI::reserve` asks the distributed quota first, then reserves
the locally counted quotas one after the other, and gives back what it has
reserved when one of them fails. Every access to the counter reads the clock
anew, so a call carries the operations it has performed so far. What the
distributed quota answers comes from outside.
-/

namespace PoleClient.RateLimit

open Lib

/-! ## Accesses to the counter -/

/-- The counter within a call, with the operations of the call so far. -/
structure QuotaCall where
  state : LocalQuotaState
  trace : List TimedOp

/-- What a call takes from outside; `clock n` is the reading at its `n`-th operation. -/
structure CallEnv extends QuotaEnv where
  arith : CounterArith
  regex : RegexEngine
  clock : Nat → Nat

def QuotaCall.perform (env : CallEnv) (call : QuotaCall) (op : QuotaOp) :
    QuotaCall × Except PoleError (Option LocalReserveResult) :=
  let timed : TimedOp := ⟨env.clock call.trace.length, op⟩
  let (state, result) := applyOp env.arith env.toQuotaEnv call.state timed
  (⟨state, call.trace ++ [timed]⟩, result)

/-- A rule and trigger with the amount to reserve under them. -/
structure QuotaSpec where
  rule : RateLimitRule
  trigger : LimitTrigger
  amount : UInt32
deriving DecidableEq, Repr

def quotaRejected (message : String) : PoleError :=
  .new .requestLimit message

def reserveLocal (env : CallEnv) (req : QuotaRequest) (call : QuotaCall) (spec : QuotaSpec) :
    QuotaCall × Except PoleError (Option LocalLeaseBackend) :=
  let (call, result) :=
    call.perform env (.reserve req spec.rule spec.trigger spec.amount.toNat)
  match result with
  | .error err => (call, .error err)
  | .ok (some (.reserved backend)) => (call, .ok (some backend))
  | .ok (some (.rejected message)) => (call, .error (quotaRejected message))
  | .ok _ => (call, .ok none)

/-! ## Consumptions and rollback -/

def initialConsumptions (quotas : List QuotaAmount) : List QuotaConsumption :=
  quotas.map fun quota =>
    ⟨quota.resource, if quota.resource = .qps then 1 else 0⟩

def consumptionFor (consumptions : List QuotaConsumption) (resource : QuotaResource) :
    Except PoleError UInt32 :=
  match consumptions.find? fun consumption => consumption.resource = resource with
  | some consumption => .ok consumption.consumedTotal
  | none => .error (.new .apiInvalidArgument
      ("quota consumption for " ++ resource.debugName ++ " is missing"))

/-- A reservation that a lease holds; a distributed one does not touch the local counter. -/
inductive QuotaLeaseBackend where
  | localCounter (backend : LocalLeaseBackend)
  | distributed
deriving DecidableEq, Repr

def abandon (env : CallEnv) (consumptions : List QuotaConsumption) (sequence : Nat)
    (call : QuotaCall) (backend : QuotaLeaseBackend) : QuotaCall :=
  match backend with
  | .distributed => call
  | .localCounter backend =>
      match consumptionFor consumptions backend.resource with
      | .error _ => call
      | .ok consumedTotal =>
          (call.perform env (.finish backend.leaseId consumedTotal.toNat sequence)).1

def rollbackReservations (env : CallEnv) (consumptions : List QuotaConsumption)
    (call : QuotaCall) (backends : List QuotaLeaseBackend) : QuotaCall :=
  backends.foldl (abandon env consumptions 1) call

/-! ## The call -/

inductive DistributedReserveResult where
  | reserved
  | rejected (message : String)
deriving DecidableEq, Repr

structure QuotaLease where
  reservations : List QuotaAmount
  consumptions : List QuotaConsumption
  backends : List QuotaLeaseBackend
deriving DecidableEq, Repr

/-- The first matching trigger of a requested resource. -/
def selected (env : CallEnv) (req : QuotaRequest) (rules : List RateLimitRule)
    (resource : QuotaResource) : Option QuotaTriggerEntry :=
  if (req.amountFor resource).isNone then none
  else
    (matchingQuotaTriggers env.regex req rules).find? fun entry =>
      quotaResource entry.trigger.resource = some resource

def distributedSpecs (env : CallEnv) (req : QuotaRequest) (rules : List RateLimitRule) :
    List QuotaSpec :=
  req.quotas.filterMap fun quota =>
    (selected env req rules quota.resource).bind fun entry =>
      if usesDistributedQuota entry.rule entry.trigger then
        some ⟨entry.rule, entry.trigger, quota.amount⟩
      else none

/-- A spec that fails over to the local counter; with `FAILOVER_PASS` nothing is reserved. -/
def failoverSpecs (specs : List QuotaSpec) : List QuotaSpec :=
  specs.filter fun spec => spec.trigger.failover = .failoverLocal

/-- The quotas that are counted locally, in the order of the request. -/
def localSpecs (env : CallEnv) (req : QuotaRequest) (rules : List RateLimitRule) :
    List QuotaSpec :=
  req.quotas.filterMap fun quota =>
    (selected env req rules quota.resource).bind fun entry =>
      if usesDistributedQuota entry.rule entry.trigger then none
      else if usesLocalCounter entry.rule entry.trigger then
        some ⟨entry.rule, entry.trigger, quota.amount⟩
      else none

/-- Both reservation loops: reserve each spec on the local counter, and on a failure give all
reservations of the call back and report. -/
def reserveEach (env : CallEnv) (req : QuotaRequest) (report : PoleError → PoleError) :
    QuotaCall → List QuotaLeaseBackend → List QuotaSpec →
      QuotaCall × Except PoleError (List QuotaLeaseBackend)
  | call, backends, [] => (call, .ok backends)
  | call, backends, spec :: specs =>
      match reserveLocal env req call spec with
      | (call, .error err) =>
          (rollbackReservations env (initialConsumptions req.quotas) call backends,
            .error (report err))
      | (call, .ok none) => reserveEach env req report call backends specs
      | (call, .ok (some backend)) =>
          reserveEach env req report call (backends ++ [.localCounter backend]) specs

/-- The distributed part: asked only if there is something to ask for. An error fails over, and
is what a failed failover reports. -/
def reserveDistributed (env : CallEnv) (req : QuotaRequest) (call : QuotaCall)
    (specs : List QuotaSpec)
    (distributed : List QuotaSpec → Except PoleError DistributedReserveResult) :
    QuotaCall × Except PoleError (List QuotaLeaseBackend) :=
  if specs.isEmpty then (call, .ok [])
  else
    match distributed specs with
    | .ok .reserved => (call, .ok [.distributed])
    | .ok (.rejected message) => (call, .error (quotaRejected message))
    | .error err => reserveEach env req (fun _ => err) call [] (failoverSpecs specs)

/-- `DefaultRateLimitAPI::reserve`. -/
def reserveQuotas (env : CallEnv)
    (distributed : List QuotaSpec → Except PoleError DistributedReserveResult)
    (state : LocalQuotaState) (req : QuotaRequest) (rules : List RateLimitRule) :
    QuotaCall × Except PoleError QuotaLease :=
  match reserveDistributed env req ⟨state, []⟩ (distributedSpecs env req rules) distributed with
  | (call, .error err) => (call, .error err)
  | (call, .ok backends) =>
      match reserveEach env req id call backends (localSpecs env req rules) with
      | (call, .error err) => (call, .error err)
      | (call, .ok backends) =>
          (call, .ok ⟨req.quotas, initialConsumptions req.quotas, backends⟩)

end PoleClient.RateLimit
