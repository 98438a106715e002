import Mathlib.Logic.Function.Basic
import PoleClient.Lib.CounterArith
import PoleClient.Lib.Table
import PoleClient.RateLimit.Rules

/-! # The local quota counter

Windows, concurrency counters, live leases and recently completed leases under
one lock. Every operation first settles the expired leases and reads the clock
once. Window generations are natural numbers; lease identifiers come from a
generator that the `issued`-th reservation reads.
-/

namespace PoleClient.RateLimit

open Lib

/-! ## State -/

structure QuotaWindow where
  startedAt : Nat
  generation : Nat
  committed : Nat
  reserved : Nat
deriving DecidableEq, Repr

inductive LocalAccounting where
  | consumable
  | occupancy
deriving DecidableEq, Repr

structure LocalWindowReservation where
  key : String
  generation : Nat
deriving DecidableEq, Repr

structure LocalLeaseState where
  accounting : LocalAccounting
  reservedAmount : Nat
  consumedTotal : Nat
  sequence : Nat
  expiresAt : Nat
  windows : List LocalWindowReservation
  concurrencyKey : Option String
deriving DecidableEq, Repr

structure CompletedLocalLease where
  consumedTotal : Nat
  sequence : Nat
  expiresAt : Nat
deriving DecidableEq, Repr

structure LocalQuotaState where
  windows : String → Option QuotaWindow
  concurrency : String → Option Nat
  leases : Table String LocalLeaseState
  completed : String → Option CompletedLocalLease
  issued : Nat

def LocalQuotaState.empty : LocalQuotaState where
  windows _ := none
  concurrency _ := none
  leases := Table.empty
  completed _ := none
  issued := 0

/-- What the counter takes from outside: the identifier generator, the digest text and the
last representable instant. -/
structure QuotaEnv where
  uuid : Nat → String
  sha256Hex : String → String
  lastInstant : Nat

structure LocalLeaseBackend where
  leaseId : String
  resource : QuotaResource
deriving DecidableEq, Repr

inductive LocalReserveResult where
  | reserved (backend : LocalLeaseBackend)
  | rejected (message : String)
  | notConfigured
deriving DecidableEq, Repr

/-! ## Settlement and expiry -/

/-- Settle one window reservation; a window of another generation is left alone. -/
def settleWindow (arith : CounterArith) (lease : LocalLeaseState)
    (windows : String → Option QuotaWindow) (reservation : LocalWindowReservation) :
    String → Option QuotaWindow :=
  match windows reservation.key with
  | none => windows
  | some window =>
      if window.generation ≠ reservation.generation then windows
      else Function.update windows reservation.key (some { window with
        reserved := window.reserved - lease.reservedAmount
        committed := arith.saturatingAdd window.committed lease.consumedTotal })

/-- Give an occupancy back; a counter that falls to zero is removed. -/
def settleOccupancy (lease : LocalLeaseState) (concurrency : String → Option Nat) :
    String → Option Nat :=
  match lease.concurrencyKey with
  | none => concurrency
  | some key =>
      match concurrency key with
      | none => concurrency
      | some occupied =>
          let occupied := occupied - lease.reservedAmount
          Function.update concurrency key (if occupied = 0 then none else some occupied)

def settleLocalLease (arith : CounterArith) (state : LocalQuotaState)
    (lease : LocalLeaseState) : LocalQuotaState :=
  match lease.accounting with
  | .consumable =>
      { state with windows := lease.windows.foldl (settleWindow arith lease) state.windows }
  | .occupancy => { state with concurrency := settleOccupancy lease state.concurrency }

/-- Remove a live lease and settle it. -/
def removeAndSettle (arith : CounterArith) (state : LocalQuotaState) (leaseId : String)
    (lease : LocalLeaseState) : LocalQuotaState :=
  settleLocalLease arith { state with leases := state.leases.erase leaseId } lease

def expiredLeases (now : Nat) (state : LocalQuotaState) : List (String × LocalLeaseState) :=
  state.leases.rows.filter fun entry => entry.2.expiresAt ≤ now

def cleanupExpiredLocalLeases (arith : CounterArith) (now : Nat) (state : LocalQuotaState) :
    LocalQuotaState :=
  let settled := (expiredLeases now state).foldl
    (fun state entry => removeAndSettle arith state entry.1 entry.2) state
  { settled with
    completed := fun leaseId => (settled.completed leaseId).filter fun completed =>
      completed.expiresAt > now }

/-! ## Reservation -/

def QuotaWindow.fresh (now : Nat) : QuotaWindow := ⟨now, 0, 0, 0⟩

/-- A window whose duration has passed starts over in the next generation. -/
def QuotaWindow.rotate (now seconds : Nat) (window : QuotaWindow) : QuotaWindow :=
  if now - window.startedAt ≥ seconds * nanosPerSecond then
    ⟨now, window.generation + 1, 0, 0⟩
  else window

/-- The window an amount is counted in, created or rotated if need be. -/
def currentWindow (now seconds : Nat) (windows : String → Option QuotaWindow) (key : String) :
    QuotaWindow :=
  ((windows key).getD (.fresh now)).rotate now seconds

def exceeds (arith : CounterArith) (window : QuotaWindow) (amount limit : Nat) : Prop :=
  arith.saturatingAdd (arith.saturatingAdd window.committed window.reserved) amount > limit

instance (arith : CounterArith) (window : QuotaWindow) (amount limit : Nat) :
    Decidable (exceeds arith window amount limit) :=
  inferInstanceAs (Decidable (_ > _))

/-- The first loop of `reserve`: look every window up and check its limit. It stops at the
first window without room, keeping the windows it has created or rotated. -/
def checkWindows (arith : CounterArith) (now : Nat) (keyOf : Nat → String) (amount : Nat) :
    (String → Option QuotaWindow) → List Amount →
      (String → Option QuotaWindow) × Option (List LocalWindowReservation)
  | windows, [] => (windows, some [])
  | windows, limit :: limits =>
      let seconds := amountDuration limit
      let window := currentWindow now seconds windows (keyOf seconds)
      let windows := Function.update windows (keyOf seconds) (some window)
      if exceeds arith window amount limit.maxAmount.toNat then (windows, none)
      else
        let (windows, reservations) := checkWindows arith now keyOf amount windows limits
        (windows, reservations.map fun reservations =>
          ⟨keyOf seconds, window.generation⟩ :: reservations)

/-- The second loop of `reserve`. -/
def chargeWindow (arith : CounterArith) (amount : Nat) (windows : String → Option QuotaWindow)
    (reservation : LocalWindowReservation) : String → Option QuotaWindow :=
  match windows reservation.key with
  | none => windows
  | some window => Function.update windows reservation.key
      (some { window with reserved := arith.add window.reserved amount })

def initialConsumedTotal (trigger : LimitTrigger) : Nat :=
  match trigger.resource with
  | .qps => 1
  | _ => 0

def positiveAmounts (trigger : LimitTrigger) : List Amount :=
  trigger.amounts.filter fun amount => amount.maxAmount > 0

def reserveConsumable (arith : CounterArith) (env : QuotaEnv) (now : Nat)
    (state : LocalQuotaState) (req : QuotaRequest) (rule : RateLimitRule)
    (trigger : LimitTrigger) (amount expiresAt : Nat) (backend : LocalLeaseBackend) :
    LocalQuotaState × LocalReserveResult :=
  if (positiveAmounts trigger).isEmpty then (state, .notConfigured)
  else
    match checkWindows arith now (quotaCounterKey env.sha256Hex req rule trigger) amount
        state.windows (positiveAmounts trigger) with
    | (windows, none) => ({ state with windows }, .rejected "rate limit quota exhausted")
    | (windows, some reservations) =>
        let lease : LocalLeaseState := {
          accounting := .consumable
          reservedAmount := amount
          consumedTotal := initialConsumedTotal trigger
          sequence := 0
          expiresAt := expiresAt
          windows := reservations
          concurrencyKey := none }
        ({ state with
            windows := reservations.foldl (chargeWindow arith amount) windows
            leases := state.leases.insert backend.leaseId lease }, .reserved backend)

def reserveConcurrency (arith : CounterArith) (env : QuotaEnv) (state : LocalQuotaState)
    (req : QuotaRequest) (rule : RateLimitRule) (trigger : LimitTrigger)
    (amount expiresAt : Nat) (backend : LocalLeaseBackend) :
    LocalQuotaState × LocalReserveResult :=
  match trigger.concurrencyAmount with
  | none => (state, .notConfigured)
  | some limit =>
      if limit = 0 then (state, .notConfigured)
      else
        let key := concurrencyCounterKey env.sha256Hex req rule trigger
        let occupied := (state.concurrency key).getD 0
        if arith.saturatingAdd occupied amount > limit.toNat then
          ({ state with concurrency := Function.update state.concurrency key (some occupied) },
            .rejected "rate limit concurrency exhausted")
        else
          let lease : LocalLeaseState := {
            accounting := .occupancy
            reservedAmount := amount
            consumedTotal := 0
            sequence := 0
            expiresAt := expiresAt
            windows := []
            concurrencyKey := some key }
          ({ state with
              concurrency := Function.update state.concurrency key
                (some (arith.add occupied amount))
              leases := state.leases.insert backend.leaseId lease }, .reserved backend)

/-- `LocalQuotaCounter::reserve`. The identifier is drawn before anything can fail. -/
def reserve (arith : CounterArith) (env : QuotaEnv) (now : Nat) (state : LocalQuotaState)
    (req : QuotaRequest) (rule : RateLimitRule) (trigger : LimitTrigger) (amount : Nat) :
    LocalQuotaState × Except PoleError LocalReserveResult :=
  let state := cleanupExpiredLocalLeases arith now state
  let leaseId := env.uuid state.issued
  let state := { state with issued := state.issued + 1 }
  if now + req.leaseTtl > env.lastInstant then
    (state, .error (.new .apiInvalidArgument "quota lease ttl cannot be represented locally"))
  else
    let expiresAt := now + req.leaseTtl
    match trigger.resource with
    | .qps =>
        let (state, result) := reserveConsumable arith env now state req rule trigger amount
          expiresAt ⟨leaseId, .qps⟩
        (state, .ok result)
    | .token =>
        let (state, result) := reserveConsumable arith env now state req rule trigger amount
          expiresAt ⟨leaseId, .token⟩
        (state, .ok result)
    | .concurrency =>
        let (state, result) := reserveConcurrency arith env state req rule trigger amount
          expiresAt ⟨leaseId, .concurrency⟩
        (state, .ok result)
    | .other => (state, .ok .notConfigured)

/-! ## Updates and finish -/

def u64Max : Nat := 2 ^ 64 - 1

def validateLocalOperation (lease : LocalLeaseState) (consumedTotal sequence : Nat) :
    Except PoleError Unit :=
  if sequence ≠ min (lease.sequence + 1) u64Max then
    .error (.new .invalidState "quota lease operation sequence is out of order")
  else if consumedTotal < lease.consumedTotal ∨ consumedTotal > lease.reservedAmount then
    .error (.new .apiInvalidArgument
      "quota lease cumulative consumption is outside its reservation")
  else .ok ()

def leaseSettledError : PoleError :=
  .new .invalidState "quota lease is expired or already settled"

def updateLease (arith : CounterArith) (now : Nat) (state : LocalQuotaState) (leaseId : String)
    (consumedTotal sequence : Nat) : LocalQuotaState × Except PoleError Unit :=
  let state := cleanupExpiredLocalLeases arith now state
  match state.leases.lookup leaseId with
  | none => (state, .error leaseSettledError)
  | some lease =>
      if sequence = lease.sequence ∧ consumedTotal = lease.consumedTotal then (state, .ok ())
      else
        match validateLocalOperation lease consumedTotal sequence with
        | .error err => (state, .error err)
        | .ok () =>
            ({ state with
                leases := state.leases.modify leaseId fun lease =>
                  { lease with consumedTotal, sequence } }, .ok ())

/-- Completed leases are remembered for a minute, for repeated requests. -/
def completedTtl : Nat := 60 * nanosPerSecond

/-- The lease that a finish settles; none when the finish repeats a completed one. -/
def finishTarget (state : LocalQuotaState) (leaseId : String) (consumedTotal sequence : Nat) :
    Except PoleError (Option LocalLeaseState) :=
  if (state.completed leaseId).any fun completed =>
      completed.sequence = sequence && completed.consumedTotal = consumedTotal then .ok none
  else
    match state.leases.lookup leaseId with
    | none => .error leaseSettledError
    | some lease =>
        match validateLocalOperation lease consumedTotal sequence with
        | .error err => .error err
        | .ok () => .ok (some { lease with consumedTotal })

def finishLease (arith : CounterArith) (now : Nat) (state : LocalQuotaState) (leaseId : String)
    (consumedTotal sequence : Nat) : LocalQuotaState × Except PoleError Unit :=
  let state := cleanupExpiredLocalLeases arith now state
  match finishTarget state leaseId consumedTotal sequence with
  | .error err => (state, .error err)
  | .ok none => (state, .ok ())
  | .ok (some lease) =>
      let state := removeAndSettle arith state leaseId lease
      ({ state with
          completed := Function.update state.completed leaseId
            (some ⟨consumedTotal, sequence, now + completedTtl⟩) }, .ok ())

end PoleClient.RateLimit
