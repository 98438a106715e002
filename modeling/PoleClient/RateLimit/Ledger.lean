import PoleClient.Lib.Run
import PoleClient.RateLimit.LocalCounter

/-! # The quota ledger

A ledger is the counter's state with a record of what was granted and what was
settled, taken from the operations themselves. The totals of the windows and
the concurrency counters are compared with sums over that record.
-/

namespace PoleClient.RateLimit

open Lib

/-! ## Operations -/

inductive QuotaOp where
  | reserve (req : QuotaRequest) (rule : RateLimitRule) (trigger : LimitTrigger) (amount : Nat)
  | update (leaseId : String) (consumedTotal sequence : Nat)
  | finish (leaseId : String) (consumedTotal sequence : Nat)

structure TimedOp where
  now : Nat
  op : QuotaOp

def applyOp (arith : CounterArith) (env : QuotaEnv) (state : LocalQuotaState) (timed : TimedOp) :
    LocalQuotaState × Except PoleError (Option LocalReserveResult) :=
  match timed.op with
  | .reserve req rule trigger amount =>
      let (state, result) := reserve arith env timed.now state req rule trigger amount
      (state, result.map some)
  | .update leaseId consumedTotal sequence =>
      let (state, result) := updateLease arith timed.now state leaseId consumedTotal sequence
      (state, result.map fun () => none)
  | .finish leaseId consumedTotal sequence =>
      let (state, result) := finishLease arith timed.now state leaseId consumedTotal sequence
      (state, result.map fun () => none)

/-! ## The ledger -/

structure Ledger where
  state : LocalQuotaState
  granted : List String
  settled : List (String × LocalLeaseState)

def Ledger.empty : Ledger := ⟨.empty, [], []⟩

def grantedBy (result : Except PoleError (Option LocalReserveResult)) : List String :=
  match result with
  | .ok (some (.reserved backend)) => [backend.leaseId]
  | _ => []

/-- The lease that a finish settles, with its final consumption. -/
def finishedBy (arith : CounterArith) (state : LocalQuotaState) (timed : TimedOp) :
    List (String × LocalLeaseState) :=
  match timed.op with
  | .finish leaseId consumedTotal sequence =>
      match finishTarget (cleanupExpiredLocalLeases arith timed.now state) leaseId consumedTotal
          sequence with
      | .ok (some lease) => [(leaseId, lease)]
      | _ => []
  | _ => []

/-- Record what the operation grants and settles; expired leases are settled first. -/
def Ledger.step (arith : CounterArith) (env : QuotaEnv) (ledger : Ledger) (timed : TimedOp) :
    Ledger where
  state := (applyOp arith env ledger.state timed).1
  granted := grantedBy (applyOp arith env ledger.state timed).2 ++ ledger.granted
  settled := finishedBy arith ledger.state timed ++
    ((expiredLeases timed.now ledger.state).reverse ++ ledger.settled)

/-! ## Sums over the ledger -/

/-- How many of the lease's reservations are bound to this window generation. -/
def bindings (lease : LocalLeaseState) (key : String) (generation : Nat) : Nat :=
  match lease.accounting with
  | .consumable => lease.windows.count ⟨key, generation⟩
  | .occupancy => 0

def reservedFor (leases : Table String LocalLeaseState) (key : String) (generation : Nat) : Nat :=
  leases.sum fun lease => bindings lease key generation * lease.reservedAmount

def committedFor (settled : List (String × LocalLeaseState)) (key : String)
    (generation : Nat) : Nat :=
  (settled.map fun entry => bindings entry.2 key generation * entry.2.consumedTotal).sum

/-- The amount a lease holds of a concurrency counter. -/
def occupies (lease : LocalLeaseState) (key : String) : Nat :=
  match lease.accounting with
  | .consumable => 0
  | .occupancy => if lease.concurrencyKey = some key then lease.reservedAmount else 0

def occupancyFor (leases : Table String LocalLeaseState) (key : String) : Nat :=
  leases.sum fun lease => occupies lease key

/-- The totals are the sums over the ledger, and every granted lease is live or settled, once. -/
structure Conserved (ledger : Ledger) : Prop where
  reserved : ∀ key window, ledger.state.windows key = some window →
    window.reserved = reservedFor ledger.state.leases key window.generation
  committed : ∀ key window, ledger.state.windows key = some window →
    window.committed = committedFor ledger.settled key window.generation
  occupancy : ∀ key, (ledger.state.concurrency key).getD 0 = occupancyFor ledger.state.leases key
  once : (ledger.state.leases.keys ++ ledger.settled.map Prod.fst).Nodup
  granted : ∀ leaseId, leaseId ∈ ledger.granted ↔
    leaseId ∈ ledger.state.leases.keys ++ ledger.settled.map Prod.fst

/-- Reservations point at existing windows, never ahead of them, and identifiers are old. -/
structure Grounded (env : QuotaEnv) (ledger : Ledger) : Prop where
  bound : ∀ lease, (∃ leaseId, (leaseId, lease) ∈ ledger.state.leases.rows ++ ledger.settled) →
    ∀ key generation, bindings lease key generation ≠ 0 →
      ∃ window, ledger.state.windows key = some window ∧ generation ≤ window.generation
  issued : ∀ leaseId ∈ ledger.state.leases.keys ++ ledger.settled.map Prod.fst,
    ∃ n, n < ledger.state.issued ∧ leaseId = env.uuid n

structure LedgerInv (env : QuotaEnv) (ledger : Ledger) : Prop
    extends Conserved ledger, Grounded env ledger

end PoleClient.RateLimit
