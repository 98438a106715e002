import PoleClient.RateLimit.LeaseWire
import PoleClient.RateLimit.QuotaWindows

/-! # The limiter

The server that the tests of the session run: it hands out counters, reserves on
them, and keeps of each lease the totals and the sequence. A request is handled
under one lock. Sums that do not fit a word, differences below zero and missing
entries panic, which poisons the lock; `none` is such a request.
-/

namespace PoleClient.RateLimit

open Lib

/-! ## State -/

structure CounterState where
  maxAmount : UInt32
  accounting : QuotaAccounting
  committed : Nat
  reserved : Nat
deriving DecidableEq, Repr

structure ServerLease where
  reservations : Table UInt32 UInt32
  consumptions : Table UInt32 UInt32
  sequence : Nat

structure ServerState where
  counters : Table UInt32 CounterState
  leases : Table String ServerLease
  settled : Table String (List QuotaSettlement)
  nextLease : Nat

def ServerState.new : ServerState := ⟨.empty, .empty, .empty, 0⟩

def rejectedCode : UInt32 := 429001

def invalidLeaseCode : UInt32 := 400001

def leaseIdOf (number : Nat) : String := "lease-" ++ toString number

/-! ## Requests -/

/-- The counters that an init request hands out, from a first key on. -/
def countersFrom : Nat → List QuotaTotal → List (UInt32 × CounterState)
  | _, [] => []
  | next, total :: totals =>
      (UInt32.ofNat next, ⟨total.maxAmount, total.accounting, 0, 0⟩) ::
        countersFrom (next + 1) totals

namespace ServerState

def firstCounterKey (s : ServerState) : Nat := 100 + s.counters.rows.length

def handleInit (s : ServerState) (totals : List QuotaTotal) :
    Option (ServerState × RateLimitInitResponse) :=
  let counters := countersFrom s.firstCounterKey totals
  if s.firstCounterKey < 2 ^ 32 ∧ s.firstCounterKey + totals.length ≤ 2 ^ 32 then
    some ({ s with counters := counters.foldl (fun t e => t.insert e.1 e.2) s.counters },
      ⟨rateLimitSuccessCode, 7, counters.map Prod.fst⟩)
  else none

/-- The counter is there and has room, in saturated sums. -/
def admits (s : ServerState) (reservation : QuotaReservation) : Bool :=
  match s.counters.lookup reservation.counterKey with
  | none => false
  | some counter =>
      CounterArith.u32.saturatingAdd
        (CounterArith.u32.saturatingAdd counter.committed counter.reserved)
        reservation.amount.toNat ≤ counter.maxAmount.toNat

end ServerState

def reserveCounter (counters : Table UInt32 CounterState) (reservation : QuotaReservation) :
    Option (Table UInt32 CounterState) :=
  match counters.lookup reservation.counterKey with
  | none => none
  | some counter =>
      if counter.reserved + reservation.amount.toNat ≤ CounterArith.u32Max then
        some (counters.modify reservation.counterKey fun counter =>
          { counter with reserved := counter.reserved + reservation.amount.toNat })
      else none

/-- What is left of the counter is computed for the answer. -/
def hasLeft (counters : Table UInt32 CounterState) (reservation : QuotaReservation) : Bool :=
  match counters.lookup reservation.counterKey with
  | none => false
  | some counter => counter.committed + counter.reserved ≤ counter.maxAmount.toNat

def newLease (reservations : List QuotaReservation) : ServerLease where
  reservations := .collect QuotaReservation.counterKey QuotaReservation.amount reservations
  consumptions := .collect QuotaReservation.counterKey (fun _ => 0) reservations
  sequence := 0

def ServerLease.accepts (lease : ServerLease) (update : QuotaUpdateRequest) : Bool :=
  update.sequence = lease.sequence + 1 && update.consumptions.all fun consumption =>
    let current := (lease.consumptions.lookup consumption.counterKey).getD 0xffffffff
    let reserved := (lease.reservations.lookup consumption.counterKey).getD 0
    current ≤ consumption.consumedTotal && consumption.consumedTotal ≤ reserved

def ServerLease.update (lease : ServerLease) (update : QuotaUpdateRequest) : ServerLease where
  reservations := lease.reservations
  consumptions := update.consumptions.foldl
    (fun t consumption => t.insert consumption.counterKey consumption.consumedTotal)
    lease.consumptions
  sequence := update.sequence

def settleCounter (consumed : Table UInt32 UInt32) (counters : Table UInt32 CounterState)
    (key amount : UInt32) : Option (Table UInt32 CounterState × QuotaSettlement) :=
  match consumed.lookup key, counters.lookup key with
  | some total, some counter =>
      if counter.reserved < amount.toNat then none
      else
        match counter.accounting with
        | .consumable =>
            if CounterArith.u32Max < counter.committed + total.toNat ∨ amount < total then none
            else
              some (counters.modify key fun counter => { counter with
                  committed := counter.committed + total.toNat
                  reserved := counter.reserved - amount.toNat },
                ⟨key, total, amount - total⟩)
        | .occupancy =>
            some (counters.modify key fun counter =>
                { counter with reserved := counter.reserved - amount.toNat },
              ⟨key, total, amount⟩)
  | _, _ => none

def settleCounters (consumed : Table UInt32 UInt32) :
    Table UInt32 CounterState → List (UInt32 × UInt32) →
      Option (Table UInt32 CounterState × List QuotaSettlement)
  | counters, [] => some (counters, [])
  | counters, (key, amount) :: rest =>
      match settleCounter consumed counters key amount with
      | none => none
      | some (counters, settlement) =>
          match settleCounters consumed counters rest with
          | none => none
          | some (counters, settlements) => some (counters, settlement :: settlements)

namespace ServerState

def handleReserve (s : ServerState) (reservations : List QuotaReservation) :
    Option (ServerState × QuotaReserveResponse) :=
  if reservations.all s.admits then
    match reservations.foldlM reserveCounter s.counters with
    | none => none
    | some counters =>
        if reservations.all (hasLeft counters) then
          some
            ({ s with
                counters := counters
                leases := s.leases.insert (leaseIdOf (s.nextLease + 1)) (newLease reservations)
                nextLease := s.nextLease + 1 },
              ⟨rateLimitSuccessCode, leaseIdOf (s.nextLease + 1)⟩)
        else none
  else some (s, ⟨rejectedCode, ""⟩)

def handleUpdate (s : ServerState) (update : QuotaUpdateRequest) :
    ServerState × QuotaUpdateResponse :=
  match s.leases.lookup update.leaseId with
  | none => (s, ⟨invalidLeaseCode, update.consumptions, update.sequence⟩)
  | some lease =>
      if lease.accepts update then
        ({ s with leases := s.leases.modify update.leaseId fun lease => lease.update update },
          ⟨rateLimitSuccessCode, update.consumptions, update.sequence⟩)
      else (s, ⟨invalidLeaseCode, update.consumptions, update.sequence⟩)

/-- Without an answer the stream is closed. A settlement out of sequence removes the lease, and
nothing gives back what it had reserved. -/
def handleSettle (s : ServerState) (settle : QuotaSettleRequest) :
    Option (ServerState × Option QuotaSettleResponse) :=
  match s.settled.lookup settle.leaseId with
  | some previous => some (s, some ⟨rateLimitSuccessCode, previous⟩)
  | none =>
      match s.leases.lookup settle.leaseId with
      | none => some (s, none)
      | some lease =>
          if settle.sequence ≠ lease.sequence + 1 then
            some ({ s with leases := s.leases.erase settle.leaseId }, none)
          else
            let consumed := Table.collect RemoteQuotaConsumption.counterKey
              RemoteQuotaConsumption.consumedTotal settle.consumptions
            match settleCounters consumed s.counters lease.reservations.rows with
            | none => none
            | some (counters, settlements) =>
                some
                  ({ s with
                      counters := counters
                      leases := s.leases.erase settle.leaseId
                      settled := s.settled.insert settle.leaseId settlements },
                    some ⟨rateLimitSuccessCode, settlements⟩)

def forfeited (s : ServerState) : LeaseRequest → List ServerLease
  | .update _ => []
  | .settle settle =>
      match s.settled.lookup settle.leaseId, s.leases.lookup settle.leaseId with
      | none, some lease => if settle.sequence ≠ lease.sequence + 1 then [lease] else []
      | _, _ => []

def handleLease (s : ServerState) : LeaseRequest → Option ServerState
  | .update update => some (s.handleUpdate update).1
  | .settle settle => (s.handleSettle settle).map Prod.fst

end ServerState

/-! ## Requests in turn -/

inductive LimiterRequest where
  | init (totals : List QuotaTotal)
  | reserve (reservations : List QuotaReservation)
  | lease (request : LeaseRequest)
deriving DecidableEq, Repr

/-- The state under the lock, with the leases that it has forgotten. -/
structure Limiter where
  server : ServerState
  forfeits : List ServerLease

namespace Limiter

def new : Limiter := ⟨.new, []⟩

def handle (s : Limiter) : LimiterRequest → Option Limiter
  | .init totals => (s.server.handleInit totals).map fun answer => ⟨answer.1, s.forfeits⟩
  | .reserve reservations =>
      (s.server.handleReserve reservations).map fun answer => ⟨answer.1, s.forfeits⟩
  | .lease request =>
      (s.server.handleLease request).map fun server =>
        ⟨server, s.forfeits ++ s.server.forfeited request⟩

end Limiter

end PoleClient.RateLimit
