import PoleClient.RateLimit.LeaseRecord
import PoleClient.RateLimit.LeaseTotals
import PoleClient.RateLimit.Rollback

/-! # One operation on all local backends

The local backends of a lease are asked one after the other, each at its own
reading of the clock. Where every one of them may confirm, all do, and the
leases that were asked first stay as they have become.
-/

namespace PoleClient.RateLimit

open Lib

/-! ## Grants -/

structure Grant where
  backend : LocalLeaseBackend
  lease : LocalLeaseState

namespace Grant

def leaseId (self : Grant) : String := self.backend.leaseId

/-- The lease when the totals and the sequence of the client are these. -/
def confirmed (self : Grant) (consumptions : List QuotaConsumption) (sequence : Nat) :
    LocalLeaseState :=
  { self.lease with
    consumedTotal := ((totalOf consumptions self.backend.resource).getD 0).toNat
    sequence := sequence }

end Grant

def localsOf (grants : List Grant) : List QuotaLeaseBackend :=
  grants.map fun grant => .localCounter grant.backend

/-- A lease is held, or settled. -/
inductive Phase where
  | held (lease : LocalLeaseState)
  | settled (lease : LocalLeaseState)

def Phase.Holds (ledger : Ledger) (leaseId : String) : Phase → Prop
  | held lease => HeldAs ledger leaseId lease
  | settled lease => SettledAs ledger leaseId lease

/-- No operation comes at or after the expiry of a local lease that is still live. -/
def InTime (lease : QuotaLease) (ledger : Ledger) (timed : TimedOp) : Prop :=
  ∀ backend ∈ localBackends lease.backends, ∀ live,
    ledger.state.leases.lookup backend.leaseId = some live → timed.now < live.expiresAt

def RunsInTime (env : CallEnv) (lease : QuotaLease) (start : Ledger) (call : QuotaCall) : Prop :=
  Along (Ledger.step env.arith env.toQuotaEnv) (InTime lease) start call.trace

/-- The grants of the lease: all its local backends, behind at most one distributed one. -/
structure Granted (lease : QuotaLease) (grants : List Grant) : Prop where
  backends : lease.backends = localsOf grants ∨ lease.backends = .distributed :: localsOf grants
  distinct : (grants.map Grant.leaseId).Nodup
  resources : (lease.reservations.map QuotaAmount.resource).Nodup
  reserved : ∀ grant ∈ grants, ∃ amount,
    amountOf lease.reservations grant.backend.resource = some amount ∧
      grant.lease.reservedAmount = amount.toNat

/-- The call's state is that of its ledger, and the identifiers of the grants have been drawn. -/
structure Follows (env : CallEnv) (start : Ledger) (grants : List Grant) (call : QuotaCall) :
    Prop where
  state : call.state = (ledgerOf env start call).state
  drawn : ∀ grant ∈ grants, Drawn env.toQuotaEnv (ledgerOf env start call).state grant.leaseId

section FanOut

variable {env : CallEnv} {lease : QuotaLease} {start : Ledger} {grants : List Grant}
variable {call : QuotaCall}

theorem localBackends_localsOf (grants : List Grant) :
    localBackends (localsOf grants) = grants.map Grant.backend := by
  induction grants with
  | nil => rfl
  | cons grant grants ih => exact congrArg (grant.backend :: ·) ih

theorem Granted.locals (granted : Granted lease grants) :
    localBackends lease.backends = grants.map Grant.backend := by
  rcases granted.backends with h | h
  · rw [h]
    exact localBackends_localsOf grants
  · rw [h]
    exact localBackends_localsOf grants

theorem Granted.mem (granted : Granted lease grants) {grant : Grant} (h : grant ∈ grants) :
    grant.backend ∈ localBackends lease.backends := by
  rw [granted.locals]
  exact List.mem_map_of_mem h

/-! ## One operation -/

theorem RunsInTime.of_prefix {final : QuotaCall} (h : RunsInTime env lease start final)
    (first : call.trace <+: final.trace) : RunsInTime env lease start call := by
  obtain ⟨rest, hrest⟩ := first
  unfold RunsInTime at h
  rw [← hrest, along_append] at h
  exact h.1

theorem runsInTime_perform (op : QuotaOp) :
    RunsInTime env lease start (call.perform env op).1 ↔
      RunsInTime env lease start call ∧
        InTime lease (ledgerOf env start call) ⟨env.clock call.trace.length, op⟩ := by
  have htrace : (call.perform env op).1.trace =
      call.trace ++ [⟨env.clock call.trace.length, op⟩] := rfl
  unfold RunsInTime
  rw [htrace, along_append]
  exact ⟨fun h => ⟨h.1, h.2.1⟩, fun h => ⟨h.1, h.2, trivial⟩⟩

theorem follows_perform (follows : Follows env start grants call) (op : QuotaOp) :
    Follows env start grants (call.perform env op).1 := by
  constructor
  · rw [ledgerOf_perform]
    unfold QuotaCall.perform Ledger.step
    rw [follows.state]
  · intro grant hgrant
    rw [ledgerOf_perform]
    exact drawn_step (follows.drawn grant hgrant) op

theorem perform_result (follows : Follows env start grants call) (op : QuotaOp) :
    (call.perform env op).2 = (applyOp env.arith env.toQuotaEnv (ledgerOf env start call).state
      ⟨env.clock call.trace.length, op⟩).2 := by
  unfold QuotaCall.perform
  rw [follows.state]

theorem phase_perform (unique : Function.Injective env.uuid)
    (follows : Follows env start grants call) {grant : Grant} (hgrant : grant ∈ grants)
    (mem : grant.backend ∈ localBackends lease.backends) {op : QuotaOp}
    (foreign : ¬ op.Names grant.leaseId)
    (inTime : InTime lease (ledgerOf env start call) ⟨env.clock call.trace.length, op⟩)
    {phase : Phase} (h : phase.Holds (ledgerOf env start call) grant.leaseId) :
    phase.Holds (ledgerOf env start (call.perform env op).1) grant.leaseId := by
  have hdrawn := follows.drawn grant hgrant
  rw [ledgerOf_perform]
  cases phase with
  | held live =>
      have hearly := inTime grant.backend mem live h.live
      exact HeldAs.step h hearly unique hdrawn foreign
  | settled live => exact SettledAs.step h unique hdrawn foreign

/-! ## The loop -/

/-- A local backend does its operation, whatever the counter answers. -/
theorem operateBackend_performs (op : String → Nat → Nat → QuotaOp)
    {consumptions : List QuotaConsumption} (sequence : Nat) (answer : CallResult)
    {backend : LocalLeaseBackend} {total : UInt32}
    (htotal : totalOf consumptions backend.resource = some total) :
    (operateBackend env op consumptions sequence answer call (.localCounter backend)).1 =
      (call.perform env (op backend.leaseId total.toNat sequence)).1 := by
  unfold operateBackend
  simp only [consumptionFor_ok_iff.mpr htotal]
  rcases call.perform env (op backend.leaseId total.toNat sequence) with ⟨after, result⟩
  cases result with
  | error err => rfl
  | ok reserved => rfl

theorem operateBackend_trace (op : String → Nat → Nat → QuotaOp)
    (consumptions : List QuotaConsumption) (sequence : Nat) (answer : CallResult)
    (call : QuotaCall) (backend : QuotaLeaseBackend) :
    call.trace <+:
      (operateBackend env op consumptions sequence answer call backend).1.trace := by
  cases backend with
  | distributed => exact List.prefix_rfl
  | localCounter backend =>
      cases hconsumption : consumptionFor consumptions backend.resource with
      | error err =>
          unfold operateBackend
          simp only [hconsumption]
          exact List.prefix_rfl
      | ok total =>
          rw [operateBackend_performs op sequence answer (consumptionFor_ok_iff.mp hconsumption)]
          exact List.prefix_append _ _

theorem operateBackends_trace (op : String → Nat → Nat → QuotaOp)
    (consumptions : List QuotaConsumption) (sequence : Nat) (answer : CallResult)
    (backends : List QuotaLeaseBackend) (call : QuotaCall) :
    call.trace <+:
      (operateBackends env op consumptions sequence answer call backends).1.trace := by
  induction backends generalizing call with
  | nil => exact List.prefix_rfl
  | cons backend backends ih =>
      have hfirst := @operateBackend_trace env op consumptions sequence answer call backend
      unfold operateBackends
      rcases hresult : operateBackend env op consumptions sequence answer call backend with
        ⟨after, result⟩
      rw [hresult] at hfirst
      cases result with
      | ok => exact hfirst.trans (ih after)
      | err error => exact hfirst
      | cancelled => exact hfirst

theorem operateBackends_cons_trace (op : String → Nat → Nat → QuotaOp)
    (consumptions : List QuotaConsumption) (sequence : Nat) (answer : CallResult)
    (call : QuotaCall) (backend : QuotaLeaseBackend) (backends : List QuotaLeaseBackend) :
    (operateBackend env op consumptions sequence answer call backend).1.trace <+:
      (operateBackends env op consumptions sequence answer call
        (backend :: backends)).1.trace := by
  rw [operateBackends]
  rcases operateBackend env op consumptions sequence answer call backend with ⟨after, result⟩
  cases result with
  | ok => exact operateBackends_trace op consumptions sequence answer backends after
  | err error => exact List.prefix_rfl
  | cancelled => exact List.prefix_rfl

theorem operateBackend_local {op : String → Nat → Nat → QuotaOp}
    {consumptions : List QuotaConsumption} {sequence : Nat} {answer : CallResult}
    {backend : LocalLeaseBackend} {total : UInt32}
    (htotal : totalOf consumptions backend.resource = some total)
    (hok : (call.perform env (op backend.leaseId total.toNat sequence)).2 = .ok none) :
    operateBackend env op consumptions sequence answer call (.localCounter backend) =
      ((call.perform env (op backend.leaseId total.toNat sequence)).1, .ok) := by
  refine Prod.ext (operateBackend_performs op sequence answer htotal) ?_
  unfold operateBackend
  simp only [consumptionFor_ok_iff.mpr htotal]
  rcases hresult : call.perform env (op backend.leaseId total.toNat sequence) with ⟨after, result⟩
  rw [hresult] at hok
  obtain rfl : result = .ok none := hok
  rfl

/-- The operation takes a grant from one phase to another, and names that grant only. -/
structure Advances (env : CallEnv) (lease : QuotaLease) (start : Ledger) (grants : List Grant)
    (op : String → Nat → Nat → QuotaOp) (consumptions : List QuotaConsumption) (sequence : Nat)
    (before after : Grant → Phase) : Prop where
  names : ∀ named total leaseId, (op named total sequence).Names leaseId → named = leaseId
  own : ∀ grant ∈ grants, ∀ call, Follows env start grants call →
    (before grant).Holds (ledgerOf env start call) grant.leaseId →
    ∃ total, totalOf consumptions grant.backend.resource = some total ∧
      (InTime lease (ledgerOf env start call)
          ⟨env.clock call.trace.length, op grant.leaseId total.toNat sequence⟩ →
        (call.perform env (op grant.leaseId total.toNat sequence)).2 = .ok none ∧
        (after grant).Holds (ledgerOf env start
          (call.perform env (op grant.leaseId total.toNat sequence)).1) grant.leaseId)

theorem operateBackends_locals (unique : Function.Injective env.uuid)
    (granted : Granted lease grants) {op : String → Nat → Nat → QuotaOp}
    {consumptions : List QuotaConsumption} {sequence : Nat} {answer : CallResult}
    {before after : Grant → Phase}
    (advances : Advances env lease start grants op consumptions sequence before after)
    {rest : List Grant} (sub : ∀ grant ∈ rest, grant ∈ grants)
    (distinct : (rest.map Grant.leaseId).Nodup) (follows : Follows env start grants call)
    (ready : ∀ grant ∈ rest, (before grant).Holds (ledgerOf env start call) grant.leaseId)
    (inTime : RunsInTime env lease start
      (operateBackends env op consumptions sequence answer call (localsOf rest)).1) :
    (operateBackends env op consumptions sequence answer call (localsOf rest)).2 = .ok ∧
      Follows env start grants
        (operateBackends env op consumptions sequence answer call (localsOf rest)).1 ∧
      (∀ grant ∈ rest, (after grant).Holds (ledgerOf env start
        (operateBackends env op consumptions sequence answer call (localsOf rest)).1)
          grant.leaseId) ∧
      ∀ grant ∈ grants, grant.leaseId ∉ rest.map Grant.leaseId → ∀ phase : Phase,
        phase.Holds (ledgerOf env start call) grant.leaseId →
        phase.Holds (ledgerOf env start
          (operateBackends env op consumptions sequence answer call (localsOf rest)).1)
            grant.leaseId := by
  induction rest generalizing call with
  | nil =>
      refine ⟨rfl, follows, fun grant h => absurd h List.not_mem_nil, ?_⟩
      exact fun _ _ _ _ h => h
  | cons grant rest ih =>
      have hgrant := sub grant List.mem_cons_self
      obtain ⟨hnot, hdistinct⟩ := List.nodup_cons.mp distinct
      obtain ⟨total, htotal, hown⟩ :=
        advances.own grant hgrant call follows (ready grant List.mem_cons_self)
      have hcons : localsOf (grant :: rest) = .localCounter grant.backend :: localsOf rest := rfl
      have hfirst := inTime.of_prefix (operateBackends_cons_trace op consumptions sequence answer
        call (.localCounter grant.backend) (localsOf rest))
      rw [operateBackend_performs op sequence answer htotal, runsInTime_perform] at hfirst
      obtain ⟨hok, hafter⟩ := hown hfirst.2
      have hstep : operateBackends env op consumptions sequence answer call
          (localsOf (grant :: rest)) = operateBackends env op consumptions sequence answer
            (call.perform env (op grant.leaseId total.toNat sequence)).1 (localsOf rest) := by
        rw [hcons, operateBackends, operateBackend_local htotal hok]
        rfl
      -- the operation names this grant only
      have hother : ∀ other ∈ grants, other.leaseId ≠ grant.leaseId → ∀ phase : Phase,
          phase.Holds (ledgerOf env start call) other.leaseId →
          phase.Holds (ledgerOf env start
            (call.perform env (op grant.leaseId total.toNat sequence)).1) other.leaseId := by
        intro other hmem hne phase hphase
        refine phase_perform unique follows hmem (granted.mem hmem) (fun hnames => ?_) hfirst.2
          hphase
        exact hne (advances.names _ _ _ hnames).symm
      rw [hstep] at inTime ⊢
      obtain ⟨hresult, hfollows, hdone, hframe⟩ := ih
        (fun other h => sub other (List.mem_cons_of_mem _ h)) hdistinct (follows_perform follows _)
        (fun other h => hother other (sub other (List.mem_cons_of_mem _ h))
          (fun heq => hnot (List.mem_map.mpr ⟨other, h, heq⟩)) _
          (ready other (List.mem_cons_of_mem _ h)))
        inTime
      refine ⟨hresult, hfollows, fun other h => ?_, fun other hmem hnotMem phase hphase => ?_⟩
      · rcases List.mem_cons.mp h with rfl | htail
        · exact hframe other hgrant hnot _ hafter
        · exact hdone other htail
      · rw [List.map_cons, List.mem_cons, not_or] at hnotMem
        exact hframe other hmem hnotMem.2 phase (hother other hmem hnotMem.1 phase hphase)

end FanOut

end PoleClient.RateLimit
