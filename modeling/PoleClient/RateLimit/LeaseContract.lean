import PoleClient.RateLimit.Atomicity
import PoleClient.RateLimit.LeaseOpening

/-! # The contract of a lease

In every run of calls, failures, cancellations and a drop, in time for the local
leases, client and counter agree and only the distributed backend can fail. Once
closed, each local lease is settled once with the last confirmed total. A window
is charged that total for each of the lease's reservations in it: once, unless
the trigger counts several amounts in one window.
-/

namespace PoleClient.RateLimit

open Lib

/-! ## In step -/

/-- Every live local lease has the sequence and the total that the client has confirmed. -/
def InStep (lease : QuotaLease) (s : LeaseSystem) : Prop :=
  ∀ backend ∈ localBackends lease.backends, ∀ live,
    s.call.state.leases.lookup backend.leaseId = some live →
    live.sequence = s.state.sequence ∧
      ∃ total, totalOf s.state.consumptions backend.resource = some total ∧
        live.consumedTotal = total.toNat

/-- All local leases are live until the lease is finished or dropped. -/
def LiveUntilClosed (lease : QuotaLease) (s : LeaseSystem) : Prop :=
  s.state.finished = false → s.dropped = false → ∀ backend ∈ localBackends lease.backends,
    ∃ live, s.call.state.leases.lookup backend.leaseId = some live

/-- The same or larger totals for the same resources, within what was reserved. -/
def LeaseCall.RetryOf (retry call : LeaseCall) (lease : QuotaLease) : Prop :=
  ∃ updates raised, call.updates lease = .ok updates ∧ retry.updates lease = .ok raised ∧
    Raises lease.reservations updates raised

/-- The next call, whatever the distributed backend answers. -/
structure CallContract (env : CallEnv) (lease : QuotaLease) (start : Ledger) (s : LeaseSystem)
    (call : LeaseCall) (answer : CallResult) : Prop where
  /-- no local backend rejects what the lease accepts: the answer is that of the distributed one -/
  answered : ∀ next, Accepts lease s.state call next →
    (lease.operate env call answer s).2 = lease.answered answer
  /-- no total falls -/
  grown : Grown s.state.consumptions (lease.operate env call answer s).1.state.consumptions
  /-- a call that the distributed backend does not confirm changes nothing -/
  kept : ∀ next, Accepts lease s.state call next → (lease.operate env call answer s).2 ≠ .ok →
    (lease.operate env call answer s).1 = s
  /-- and can be retried -/
  retried : ∀ next, Accepts lease s.state call next → (lease.operate env call answer s).2 ≠ .ok →
    ∀ retry : LeaseCall, retry.RetryOf call lease →
      RunsInTime env lease start
        (lease.operate env retry .ok (lease.operate env call answer s).1).1.call →
      (lease.operate env retry .ok (lease.operate env call answer s).1).2 = .ok

section Contract

variable {env : CallEnv} {lease : QuotaLease} {start : Ledger} {grants : List Grant}
variable {s : LeaseSystem} {call : LeaseCall} {answer : CallResult}

theorem Granted.grant (granted : Granted lease grants) {backend : LocalLeaseBackend}
    (h : backend ∈ localBackends lease.backends) : ∃ grant ∈ grants, grant.backend = backend := by
  rw [granted.locals] at h
  obtain ⟨grant, hgrant, heq⟩ := List.mem_map.mp h
  exact ⟨grant, hgrant, heq⟩

/-- A grant's resource is reserved, so it has a total. -/
theorem LeaseInv.total (granted : Granted lease grants)
    (inv : LeaseInv env lease start grants s) {grant : Grant} (hgrant : grant ∈ grants) :
    ∃ total, totalOf s.state.consumptions grant.backend.resource = some total := by
  obtain ⟨amount, hamount, -⟩ := granted.reserved grant hgrant
  rcases inv.within.totalOf grant.backend.resource with ⟨hnone, -⟩ | ⟨-, total, -, htotal, -⟩
  · rw [hnone] at hamount
    cases hamount
  · exact ⟨total, htotal⟩

theorem inStep_of_inv (granted : Granted lease grants)
    (inv : LeaseInv env lease start grants s) : InStep lease s := by
  intro backend hbackend live hlive
  obtain ⟨grant, hgrant, rfl⟩ := granted.grant hbackend
  obtain ⟨total, htotal⟩ := inv.total granted hgrant
  rw [inv.follows.state] at hlive
  by_cases hclosed : s.state.finished = true ∨ s.dropped = true
  · obtain ⟨sequence, hsettled⟩ := inv.settled hclosed grant hgrant
    cases hlive.symm.trans hsettled.gone
  · rw [not_or, Bool.not_eq_true, Bool.not_eq_true] at hclosed
    have hheld := inv.held hclosed.1 hclosed.2 grant hgrant
    obtain rfl := Option.some.inj (hlive.symm.trans hheld.live)
    refine ⟨rfl, total, htotal, ?_⟩
    rw [confirmed_of_total htotal]

theorem live_of_inv (granted : Granted lease grants)
    (inv : LeaseInv env lease start grants s) : LiveUntilClosed lease s := by
  intro hfinished hdropped backend hbackend
  obtain ⟨grant, hgrant, rfl⟩ := granted.grant hbackend
  rw [inv.follows.state]
  exact ⟨_, (inv.held hfinished hdropped grant hgrant).live⟩

/-! ## Calls -/

/-- An update to the totals that are already confirmed is confirmed at once. -/
theorem operate_repeats (unfinished : s.state.finished = false) {updates : List QuotaConsumption}
    (hupdates : call.updates lease = .ok updates) (hfinishes : call.finishes = false)
    (h : applyUpdates lease.reservations [] s.state.consumptions updates =
      .ok s.state.consumptions) :
    lease.operate env call answer s = (s, .ok) := by
  rw [operate_updates hupdates, hfinishes, if_neg (by decide)]
  unfold QuotaLease.updateConsumptions applyConsumptionUpdates
  simp only [unfinished, Bool.false_eq_true, if_false, h, if_true]

theorem retry_confirmed (unique : Function.Injective env.uuid) (granted : Granted lease grants)
    (inv : LeaseInv env lease start grants s) (undropped : s.dropped = false)
    {next : List QuotaConsumption} (accepts : Accepts lease s.state call next) {retry : LeaseCall}
    (retryOf : retry.RetryOf call lease)
    (inTime : RunsInTime env lease start (lease.operate env retry .ok s).1.call) :
    (lease.operate env retry .ok s).2 = .ok := by
  have hanswer : lease.answered .ok = .ok := by
    unfold QuotaLease.answered
    split <;> rfl
  obtain ⟨given, hgiven, hnext⟩ := accepts.updates
  obtain ⟨updates, raised, hupdates, hraised, hraises⟩ := retryOf
  obtain rfl : given = updates := Except.ok.inj (hgiven.symm.trans hupdates)
  obtain ⟨larger, hlarger⟩ := applyUpdates_raised hraises inv.within inv.within
    (fun _ _ => rfl) hnext
  by_cases hrepeats : retry.finishes = false ∧ larger = s.state.consumptions
  · rw [hrepeats.2] at hlarger
    rw [operate_repeats accepts.unfinished hraised hrepeats.1 hlarger]
  · have haccepts : Accepts lease s.state retry larger :=
      ⟨accepts.unfinished, ⟨raised, hraised, hlarger⟩, fun hfinishes hsame =>
        hrepeats ⟨hfinishes, hsame⟩⟩
    rw [operate_accepts granted inv haccepts] at inTime ⊢
    exact (ask_answered unique granted inv undropped haccepts hanswer inTime).1

theorem callContract_of_inv (unique : Function.Injective env.uuid) (granted : Granted lease grants)
    (inv : LeaseInv env lease start grants s) (undropped : s.dropped = false)
    (inTime : RunsInTime env lease start (lease.operate env call answer s).1.call) :
    CallContract env lease start s call answer := by
  have hunanswered : ∀ next, Accepts lease s.state call next →
      (lease.operate env call answer s).2 ≠ .ok →
      (lease.operate env call answer s).1 = s := by
    intro next haccepts hresult
    by_cases hanswer : lease.answered answer = .ok
    · rw [operate_accepts granted inv haccepts] at inTime hresult
      exact absurd (ask_answered unique granted inv undropped haccepts hanswer inTime).1 hresult
    · rw [operate_accepts granted inv haccepts, ask_unanswered granted _ _ hanswer]
  constructor
  · intro next haccepts
    rw [operate_accepts granted inv haccepts] at inTime ⊢
    by_cases hanswer : lease.answered answer = .ok
    · rw [hanswer]
      exact (ask_answered unique granted inv undropped haccepts hanswer inTime).1
    · rw [ask_unanswered granted _ _ hanswer]
  · by_cases haccepts : ∃ next, Accepts lease s.state call next
    · obtain ⟨next, haccepts⟩ := haccepts
      have hgrown := (haccepts.grown inv.within).2
      rw [operate_accepts granted inv haccepts] at inTime ⊢
      by_cases hanswer : lease.answered answer = .ok
      · rw [(ask_answered unique granted inv undropped haccepts hanswer inTime).2.1]
        exact hgrown
      · rw [ask_unanswered granted _ _ hanswer]
        exact Grown.refl _
    · rw [operate_refuses fun next h => haccepts ⟨next, h⟩]
      exact Grown.refl _
  · exact hunanswered
  · intro next haccepts hresult retry hretry hretryInTime
    rw [hunanswered next haccepts hresult] at hretryInTime ⊢
    exact retry_confirmed unique granted inv undropped haccepts hretry hretryInTime

end Contract

/-! ## Settlement -/

/-- Each local lease is settled, once, with the last confirmed total. -/
def SettledOnce (lease : QuotaLease) (ledger : Ledger) (s : LeaseSystem) : Prop :=
  ∀ backend ∈ localBackends lease.backends,
    ledger.state.leases.lookup backend.leaseId = none ∧
      ∃ settled total, ledger.settledAs backend.leaseId = [settled] ∧
        totalOf s.state.consumptions backend.resource = some total ∧
        settled.consumedTotal = total.toNat

/-- What the other leases have committed in a generation of a window. -/
def committedByOthers (ledger : Ledger) (leaseId key : String) (generation : Nat) : Nat :=
  committedFor (ledger.settled.filter fun entry => entry.1 ≠ leaseId) key generation

/-- Some reservation of the settled lease counts in the present generation of the window. -/
structure CountsIn (ledger : Ledger) (leaseId key : String) (settled : LocalLeaseState)
    (window : QuotaWindow) : Prop where
  once : ledger.settledAs leaseId = [settled]
  found : ledger.state.windows key = some window
  bound : bindings settled key window.generation ≠ 0

/-- Every window that has not rotated has committed the last confirmed total once. -/
def ChargedOnce (lease : QuotaLease) (ledger : Ledger) (s : LeaseSystem) : Prop :=
  ∀ backend ∈ localBackends lease.backends, ∀ total,
    totalOf s.state.consumptions backend.resource = some total →
    ∀ settled key window, CountsIn ledger backend.leaseId key settled window →
      window.committed =
        total.toNat + committedByOthers ledger backend.leaseId key window.generation

/-- No window that has not rotated counts the lease more than once, or nothing was consumed. -/
def BoundOnce (lease : QuotaLease) (ledger : Ledger) (s : LeaseSystem) : Prop :=
  ∀ backend ∈ localBackends lease.backends, ∀ total,
    totalOf s.state.consumptions backend.resource = some total →
    ∀ settled key window, CountsIn ledger backend.leaseId key settled window →
      bindings settled key window.generation = 1 ∨ total = 0

section Settlement

variable {env : CallEnv} {lease : QuotaLease} {start : Ledger} {grants : List Grant}
variable {s : LeaseSystem}

theorem settledOnce_of_inv (granted : Granted lease grants)
    (inv : LeaseInv env lease start grants s)
    (closed : s.state.finished = true ∨ s.dropped = true) :
    SettledOnce lease (ledgerOf env start s.call) s := by
  intro backend hbackend
  obtain ⟨grant, hgrant, rfl⟩ := granted.grant hbackend
  obtain ⟨total, htotal⟩ := inv.total granted hgrant
  obtain ⟨sequence, hsettled⟩ := inv.settled closed grant hgrant
  refine ⟨hsettled.gone, _, total, hsettled.once, htotal, ?_⟩
  rw [confirmed_of_total htotal]

theorem committedFor_split (settled : List (String × LocalLeaseState)) (leaseId key : String)
    (generation : Nat) :
    committedFor settled key generation =
      committedFor (settled.filter fun entry => entry.1 = leaseId) key generation +
        committedFor (settled.filter fun entry => entry.1 ≠ leaseId) key generation := by
  have hperm := List.filter_append_perm (fun entry => decide (entry.1 = leaseId)) settled
  rw [← committedFor_perm hperm, committedFor_append]
  simp only [decide_not]

theorem committedFor_settledAs {ledger : Ledger} {leaseId : String} {settled : LocalLeaseState}
    (h : ledger.settledAs leaseId = [settled]) (key : String) (generation : Nat) :
    committedFor (ledger.settled.filter fun entry => entry.1 = leaseId) key generation =
      bindings settled key generation * settled.consumedTotal := by
  have hshare : committedFor (ledger.settled.filter fun entry => entry.1 = leaseId) key
      generation = ((ledger.settledAs leaseId).map fun lease =>
        bindings lease key generation * lease.consumedTotal).sum := by
    unfold committedFor Ledger.settledAs
    rw [List.map_map]
    rfl
  rw [hshare, h]
  simp

/-- A window counts the total of the lease once for each reservation in it. -/
theorem committed_of_countsIn {ledger : Ledger} (inv : LedgerInv env.toQuotaEnv ledger)
    {leaseId key : String} {settled : LocalLeaseState} {window : QuotaWindow}
    (counts : CountsIn ledger leaseId key settled window) :
    window.committed = bindings settled key window.generation * settled.consumedTotal +
      committedByOthers ledger leaseId key window.generation := by
  rw [inv.committed key window counts.found, committedFor_split ledger.settled leaseId key
    window.generation, committedFor_settledAs counts.once]
  rfl

theorem chargedOnce_iff (granted : Granted lease grants) (inv : LeaseInv env lease start grants s)
    (ledgerInv : LedgerInv env.toQuotaEnv (ledgerOf env start s.call))
    (closed : s.state.finished = true ∨ s.dropped = true) :
    ChargedOnce lease (ledgerOf env start s.call) s ↔
      BoundOnce lease (ledgerOf env start s.call) s := by
  have hcommitted : ∀ backend ∈ localBackends lease.backends, ∀ total,
      totalOf s.state.consumptions backend.resource = some total →
      ∀ settled key window,
        CountsIn (ledgerOf env start s.call) backend.leaseId key settled window →
        window.committed = bindings settled key window.generation * total.toNat +
          committedByOthers (ledgerOf env start s.call) backend.leaseId key
            window.generation := by
    intro backend hbackend total htotal settled key window hcounts
    obtain ⟨-, found, confirmed, hfound, hconfirmed, hconsumed⟩ :=
      settledOnce_of_inv granted inv closed backend hbackend
    obtain rfl : settled = found := by simpa [hcounts.once] using hfound
    obtain rfl := Option.some.inj (htotal.symm.trans hconfirmed)
    rw [← hconsumed]
    exact committed_of_countsIn ledgerInv hcounts
  constructor
  · intro hcharged backend hbackend total htotal settled key window hcounts
    have honce := hcharged backend hbackend total htotal settled key window hcounts
    rw [hcommitted backend hbackend total htotal settled key window hcounts,
      Nat.add_right_cancel_iff] at honce
    by_cases hzero : total = 0
    · exact .inr hzero
    · have hpositive : 0 < total.toNat :=
        Nat.pos_of_ne_zero fun h => hzero (UInt32.toNat_inj.mp h)
      refine .inl (Nat.eq_of_mul_eq_mul_right hpositive ?_)
      rw [honce, Nat.one_mul]
  · intro hbound backend hbackend total htotal settled key window hcounts
    rw [hcommitted backend hbackend total htotal settled key window hcounts]
    rcases hbound backend hbackend total htotal settled key window hcounts with hone | hzero
    · rw [hone, Nat.one_mul]
    · rw [hzero]
      rfl

theorem boundOnce_of_distinct (granted : Granted lease grants)
    (inv : LeaseInv env lease start grants s)
    (closed : s.state.finished = true ∨ s.dropped = true) {plan : List QuotaSpec}
    (made : ∀ grant ∈ grants, ∃ spec ∈ plan, MadeBy spec grant)
    (distinct : ∀ spec ∈ plan, DistinctDurations spec.trigger) :
    BoundOnce lease (ledgerOf env start s.call) s := by
  intro backend hbackend total htotal settled key window hcounts
  obtain ⟨grant, hgrant, rfl⟩ := granted.grant hbackend
  obtain ⟨spec, hspec, hmade⟩ := made grant hgrant
  obtain ⟨sequence, hsettled⟩ := inv.settled closed grant hgrant
  have hsame : settled = grant.confirmed s.state.consumptions sequence := by
    have honce := hcounts.once.symm.trans hsettled.once
    simpa using honce
  have hwindows : settled.windows.Nodup := by
    rw [hsame]
    exact hmade.windows (distinct spec hspec)
  have hcount : bindings settled key window.generation ≤ 1 := by
    unfold bindings
    cases settled.accounting with
    | consumable => exact List.nodup_iff_count_le_one.mp hwindows _
    | occupancy => exact Nat.zero_le _
  have hbound := hcounts.bound
  exact .inl (by omega)

end Settlement

/-! ## The contract -/

/-- The counters are the sums over the ledger: they are unbounded, or no reservation
overcharges a window. -/
def CountsExactly (env : CallEnv) (ops : List TimedOp) : Prop :=
  env.arith = .exact ∨
    env.arith = .u32 ∧ Along (Ledger.step .u32 env.toQuotaEnv) (fun ledger timed =>
      AsksPositive timed ∧ ¬ Overcharges env.toQuotaEnv ledger.state timed) Ledger.empty ops

theorem ledgerInv_of_countsExactly {env : CallEnv} (unique : Function.Injective env.uuid)
    {ops : List TimedOp} (counted : CountsExactly env ops) :
    LedgerInv env.toQuotaEnv (run (Ledger.step env.arith env.toQuotaEnv) Ledger.empty ops) := by
  rcases counted with hexact | ⟨hword, hwithin⟩
  · rw [hexact]
    exact ledgerInv_run unique ops
  · rw [hword]
    exact (wordInv_run unique hwithin).toLedgerInv

/-- What holds of a lease at every point of its life. -/
structure LeaseContract (env : CallEnv) (lease : QuotaLease) (start : Ledger) (s : LeaseSystem) :
    Prop where
  inStep : InStep lease s
  live : LiveUntilClosed lease s
  within : Within lease.reservations s.state.consumptions
  calls : s.dropped = false → ∀ call answer,
    RunsInTime env lease start (lease.operate env call answer s).1.call →
      CallContract env lease start s call answer
  settled : s.state.finished = true ∨ s.dropped = true →
    SettledOnce lease (ledgerOf env start s.call) s

/-- The contract holds in every run of a reserved lease. Once closed, the lease has charged its
totals once exactly when no window counts it twice, so whenever the triggers it was reserved
under have amounts of distinct durations. -/
theorem lease_contract (env : CallEnv) (unique : Function.Injective env.uuid)
    (ops : List TimedOp) (start : Ledger)
    (hstart : start = run (Ledger.step env.arith env.toQuotaEnv) Ledger.empty ops)
    (distributed : List QuotaSpec → Except PoleError DistributedReserveResult)
    (req : QuotaRequest) (valid : req.checkValid = .ok ()) (rules : List RateLimitRule)
    (opened : QuotaCall) (lease : QuotaLease)
    (reserved : reserveQuotas env distributed start.state req rules = (opened, .ok lease))
    (moves : List LeaseMove) (foreign : ∀ move ∈ moves, move.Foreign lease) (s : LeaseSystem)
    (hs : s = run (leaseStep env lease) (lease.opened opened) moves)
    (inTime : RunsInTime env lease start s.call) :
    LeaseContract env lease start s ∧
      (s.state.finished = true ∨ s.dropped = true → CountsExactly env (ops ++ s.call.trace) →
        Conserved (ledgerOf env start s.call) ∧
        (ChargedOnce lease (ledgerOf env start s.call) s ↔
          BoundOnce lease (ledgerOf env start s.call) s) ∧
        ((∀ spec ∈ reservationPlan env req rules distributed, DistinctDurations spec.trigger) →
          ChargedOnce lease (ledgerOf env start s.call) s)) := by
  have hnumbered : Numbered env.toQuotaEnv start := by
    rw [hstart]
    exact numbered_run ops (numbered_empty env.toQuotaEnv)
  have hopened : RunsInTime env lease start opened := by
    rw [hs] at inTime
    exact inTime.of_prefix (run_trace moves (lease.opened opened))
  obtain ⟨grants, granted, hinv, made⟩ :=
    leaseInv_opened unique hnumbered valid reserved hopened
  have inv : LeaseInv env lease start grants s := by
    rw [hs] at inTime ⊢
    exact leaseInv_run unique granted hinv foreign inTime
  refine ⟨⟨inStep_of_inv granted inv, live_of_inv granted inv, inv.within,
    fun undropped call answer => callContract_of_inv unique granted inv undropped,
    settledOnce_of_inv granted inv⟩, fun closed counted => ?_⟩
  have ledgerInv : LedgerInv env.toQuotaEnv (ledgerOf env start s.call) := by
    unfold ledgerOf
    rw [hstart, ← run_append]
    exact ledgerInv_of_countsExactly unique counted
  have hcharged := chargedOnce_iff granted inv ledgerInv closed
  exact ⟨ledgerInv.toConserved, hcharged,
    fun distinct => hcharged.mpr (boundOnce_of_distinct granted inv closed made distinct)⟩

instance decidableInTime (lease : QuotaLease) (ledger : Ledger) (timed : TimedOp) :
    Decidable (InTime lease ledger timed) :=
  inferInstanceAs (Decidable (∀ backend ∈ localBackends lease.backends,
    ∀ live ∈ ledger.state.leases.lookup backend.leaseId, timed.now < live.expiresAt))

instance decidableRunsInTime (env : CallEnv) (lease : QuotaLease) (start : Ledger)
    (call : QuotaCall) : Decidable (RunsInTime env lease start call) :=
  inferInstanceAs (Decidable (Along _ _ _ _))

/-! ## A lease for a shared request and local tokens -/

def globalCallsRule : RateLimitRule := { ordersRule callsTrigger with type := .global }

def retriedQuotas : List QuotaAmount := [⟨.qps, 1⟩, ⟨.token, 40⟩]

def retriedLease : QuotaLease :=
  ⟨retriedQuotas, [⟨.qps, 1⟩, ⟨.token, 0⟩], [.distributed, .localCounter ⟨"0", .token⟩]⟩

def openRetried : QuotaCall × Except PoleError QuotaLease :=
  reserveQuotas .decimal (fun _ => .ok .reserved) LocalQuotaState.empty
    (ordersRequest retriedQuotas) [globalCallsRule, ordersRule tokenTrigger]

/-- The first update is cancelled and the first finish fails; both are called again. -/
def retriedMoves : List LeaseMove :=
  [.call (.updateConsumptions [⟨.token, 20⟩]) .cancelled,
    .call (.updateConsumptions [⟨.token, 20⟩]) .ok,
    .call (.finishConsumptions [⟨.token, 30⟩]) (.err (.new .networkError "connection lost")),
    .call (.finishConsumptions [⟨.token, 30⟩]) .ok]

def finishRetried : LeaseSystem :=
  run (leaseStep .decimal retriedLease) (retriedLease.opened openRetried.1) retriedMoves

/-- The local counter hears of the calls that the limiter confirmed. -/
theorem finishRetried_trace : finishRetried.call.trace =
    [⟨0, reserveOp (ordersRequest retriedQuotas) ⟨ordersRule tokenTrigger, tokenTrigger, 40⟩⟩,
      ⟨1, .update "0" 20 1⟩, ⟨2, .finish "0" 30 2⟩] := rfl

theorem finishRetried_within : ∀ timed ∈ finishRetried.call.trace, ∀ ledger : Ledger,
    AsksPositive timed ∧ ¬ Overcharges .decimal ledger.state timed := by
  rw [finishRetried_trace]
  simp only [List.forall_mem_cons, List.not_mem_nil, false_implies, implies_true, and_true]
  refine ⟨fun ledger => ⟨?_, ?_⟩, fun ledger => ⟨trivial, id⟩, fun ledger => ⟨trivial, id⟩⟩
  · simp [AsksPositive, reserveOp]
  · exact not_overcharges_of_distinct (by decide) (by decide) fun limit h => by cases h

theorem retried_plan : reservationPlan .decimal (ordersRequest retriedQuotas)
    [globalCallsRule, ordersRule tokenTrigger] (fun _ => .ok .reserved) =
      [⟨ordersRule tokenTrigger, tokenTrigger, 40⟩] := by
  decide +kernel

/-- Of 40 tokens 30 are used, and they are charged once. -/
theorem retried_charged_once :
    LeaseContract .decimal retriedLease Ledger.empty finishRetried ∧
      finishRetried.state = ⟨[⟨.qps, 1⟩, ⟨.token, 30⟩], 2, true⟩ ∧
      ChargedOnce retriedLease (ledgerOf .decimal Ledger.empty finishRetried.call)
        finishRetried := by
  have hcontract := lease_contract .decimal (fun _ _ h => Text.toString_nat_inj h) [] Ledger.empty
    rfl (fun _ => .ok .reserved) (ordersRequest retriedQuotas) (by decide +kernel)
    [globalCallsRule, ordersRule tokenTrigger] openRetried.1 retriedLease
    (Prod.ext rfl (by decide +kernel)) retriedMoves (by simp [retriedMoves, LeaseMove.Foreign])
    finishRetried rfl (by decide +kernel)
  have hcounts : CountsExactly .decimal ([] ++ finishRetried.call.trace) :=
    .inr ⟨rfl, along_of_forall finishRetried_within⟩
  refine ⟨hcontract.1, by decide +kernel, ?_⟩
  refine (hcontract.2 (.inl (by decide +kernel)) hcounts).2.2 fun spec hspec => ?_
  rw [retried_plan] at hspec
  rw [List.mem_singleton.mp hspec]
  exact .inr (by decide)

/-! ## A lease for tokens under two amounts -/

def ordersLease : QuotaLease :=
  ⟨[⟨.token, 40⟩], [⟨.token, 0⟩], [.localCounter ⟨"0", .token⟩]⟩

def openOrders (trigger : LimitTrigger) : QuotaCall × Except PoleError QuotaLease :=
  reserveQuotas .decimal (fun _ => .ok .reserved) LocalQuotaState.empty
    (ordersRequest [⟨.token, 40⟩]) [ordersRule trigger]

def finishOrders (trigger : LimitTrigger) : LeaseSystem :=
  run (leaseStep .decimal ordersLease) (ordersLease.opened (openOrders trigger).1)
    [.call (.update 20) .ok, .call (.finish 30) .ok]

/-- Two amounts of one duration charge the 30 tokens twice. -/
theorem shared_window_charged_twice :
    (openOrders doubledTrigger).2 = .ok ordersLease ∧
      RunsInTime .decimal ordersLease Ledger.empty (finishOrders doubledTrigger).call ∧
      (finishOrders doubledTrigger).state.finished = true ∧
      ¬ ChargedOnce ordersLease
        (ledgerOf .decimal Ledger.empty (finishOrders doubledTrigger).call)
        (finishOrders doubledTrigger) := by
  refine ⟨by decide +kernel, by decide +kernel, by decide +kernel, fun hcharged => ?_⟩
  have hcommitted := hcharged ⟨"0", .token⟩ (by decide) 30 (by decide +kernel)
    ⟨.consumable, 40, 30, 1, 30 * nanosPerSecond, [⟨"prod#orders#Pay#orders#pay#1", 0⟩,
      ⟨"prod#orders#Pay#orders#pay#1", 0⟩], none⟩ "prod#orders#Pay#orders#pay#1" ⟨0, 0, 60, 0⟩
    ⟨by decide +kernel, by decide +kernel, by decide +kernel⟩
  revert hcommitted
  decide +kernel

end PoleClient.RateLimit
