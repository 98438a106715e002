import PoleClient.RateLimit.Atomicity
import PoleClient.RateLimit.LeaseRun

/-! # The reservation of a lease

A reservation that succeeds leaves the lease with the local leases it has made,
each live as it was made and in step with the initial consumptions. Identifiers
that have not been drawn are in nobody's use, so the leases are new.
-/

namespace PoleClient.RateLimit

open Lib

/-! ## Identifiers -/

structure Unused (ledger : Ledger) (leaseId : String) : Prop where
  gone : ledger.state.leases.lookup leaseId = none
  unsettled : ledger.settledAs leaseId = []
  uncompleted : ledger.state.completed leaseId = none

/-- All identifiers in use have been drawn. -/
def Numbered (env : QuotaEnv) (ledger : Ledger) : Prop :=
  ∀ leaseId, ¬ Drawn env ledger.state leaseId → Unused ledger leaseId

section Identifiers

variable {arith : CounterArith} {env : QuotaEnv} {ledger : Ledger} {leaseId : String} {now : Nat}

theorem Unused.cleaned (unused : Unused ledger leaseId) :
    Unused (ledger.cleaned arith now) leaseId := by
  have hearly : ∀ live, ledger.state.leases.lookup leaseId = some live →
      now < live.expiresAt := by
    intro live hlive
    rw [unused.gone] at hlive
    cases hlive
  constructor
  · exact (lookup_cleanup hearly).trans unused.gone
  · exact (settledAs_cleaned hearly).trans unused.unsettled
  · exact completed_cleaned unused.uncompleted

theorem Unused.kept {clean after : Ledger} (unused : Unused clean leaseId)
    (alone : LeavesAlone leaseId clean after) : Unused after leaseId where
  gone := alone.lookup.trans unused.gone
  unsettled := alone.settled.trans unused.unsettled
  uncompleted := alone.completed unused.uncompleted

theorem leavesAlone_update_unused (unused : Unused ledger leaseId)
    (consumedTotal sequence : Nat) :
    LeavesAlone leaseId (ledger.cleaned arith now)
      (ledger.step arith env ⟨now, .update leaseId consumedTotal sequence⟩) := by
  have heffect := updateLease_effect arith now ledger.state leaseId consumedTotal sequence
  have hgone : (cleanupExpiredLocalLeases arith now ledger.state).leases.lookup leaseId = none :=
    unused.cleaned.gone
  constructor
  · exact congrArg (fun leases => leases.lookup leaseId) (heffect.missing hgone)
  · rfl
  · exact fun hnone => (congrFun heffect.completed leaseId).trans hnone

theorem leavesAlone_finish_unused (unused : Unused ledger leaseId)
    (consumedTotal sequence : Nat) :
    LeavesAlone leaseId (ledger.cleaned arith now)
      (ledger.step arith env ⟨now, .finish leaseId consumedTotal sequence⟩) := by
  have hclean : Unused (ledger.cleaned arith now) leaseId := unused.cleaned
  have htarget : finishTarget (cleanupExpiredLocalLeases arith now ledger.state) leaseId
      consumedTotal sequence = .error leaseSettledError := by
    have hgone : (cleanupExpiredLocalLeases arith now ledger.state).leases.lookup leaseId = none :=
      hclean.gone
    have hcompleted : (cleanupExpiredLocalLeases arith now ledger.state).completed leaseId =
        none := hclean.uncompleted
    unfold finishTarget
    rw [hcompleted, hgone]
    rfl
  have hstate : (finishLease arith now ledger.state leaseId consumedTotal sequence).1 =
      cleanupExpiredLocalLeases arith now ledger.state := by
    unfold finishLease
    simp only [htarget]
  have hfinished : finishedBy arith ledger.state ⟨now, .finish leaseId consumedTotal sequence⟩ =
      [] := by
    unfold finishedBy
    simp only [htarget]
  constructor
  · exact congrArg (fun state => state.leases.lookup leaseId) hstate
  · show Ledger.settledAs ⟨_, _, _ ++ (ledger.cleaned arith now).settled⟩ leaseId = _
    rw [hfinished]
    rfl
  · exact fun hnone => (congrArg (fun state => state.completed leaseId) hstate).trans hnone

theorem issued_reserve (req : QuotaRequest) (rule : RateLimitRule) (trigger : LimitTrigger)
    (amount : Nat) :
    (ledger.step arith env ⟨now, .reserve req rule trigger amount⟩).state.issued =
      ledger.state.issued + 1 := by
  have heffect := reserve_effect arith env now ledger.state req rule trigger amount
  have hissued := heffect.issued
  rwa [cleanup_issued] at hissued

theorem numbered_step (numbered : Numbered env ledger) (timed : TimedOp) :
    Numbered env (ledger.step arith env timed) := by
  obtain ⟨now, op⟩ := timed
  intro leaseId hnot
  have hunused := numbered leaseId fun hdrawn => hnot (drawn_step hdrawn op)
  have hclean : Unused (ledger.cleaned arith now) leaseId := hunused.cleaned
  apply hclean.kept
  cases op with
  | reserve req rule trigger amount =>
      refine leavesAlone_reserve (fun heq => hnot ⟨ledger.state.issued, ?_, heq⟩) ..
      rw [issued_reserve]
      exact Nat.lt_succ_self _
  | update named consumedTotal sequence =>
      by_cases hnamed : named = leaseId
      · rw [hnamed]
        exact leavesAlone_update_unused hunused consumedTotal sequence
      · exact leavesAlone_update hnamed consumedTotal sequence
  | finish named consumedTotal sequence =>
      by_cases hnamed : named = leaseId
      · rw [hnamed]
        exact leavesAlone_finish_unused hunused consumedTotal sequence
      · exact leavesAlone_finish hnamed consumedTotal sequence

theorem numbered_empty (env : QuotaEnv) : Numbered env Ledger.empty :=
  fun _ _ => ⟨rfl, rfl, rfl⟩

theorem numbered_run (ops : List TimedOp) (numbered : Numbered env ledger) :
    Numbered env (run (Ledger.step arith env) ledger ops) :=
  run_preserves (Numbered env) (fun _ timed h => numbered_step h timed) ops numbered

theorem unused_issued (unique : Function.Injective env.uuid) (numbered : Numbered env ledger) :
    Unused ledger (env.uuid ledger.state.issued) :=
  numbered _ fun hdrawn => hdrawn.ne unique rfl

end Identifiers

/-! ## One reservation -/

/-- No two positive amounts of a consumable trigger count in windows of the same length. -/
def DistinctDurations (trigger : LimitTrigger) : Prop :=
  trigger.resource = .concurrency ∨ ((positiveAmounts trigger).map amountDuration).Nodup

section Reservation

variable {arith : CounterArith} {env : QuotaEnv} {ledger : Ledger} {now : Nat}
variable {req : QuotaRequest} {rule : RateLimitRule} {trigger : LimitTrigger} {amount : Nat}

theorem windows_reserveConsumable {state : LocalQuotaState} {expiresAt : Nat}
    {backend granted : LocalLeaseBackend}
    (distinct : ((positiveAmounts trigger).map amountDuration).Nodup)
    (h : (reserveConsumable arith env now state req rule trigger amount expiresAt backend).2 =
      .reserved granted) {lease : LocalLeaseState}
    (hlease : (reserveConsumable arith env now state req rule trigger amount expiresAt
      backend).1.leases.lookup granted.leaseId = some lease) :
    lease.windows.Nodup := by
  have hinj : Function.Injective (quotaCounterKey env.sha256Hex req rule trigger) :=
    fun _ _ h => quotaCounterKey_inj.mp h
  unfold reserveConsumable at h hlease
  split at h
  · cases h
  · rename_i hsome
    rw [if_neg hsome] at hlease
    rcases checkWindows_spec now hinj arith amount state.windows (positiveAmounts trigger) with
      ⟨-, hcheck⟩ | ⟨-, visited, -, hcheck⟩
    · rw [hcheck] at h hlease
      obtain rfl : backend = granted := by simpa using h
      simp only [AList.lookup_insert_ite, if_true, Option.some.injEq] at hlease
      rw [← hlease]
      -- reservations on one window would be of one duration
      apply List.Nodup.of_map LocalWindowReservation.key
      rw [List.map_map]
      have hkeys : (LocalWindowReservation.key ∘ reservationFor now
          (quotaCounterKey env.sha256Hex req rule trigger) state.windows) =
          quotaCounterKey env.sha256Hex req rule trigger ∘ amountDuration := rfl
      rw [hkeys, ← List.map_map]
      exact (List.nodup_map_iff hinj).mpr distinct
    · rw [hcheck] at h
      cases h

theorem windows_reserve {granted : LocalLeaseBackend} (distinct : DistinctDurations trigger)
    {state : LocalQuotaState}
    (h : (reserve arith env now state req rule trigger amount).2 = .ok (.reserved granted))
    {lease : LocalLeaseState}
    (hlease : (reserve arith env now state req rule trigger amount).1.leases.lookup
      granted.leaseId = some lease) :
    lease.windows.Nodup := by
  unfold reserve at h hlease
  simp only at h hlease
  split at h
  · cases h
  · rename_i hrepresentable
    rw [if_neg hrepresentable] at hlease
    cases hresource : trigger.resource with
    | qps =>
        have hdistinct := distinct.resolve_left (by rw [hresource]; decide)
        simp only [hresource] at h hlease
        exact windows_reserveConsumable hdistinct (Except.ok.inj h) hlease
    | token =>
        have hdistinct := distinct.resolve_left (by rw [hresource]; decide)
        simp only [hresource] at h hlease
        exact windows_reserveConsumable hdistinct (Except.ok.inj h) hlease
    | concurrency =>
        simp only [hresource] at h hlease
        unfold reserveConcurrency at h hlease
        cases hlimit : trigger.concurrencyAmount with
        | none => simp [hlimit] at h
        | some limit =>
            simp only [hlimit] at h hlease
            split at h
            · cases h
            · rename_i hpositive
              rw [if_neg hpositive] at hlease
              split at h
              · cases h
              · rename_i hroom
                rw [if_neg hroom] at hlease
                cases h
                simp only [AList.lookup_insert_ite, if_true, Option.some.injEq] at hlease
                rw [← hlease]
                exact List.nodup_nil
    | other =>
        simp only [hresource] at h
        cases h

theorem heldAs_reserve (unique : Function.Injective env.uuid) (numbered : Numbered env ledger)
    {backend : LocalLeaseBackend}
    (h : (reserve arith env now ledger.state req rule trigger amount).2 =
      .ok (.reserved backend)) :
    backend.leaseId = env.uuid ledger.state.issued ∧
      quotaResource trigger.resource = some backend.resource ∧
      ∃ lease, HeldAs (ledger.step arith env ⟨now, .reserve req rule trigger amount⟩)
          backend.leaseId lease ∧ InitialLease trigger amount lease ∧
        (DistinctDurations trigger → lease.windows.Nodup) := by
  have heffect := reserve_effect arith env now ledger.state req rule trigger amount
  obtain ⟨hid, hresource, lease, hinitial, hinsert⟩ := heffect.granted backend h
  rw [cleanup_issued] at hid
  have hunused : Unused (ledger.cleaned arith now) backend.leaseId := by
    rw [hid]
    exact (unused_issued unique numbered).cleaned
  have hlookup : (reserve arith env now ledger.state req rule trigger amount).1.leases.lookup
      backend.leaseId = some lease := by
    rw [hinsert, AList.lookup_insert_ite, if_pos rfl]
  refine ⟨hid, hresource, lease, ⟨hlookup, hunused.unsettled, ?_⟩, hinitial, fun hdistinct => ?_⟩
  · exact (congrFun heffect.completed backend.leaseId).trans hunused.uncompleted
  · exact windows_reserve hdistinct h hlookup

end Reservation

/-! ## The call -/

/-- The spec asks for a quota of the request. -/
def AsksFor (req : QuotaRequest) (spec : QuotaSpec) : Prop :=
  ∃ quota ∈ req.quotas, quotaResource spec.trigger.resource = some quota.resource ∧
    spec.amount = quota.amount

/-- The grant is what the reservation of the spec made. -/
structure MadeBy (spec : QuotaSpec) (grant : Grant) : Prop where
  resource : quotaResource spec.trigger.resource = some grant.backend.resource
  initial : InitialLease spec.trigger spec.amount.toNat grant.lease
  windows : DistinctDurations spec.trigger → grant.lease.windows.Nodup

/-- What a call has reserved so far, on a ledger that started at `start`. -/
structure Opening (env : CallEnv) (plan : List QuotaSpec) (start : Ledger) (grants : List Grant)
    (call : QuotaCall) : Prop where
  follows : Follows env start grants call
  numbered : Numbered env.toQuotaEnv (ledgerOf env start call)
  distinct : (grants.map Grant.leaseId).Nodup
  held : ∀ grant ∈ grants, HeldAs (ledgerOf env start call) grant.leaseId grant.lease
  made : ∀ grant ∈ grants, ∃ spec ∈ plan, MadeBy spec grant

section Call

variable {env : CallEnv} {req : QuotaRequest} {plan : List QuotaSpec} {start : Ledger}
variable {grants : List Grant} {call : QuotaCall} {lease : QuotaLease}

theorem localsOf_append (first second : List Grant) :
    localsOf (first ++ second) = localsOf first ++ localsOf second :=
  List.map_append

/-- A backend comes from a reservation that the counter has granted: it joins the others. -/
theorem Opening.reserved (unique : Function.Injective env.uuid)
    (opening : Opening env plan start grants call) {spec : QuotaSpec} (planned : spec ∈ plan)
    (kept : Opening env plan start grants (call.perform env (reserveOp req spec)).1)
    {backend : LocalLeaseBackend} (hbackend : (call.perform env (reserveOp req spec)).2 =
      .ok (some (.reserved backend))) :
    ∃ made : Grant, made.backend = backend ∧
      Opening env plan start (grants ++ [made]) (call.perform env (reserveOp req spec)).1 := by
  rw [perform_result opening.follows (reserveOp req spec)] at hbackend
  have hreserve : (reserve env.arith env.toQuotaEnv (env.clock call.trace.length)
      (ledgerOf env start call).state req spec.rule spec.trigger spec.amount.toNat).2 =
        .ok (.reserved backend) := by
    unfold applyOp reserveOp at hbackend
    simp only at hbackend
    cases hanswer : (reserve env.arith env.toQuotaEnv (env.clock call.trace.length)
        (ledgerOf env start call).state req spec.rule spec.trigger spec.amount.toNat).2 with
    | error err =>
        rw [hanswer] at hbackend
        cases hbackend
    | ok answer =>
        rw [hanswer] at hbackend
        cases hbackend
        rfl
  obtain ⟨hid, hresource, live, hlive, hinitial, hwindows⟩ :=
    heldAs_reserve unique opening.numbered hreserve
  refine ⟨⟨backend, live⟩, rfl, ⟨kept.follows.state, ?_⟩, kept.numbered, ?_, ?_, ?_⟩
  · intro grant hgrant
    rcases List.mem_append.mp hgrant with hold | hnew
    · exact kept.follows.drawn grant hold
    · rw [List.mem_singleton.mp hnew, ledgerOf_perform]
      refine ⟨(ledgerOf env start call).state.issued, ?_, hid⟩
      unfold reserveOp
      rw [issued_reserve]
      exact Nat.lt_succ_self _
  · rw [List.map_append, List.nodup_append]
    refine ⟨opening.distinct, List.nodup_singleton _, fun id hold other hnew => ?_⟩
    obtain ⟨grant, hgrant, rfl⟩ := List.mem_map.mp hold
    rw [List.map_singleton, List.mem_singleton] at hnew
    rw [hnew]
    intro heq
    exact (opening.follows.drawn grant hgrant).ne unique (heq.trans hid)
  · intro grant hgrant
    rcases List.mem_append.mp hgrant with hold | hnew
    · exact kept.held grant hold
    · rw [List.mem_singleton.mp hnew, ledgerOf_perform]
      exact hlive
  · intro grant hgrant
    rcases List.mem_append.mp hgrant with hold | hnew
    · exact opening.made grant hold
    · rw [List.mem_singleton.mp hnew]
      exact ⟨spec, planned, hresource, hinitial, hwindows⟩

/-- One reservation of the call, in time for what it has reserved before. -/
theorem opening_reserveLocal (unique : Function.Injective env.uuid)
    (opening : Opening env plan start grants call)
    (covered : ∀ grant ∈ grants, grant.backend ∈ localBackends lease.backends)
    {spec : QuotaSpec} (planned : spec ∈ plan)
    (inTime : RunsInTime env lease start (reserveLocal env req call spec).1) :
    match reserveLocal env req call spec with
    | (_, .error _) => True
    | (after, .ok none) => Opening env plan start grants after
    | (after, .ok (some backend)) => ∃ made : Grant, made.backend = backend ∧
        Opening env plan start (grants ++ [made]) after := by
  rw [reserveLocal_perform, runsInTime_perform] at inTime
  have hkept : Opening env plan start grants (call.perform env (reserveOp req spec)).1 := by
    refine ⟨follows_perform opening.follows _, ?_, opening.distinct, ?_, opening.made⟩
    · rw [ledgerOf_perform]
      exact numbered_step opening.numbered _
    · intro grant hgrant
      have hforeign : ¬ (reserveOp req spec).Names grant.leaseId := fun h => h
      exact @phase_perform _ _ _ _ _ unique opening.follows _ hgrant (covered grant hgrant) _
        hforeign inTime.2 (.held _) (opening.held grant hgrant)
  have hgranted := fun backend =>
    @Opening.reserved _ _ _ _ _ _ unique opening _ planned hkept backend
  unfold reserveLocal
  unfold reserveOp at hgranted hkept
  rcases hrun : call.perform env (.reserve req spec.rule spec.trigger spec.amount.toNat) with
    ⟨after, result⟩
  rw [hrun] at hgranted hkept
  cases result with
  | error err => trivial
  | ok outcome =>
      cases outcome with
      | none => exact hkept
      | some answer =>
          cases answer with
          | reserved backend => exact hgranted backend rfl
          | rejected message => trivial
          | notConfigured => exact hkept

theorem reserveEach_extends {report : PoleError → PoleError} {specs : List QuotaSpec}
    {backends held : List QuotaLeaseBackend} {after : QuotaCall}
    (h : reserveEach env req report call backends specs = (after, .ok held)) :
    backends <+: held := by
  induction specs generalizing call backends with
  | nil =>
      rw [reserveEach] at h
      cases h
      exact List.prefix_rfl
  | cons spec specs ih =>
      rw [reserveEach] at h
      rcases hlocal : reserveLocal env req call spec with ⟨next, result⟩
      rw [hlocal] at h
      cases result with
      | error err => cases h
      | ok made =>
          cases made with
          | none => exact ih h
          | some backend => exact (List.prefix_append _ _).trans (ih h)

theorem opening_reserveEach (unique : Function.Injective env.uuid)
    {report : PoleError → PoleError} {specs : List QuotaSpec}
    (planned : ∀ spec ∈ specs, spec ∈ plan) {backends held : List QuotaLeaseBackend}
    {after : QuotaCall}
    (h : reserveEach env req report call backends specs = (after, .ok held))
    (opening : Opening env plan start grants call)
    (behind : localBackends backends = grants.map Grant.backend)
    (covered : ∀ backend ∈ localBackends held, backend ∈ localBackends lease.backends)
    (inTime : RunsInTime env lease start after) :
    ∃ more, held = backends ++ localsOf more ∧ Opening env plan start (grants ++ more) after := by
  induction specs generalizing call backends grants with
  | nil =>
      rw [reserveEach] at h
      cases h
      exact ⟨[], (List.append_nil _).symm, (List.append_nil grants).symm ▸ opening⟩
  | cons spec specs ih =>
      have hplanned : ∀ other ∈ specs, other ∈ plan := fun other hother =>
        planned other (List.mem_cons_of_mem spec hother)
      have hcovered : ∀ grant ∈ grants, grant.backend ∈ localBackends lease.backends := by
        intro grant hgrant
        refine covered _ (((reserveEach_extends h).sublist.filterMap _).subset ?_)
        show grant.backend ∈ localBackends backends
        rw [behind]
        exact List.mem_map_of_mem hgrant
      rw [reserveEach] at h
      have hstep : ∀ held' : List QuotaLeaseBackend,
          reserveEach env req report (reserveLocal env req call spec).1 held' specs =
            (after, .ok held) → RunsInTime env lease start (reserveLocal env req call spec).1 := by
        intro held' hrest
        have htrace := (reserveEach_trace env req report specs
          (reserveLocal env req call spec).1 held').1
        rw [hrest] at htrace
        exact inTime.of_prefix htrace
      have hlocal := @opening_reserveLocal _ req _ _ _ _ lease unique opening hcovered spec
        (planned spec List.mem_cons_self)
      rcases hcall : reserveLocal env req call spec with ⟨next, result⟩
      rw [hcall] at h hstep hlocal
      cases result with
      | error err => cases h
      | ok made =>
          cases made with
          | none => exact ih hplanned h (hlocal (hstep backends h)) behind
          | some backend =>
              obtain ⟨grant, rfl, hnext⟩ := hlocal (hstep _ h)
              have hbehind : localBackends (backends ++ [.localCounter grant.backend]) =
                  (grants ++ [grant]).map Grant.backend := by
                rw [List.map_append, ← behind]
                exact List.filterMap_append
              obtain ⟨more, hheld, hopening⟩ := ih hplanned h hnext hbehind
              refine ⟨grant :: more, ?_, ?_⟩
              · rw [hheld, List.append_assoc]
                rfl
              · rw [List.append_assoc] at hopening
                exact hopening

end Call

/-! ## Valid requests -/

theorem checkQuotas_distinct {seen : List QuotaResource} {quotas : List QuotaAmount}
    (h : checkQuotas seen quotas = .ok ()) :
    (quotas.map QuotaAmount.resource).Nodup ∧ ∀ quota ∈ quotas, quota.resource ∉ seen := by
  induction quotas generalizing seen with
  | nil => exact ⟨List.nodup_nil, fun _ h => absurd h List.not_mem_nil⟩
  | cons first quotas ih =>
      rw [checkQuotas] at h
      split at h
      · cases h
      · split at h
        · cases h
        · rename_i hfirst
          obtain ⟨hdistinct, hseen⟩ := ih h
          refine ⟨List.nodup_cons.mpr ⟨fun hmem => ?_, hdistinct⟩, fun quota hquota => ?_⟩
          · obtain ⟨quota, hquota, heq⟩ := List.mem_map.mp hmem
            exact hseen quota hquota (heq ▸ List.mem_cons_self)
          · rcases List.mem_cons.mp hquota with rfl | hrest
            · exact hfirst
            · exact fun hmem => hseen quota hrest (List.mem_cons_of_mem _ hmem)

theorem checkValid_distinct {req : QuotaRequest} (valid : req.checkValid = .ok ()) :
    (req.quotas.map QuotaAmount.resource).Nodup :=
  (checkQuotas_distinct (checkValid_quotas valid)).1

theorem amountOf_of_mem {quotas : List QuotaAmount}
    (distinct : (quotas.map QuotaAmount.resource).Nodup) {quota : QuotaAmount}
    (h : quota ∈ quotas) : amountOf quotas quota.resource = some quota.amount := by
  induction quotas with
  | nil => cases h
  | cons first quotas ih =>
      obtain ⟨hnot, hdistinct⟩ := List.nodup_cons.mp distinct
      rw [amountOf_cons]
      rcases List.mem_cons.mp h with rfl | hrest
      · rw [if_pos rfl]
      · rw [if_neg, ih hdistinct hrest]
        exact fun heq => hnot (heq ▸ List.mem_map_of_mem hrest)

theorem within_initial {quotas : List QuotaAmount} (positive : ∀ quota ∈ quotas, quota.amount ≠ 0) :
    Within quotas (initialConsumptions quotas) := by
  induction quotas with
  | nil => exact .nil
  | cons quota quotas ih =>
      refine .cons ⟨rfl, ?_⟩ (ih fun other h => positive other (List.mem_cons_of_mem _ h))
      have hamount := positive quota List.mem_cons_self
      have hpositive : quota.amount.toNat ≠ 0 := fun hzero => hamount (UInt32.toNat_inj.mp hzero)
      rw [UInt32.le_iff_toNat_le]
      simp only
      split
      · show 1 ≤ quota.amount.toNat
        omega
      · exact Nat.zero_le _

section Plan

variable {env : CallEnv} {req : QuotaRequest} {rules : List RateLimitRule}
variable {distributed : List QuotaSpec → Except PoleError DistributedReserveResult}

theorem asksFor_of_selected {quota : QuotaAmount} (hquota : quota ∈ req.quotas)
    {entry : QuotaTriggerEntry} (hentry : selected env req rules quota.resource = some entry) :
    AsksFor req ⟨entry.rule, entry.trigger, quota.amount⟩ := by
  unfold selected at hentry
  split at hentry
  · cases hentry
  · have hfound : quotaResource entry.trigger.resource = some quota.resource := by
      simpa using List.find?_some hentry
    exact ⟨quota, hquota, hfound, rfl⟩

theorem asksFor_plan {spec : QuotaSpec} (h : spec ∈ reservationPlan env req rules distributed) :
    AsksFor req spec := by
  rcases List.mem_append.mp h with hfailover | hlocal
  · have hspec : spec ∈ distributedSpecs env req rules := by
      unfold failoverPlan at hfailover
      split at hfailover
      · cases hfailover
      · split at hfailover
        · exact (List.mem_filter.mp hfailover).1
        · cases hfailover
    obtain ⟨quota, hquota, entry, hentry, rfl⟩ := mem_distributedSpecs hspec
    exact asksFor_of_selected hquota hentry
  · obtain ⟨quota, hquota, entry, hentry, rfl⟩ := mem_localSpecs hlocal
    exact asksFor_of_selected hquota hentry

/-! ## The lease -/

variable {start : Ledger} {lease : QuotaLease} {call : QuotaCall} {grants : List Grant}

/-- The distributed part leaves a distributed backend, or the local ones it failed over to. -/
theorem opening_distributed (unique : Function.Injective env.uuid)
    (numbered : Numbered env.toQuotaEnv start) {backends : List QuotaLeaseBackend}
    (h : reserveDistributed env req ⟨start.state, []⟩ (distributedSpecs env req rules) distributed =
      (call, .ok backends))
    (covered : ∀ backend ∈ localBackends backends, backend ∈ localBackends lease.backends)
    (inTime : RunsInTime env lease start call) :
    ∃ grants, (backends = localsOf grants ∨ backends = .distributed :: localsOf grants) ∧
      Opening env (reservationPlan env req rules distributed) start grants call := by
  have hnone : Opening env (reservationPlan env req rules distributed) start []
      ⟨start.state, []⟩ :=
    ⟨⟨rfl, fun _ h => absurd h List.not_mem_nil⟩, numbered, List.nodup_nil,
      fun _ h => absurd h List.not_mem_nil, fun _ h => absurd h List.not_mem_nil⟩
  unfold reserveDistributed at h
  by_cases hempty : (distributedSpecs env req rules).isEmpty
  · rw [if_pos hempty] at h
    cases h
    exact ⟨[], .inl rfl, hnone⟩
  · rw [if_neg hempty] at h
    cases hanswer : distributed (distributedSpecs env req rules) with
    | ok result =>
        rw [hanswer] at h
        cases result with
        | reserved =>
            cases h
            exact ⟨[], .inr rfl, hnone⟩
        | rejected message => cases h
    | error err =>
        rw [hanswer] at h
        have hplanned : ∀ spec ∈ failoverSpecs (distributedSpecs env req rules),
            spec ∈ reservationPlan env req rules distributed := by
          intro spec hspec
          apply List.mem_append_left
          unfold failoverPlan
          rw [if_neg hempty, hanswer]
          exact hspec
        obtain ⟨grants, hbackends, hopening⟩ :=
          opening_reserveEach unique hplanned h hnone rfl covered inTime
        exact ⟨grants, .inl hbackends, hopening⟩

theorem confirmed_initial {grant : Grant} {spec : QuotaSpec}
    (asksFor : AsksFor req spec) (made : MadeBy spec grant) :
    grant.confirmed (initialConsumptions req.quotas) 0 = grant.lease := by
  obtain ⟨quota, hquota, hresource, -⟩ := asksFor
  obtain ⟨total, htotal, hnat⟩ := consumptionFor_initial hquota
  have hsame : grant.backend.resource = quota.resource :=
    Option.some.inj (made.resource.symm.trans hresource)
  have hconsumed : grant.lease.consumedTotal = total.toNat := by
    rw [made.initial.consumedTotal, initialConsumedTotal_eq made.resource, hsame, hnat]
  rw [consumptionFor_ok_iff, ← hsame] at htotal
  rw [confirmed_of_total htotal, ← hconsumed, ← made.initial.sequence]

/-- A successful reservation leaves its local leases live and in step with the lease. -/
theorem leaseInv_opened (unique : Function.Injective env.uuid)
    (numbered : Numbered env.toQuotaEnv start) (valid : req.checkValid = .ok ())
    (h : reserveQuotas env distributed start.state req rules = (call, .ok lease))
    (inTime : RunsInTime env lease start call) :
    ∃ grants, Granted lease grants ∧ LeaseInv env lease start grants (lease.opened call) ∧
      ∀ grant ∈ grants, ∃ spec ∈ reservationPlan env req rules distributed,
        MadeBy spec grant := by
  unfold reserveQuotas at h
  rcases hdistributed : reserveDistributed env req ⟨start.state, []⟩
    (distributedSpecs env req rules) distributed with ⟨middle, result⟩
  rw [hdistributed] at h
  cases result with
  | error err => cases h
  | ok first =>
      simp only at h
      rcases heach : reserveEach env req id middle first (localSpecs env req rules) with
        ⟨after, result⟩
      rw [heach] at h
      cases result with
      | error err => cases h
      | ok held =>
          cases h
          have htrace := (reserveEach_trace env req id (localSpecs env req rules) middle first).1
          rw [heach] at htrace
          have hfirst : ∀ backend ∈ localBackends first, backend ∈ localBackends held := fun _ h =>
            ((reserveEach_extends heach).sublist.filterMap _).subset h
          obtain ⟨begun, hbegun, hopening⟩ := @opening_distributed _ _ _ _ _
            ⟨req.quotas, initialConsumptions req.quotas, held⟩ _ unique numbered _ hdistributed
            hfirst (inTime.of_prefix htrace)
          have hbehind : localBackends first = begun.map Grant.backend := by
            rcases hbegun with rfl | rfl
            · exact localBackends_localsOf begun
            · exact localBackends_localsOf begun
          obtain ⟨more, rfl, hall⟩ := opening_reserveEach unique
            (fun spec hspec => List.mem_append_right _ hspec) heach hopening hbehind
            (fun _ h => h) inTime
          refine ⟨begun ++ more, ⟨?_, hall.distinct, checkValid_distinct valid, ?_⟩,
            ⟨hall.follows, within_initial (checkValid_positive valid), fun _ => Nat.zero_le _, ?_,
              ?_⟩, hall.made⟩
          · rw [localsOf_append]
            rcases hbegun with rfl | rfl
            · exact .inl rfl
            · exact .inr rfl
          · intro grant hgrant
            obtain ⟨spec, hspec, hmade⟩ := hall.made grant hgrant
            obtain ⟨quota, hquota, hresource, hamount⟩ := asksFor_plan hspec
            have hsame : quota.resource = grant.backend.resource :=
              Option.some.inj (hresource.symm.trans hmade.resource)
            refine ⟨quota.amount, ?_, ?_⟩
            · rw [← hsame]
              exact amountOf_of_mem (checkValid_distinct valid) hquota
            · rw [hmade.initial.reservedAmount, hamount]
          · intro _ _ grant hgrant
            obtain ⟨spec, hspec, hmade⟩ := hall.made grant hgrant
            show HeldAs _ _ (grant.confirmed (initialConsumptions req.quotas) 0)
            rw [confirmed_initial (asksFor_plan hspec) hmade]
            exact hall.held grant hgrant
          · intro hclosed
            rcases hclosed with hfinished | hdropped
            · cases hfinished
            · cases hdropped

end Plan

end PoleClient.RateLimit
