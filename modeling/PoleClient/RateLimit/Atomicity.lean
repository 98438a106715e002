import Mathlib.Algebra.BigOperators.Group.List.Basic
import PoleClient.RateLimit.Rollback

/-! # Atomicity of a multi-resource reservation

The totals after a failed call are those that time alone would have left, plus
the consumptions that the call settled when it gave its reservations back.
-/

namespace PoleClient.RateLimit

open Lib

/-! ## What is restored -/

/-- The committed and reserved amount that a key carries into a generation. -/
def carried (before : String → Option QuotaWindow) (key : String) (generation : Nat) :
    Nat × Nat :=
  match before key with
  | some old => if old.generation = generation then (old.committed, old.reserved) else (0, 0)
  | none => (0, 0)

/-- The totals are those of the state before; windows may have rotated, and new ones are empty. -/
structure Restored (keyed : String → Nat → Prop) (now : Nat) (before after : LocalQuotaState) :
    Prop where
  windows : ∀ key window, after.windows key = some window →
    (window.committed, window.reserved) = carried before.windows key window.generation
  aged : Aged keyed now before.windows after.windows
  concurrency : ∀ key, (after.concurrency key).getD 0 = (before.concurrency key).getD 0

def ownSettled (start ledger : Ledger) : List (String × LocalLeaseState) :=
  ledger.settled.filter fun entry => entry.1 ∉ start.ids

section Totals

variable {env : QuotaEnv} {req : QuotaRequest} {start ledger : Ledger} {now : Nat}
variable {done : List QuotaSpec} {arith : CounterArith}

/-- A conserved ledger carries its own sums into every generation not behind its windows. -/
theorem carried_eq (inv : LedgerInv env ledger) {key : String} {generation : Nat}
    (ahead : ∀ old, ledger.state.windows key = some old → old.generation ≤ generation) :
    carried ledger.state.windows key generation =
      (committedFor ledger.settled key generation,
        reservedFor ledger.state.leases key generation) := by
  have hunborn : (∀ old, ledger.state.windows key = some old → old.generation ≠ generation) →
      ∀ entry ∈ ledger.state.leases.rows ++ ledger.settled,
        bindings entry.2 key generation = 0 := by
    intro hother entry hentry
    apply Classical.byContradiction
    intro hbindings
    rcases inv.bound entry.2 ⟨entry.1, hentry⟩ key generation hbindings with ⟨old, hold, hle⟩
    have := ahead old hold
    exact hother old hold (by omega)
  have hzero : (∀ old, ledger.state.windows key = some old → old.generation ≠ generation) →
      (0, 0) = (committedFor ledger.settled key generation,
        reservedFor ledger.state.leases key generation) := by
    intro hother
    rw [committedFor_unborn fun entry h => hunborn hother entry (List.mem_append_right _ h),
      sum_bindings_unborn fun entry h => hunborn hother entry (List.mem_append_left _ h)]
  unfold carried
  cases hwindow : ledger.state.windows key with
  | none => exact hzero fun old h => by rw [hwindow] at h; cases h
  | some old =>
      simp only
      by_cases hgeneration : old.generation = generation
      · rw [if_pos hgeneration, inv.committed key old hwindow, inv.reserved key old hwindow,
          hgeneration]
      · rw [if_neg hgeneration]
        exact hzero fun other h => by
          rw [hwindow] at h
          cases h
          exact hgeneration

theorem committedFor_perm {first second : List (String × LocalLeaseState)}
    (h : first.Perm second) (key : String) (generation : Nat) :
    committedFor first key generation = committedFor second key generation :=
  (h.map _).sum_eq

theorem committedFor_append (first second : List (String × LocalLeaseState)) (key : String)
    (generation : Nat) : committedFor (first ++ second) key generation =
      committedFor first key generation + committedFor second key generation := by
  unfold committedFor
  rw [List.map_append, List.sum_append]

theorem nodup_settled (inv : LedgerInv env ledger) : ledger.settled.Nodup :=
  (List.nodup_append.mp inv.once).2.1.of_map

theorem mem_cleaned_settled {entry : String × LocalLeaseState} :
    entry ∈ (start.cleaned arith now).settled ↔ entry ∈ start.settled ∨
      (entry ∈ start.state.leases.rows ∧ entry.2.expiresAt ≤ now) := by
  unfold Ledger.cleaned
  simp only
  rw [List.mem_append, List.mem_reverse, mem_expiredLeases, or_comm]

/-- With nothing left to give back, the live leases are those that time has left. -/
theorem live_perm (inv : CallInv env req start (some now) [] done ledger) :
    ledger.state.leases.rows.Perm (start.cleaned arith now).state.leases.rows := by
  rw [List.perm_ext_iff_of_nodup (AList.nodup_rows _) (AList.nodup_rows _)]
  intro entry
  show _ ↔ entry ∈ (cleanupExpiredLocalLeases arith now start.state).leases.rows
  rw [mem_cleanup]
  by_cases hstart : entry.1 ∈ start.ids
  · rw [inv.live entry hstart, past_some, Nat.not_le]
  · constructor
    · intro hentry
      rcases inv.ownLive entry hentry hstart with ⟨_, _, _, hnone, _⟩
      exact absurd hnone List.not_mem_nil
    · exact fun hentry => absurd (mem_ids_of_live hentry.1) hstart

/-- The settled leases are those that time has settled and the call's own. -/
theorem settled_perm (inv : CallInv env req start (some now) [] done ledger)
    (ledgerInv : LedgerInv env ledger) (cleanInv : LedgerInv env (start.cleaned arith now)) :
    ledger.settled.Perm (ownSettled start ledger ++ (start.cleaned arith now).settled) := by
  have hold : (ledger.settled.filter fun entry => ¬ entry.1 ∉ start.ids).Perm
      (start.cleaned arith now).settled := by
    rw [List.perm_ext_iff_of_nodup ((nodup_settled ledgerInv).filter _) (nodup_settled cleanInv)]
    intro entry
    rw [mem_cleaned_settled, List.mem_filter, decide_eq_true_iff, not_not]
    constructor
    · intro h
      have hsettled := (inv.settled entry h.2).mp h.1
      rwa [past_some] at hsettled
    · intro h
      have hstart : entry.1 ∈ start.ids :=
        h.elim mem_ids_of_settled fun h => mem_ids_of_live h.1
      refine ⟨(inv.settled entry hstart).mpr ?_, hstart⟩
      rwa [past_some]
  have hsplit := (List.filter_append_perm (fun entry : String × LocalLeaseState =>
    decide (entry.1 ∉ start.ids)) ledger.settled).symm
  refine hsplit.trans (List.Perm.append_left _ ?_)
  refine List.Perm.trans (List.Perm.of_eq (List.filter_congr fun entry _ => ?_)) hold
  simp

theorem call_totals (inv : CallInv env req start (some now) [] done ledger)
    (ledgerInv : LedgerInv env ledger) (cleanInv : LedgerInv env (start.cleaned arith now)) :
    (∀ key window, ledger.state.windows key = some window →
      (window.committed, window.reserved) =
        (committedFor (ownSettled start ledger) key window.generation +
          (carried (start.cleaned arith now).state.windows key window.generation).1,
          (carried (start.cleaned arith now).state.windows key window.generation).2)) ∧
    Aged (WindowKey env req) now (start.cleaned arith now).state.windows ledger.state.windows ∧
    ∀ key, (ledger.state.concurrency key).getD 0 =
      ((start.cleaned arith now).state.concurrency key).getD 0 := by
  have hlive : ∀ f : LocalLeaseState → Nat, ledger.state.leases.sum f =
      (start.cleaned arith now).state.leases.sum f := fun f =>
    ((live_perm inv).map _).sum_eq
  have haged : Aged (WindowKey env req) now (start.cleaned arith now).state.windows
      ledger.state.windows := by
    have hclean : Aged (WindowKey env req) 0 (start.cleaned arith now).state.windows
        start.state.windows := (sameWindows_cleanup arith now start.state).symm.aged
    exact hclean.trans inv.windows (Nat.zero_le _)
  refine ⟨fun key window hwindow => ?_, haged, fun key => ?_⟩
  · have hahead : ∀ old, (start.cleaned arith now).state.windows key = some old →
        old.generation ≤ window.generation := by
      intro old hold
      rcases haged key old hold with ⟨later, hlater, hcases⟩
      cases hlater.symm.trans hwindow
      omega
    rw [carried_eq cleanInv hahead, ledgerInv.committed key window hwindow,
      ledgerInv.reserved key window hwindow,
      committedFor_perm (settled_perm inv ledgerInv cleanInv), committedFor_append]
    exact Prod.ext rfl (hlive fun lease =>
      bindings lease key window.generation * lease.reservedAmount)
  · rw [ledgerInv.occupancy key, cleanInv.occupancy key]
    exact hlive _

/-- A failed call restores the totals exactly if nothing it settled counts in a present
generation. -/
theorem restored_iff (inv : CallInv env req start (some now) [] done ledger)
    (ledgerInv : LedgerInv env ledger) (cleanInv : LedgerInv env (start.cleaned arith now)) :
    Restored (WindowKey env req) now (start.cleaned arith now).state ledger.state ↔
      ∀ key window, ledger.state.windows key = some window →
        committedFor (ownSettled start ledger) key window.generation = 0 := by
  rcases call_totals inv ledgerInv cleanInv with ⟨htotals, haged, hconcurrency⟩
  constructor
  · intro h key window hwindow
    have hcarried := (htotals key window hwindow).symm.trans (h.windows key window hwindow)
    have hcommitted := congrArg Prod.fst hcarried
    simp only at hcommitted
    omega
  · intro h
    refine ⟨fun key window hwindow => ?_, haged, hconcurrency⟩
    rw [htotals key window hwindow, h key window hwindow, Nat.zero_add]

/-- Nothing is settled for good without a request quota among the reserved ones. -/
theorem ownSettled_zero (inv : CallInv env req start (some now) [] done ledger)
    (free : ∀ spec ∈ done, spec.trigger.resource = .qps → positiveAmounts spec.trigger = [])
    (key : String) (generation : Nat) :
    committedFor (ownSettled start ledger) key generation = 0 := by
  have hzero : ∀ entry ∈ ownSettled start ledger, entry.2.consumedTotal = 0 := by
    intro entry hentry
    rcases List.mem_filter.mp hentry with ⟨hsettled, hown⟩
    rcases inv.ownSettled entry hsettled (of_decide_eq_true hown) with
      ⟨spec, hspec, hconfigured, hconsumed⟩
    rw [hconsumed]
    unfold initialConsumedTotal
    split
    · rename_i hqps
      exact absurd (free spec hspec hqps) (hconfigured hqps)
    · rfl
  have hterms : (ownSettled start ledger).map (fun entry => bindings entry.2 key generation *
      entry.2.consumedTotal) = (ownSettled start ledger).map fun _ => 0 :=
    List.map_congr_left fun entry hentry => by rw [hzero entry hentry, Nat.mul_zero]
  unfold committedFor
  rw [hterms]
  simp

end Totals

/-! ## The specs of a request -/

/-- What is reserved locally because the distributed quota failed. -/
def failoverPlan (env : CallEnv) (req : QuotaRequest) (rules : List RateLimitRule)
    (distributed : List QuotaSpec → Except PoleError DistributedReserveResult) :
    List QuotaSpec :=
  if (distributedSpecs env req rules).isEmpty then []
  else
    match distributed (distributedSpecs env req rules) with
    | .error _ => failoverSpecs (distributedSpecs env req rules)
    | .ok _ => []

/-- All that a call reserves on the local counter, in its order, unless it fails before. -/
def reservationPlan (env : CallEnv) (req : QuotaRequest) (rules : List RateLimitRule)
    (distributed : List QuotaSpec → Except PoleError DistributedReserveResult) :
    List QuotaSpec :=
  failoverPlan env req rules distributed ++ localSpecs env req rules

theorem checkQuotas_positive {seen : List QuotaResource} {quotas : List QuotaAmount}
    (h : checkQuotas seen quotas = .ok ()) : ∀ quota ∈ quotas, quota.amount ≠ 0 := by
  induction quotas generalizing seen with
  | nil => simp
  | cons first quotas ih =>
      rw [checkQuotas] at h
      split at h
      · cases h
      · rename_i hamount
        split at h
        · cases h
        · intro quota hquota
          rcases List.mem_cons.mp hquota with rfl | hquota
          · exact hamount
          · exact ih h quota hquota

theorem checkValid_quotas {req : QuotaRequest} (valid : req.checkValid = .ok ()) :
    checkQuotas [] req.quotas = .ok () := by
  unfold QuotaRequest.checkValid at valid
  split at valid
  · cases valid
  · split at valid
    · cases valid
    · split at valid
      · cases valid
      · split at valid
        · cases valid
        · assumption

theorem checkValid_positive {req : QuotaRequest} (valid : req.checkValid = .ok ()) :
    ∀ quota ∈ req.quotas, quota.amount ≠ 0 :=
  checkQuotas_positive (checkValid_quotas valid)

theorem consumptionFor_initial {quotas : List QuotaAmount} {quota : QuotaAmount}
    (h : quota ∈ quotas) :
    ∃ total, consumptionFor (initialConsumptions quotas) quota.resource = .ok total ∧
      total.toNat = if quota.resource = .qps then 1 else 0 := by
  unfold consumptionFor
  cases hfind : (initialConsumptions quotas).find? fun consumption =>
      consumption.resource = quota.resource with
  | none =>
      have hnone := List.find?_eq_none.mp hfind _ (List.mem_map.mpr ⟨quota, h, rfl⟩)
      exact absurd (decide_eq_true rfl) hnone
  | some consumption =>
      have hresource : consumption.resource = quota.resource := by
        simpa using List.find?_some hfind
      rcases List.mem_map.mp (List.mem_of_find?_eq_some hfind) with ⟨other, -, rfl⟩
      refine ⟨_, rfl, ?_⟩
      simp only at hresource ⊢
      rw [hresource]
      split <;> rfl

section Plan

variable {env : CallEnv} {req : QuotaRequest} {rules : List RateLimitRule}
variable {distributed : List QuotaSpec → Except PoleError DistributedReserveResult}

theorem specOk_of_selected (valid : req.checkValid = .ok ()) {quota : QuotaAmount}
    (hquota : quota ∈ req.quotas) {entry : QuotaTriggerEntry}
    (hentry : selected env req rules quota.resource = some entry) :
    SpecOk req ⟨entry.rule, entry.trigger, quota.amount⟩ := by
  constructor
  · have hamount := checkValid_positive valid quota hquota
    apply Nat.pos_of_ne_zero
    intro hzero
    exact hamount (UInt32.toNat_inj.mp hzero)
  · intro resource hresource
    unfold selected at hentry
    split at hentry
    · cases hentry
    · have hfound : quotaResource entry.trigger.resource = some quota.resource := by
        simpa using List.find?_some hentry
      cases hfound.symm.trans hresource
      exact consumptionFor_initial hquota

theorem mem_distributedSpecs {spec : QuotaSpec} (h : spec ∈ distributedSpecs env req rules) :
    ∃ quota ∈ req.quotas, ∃ entry, selected env req rules quota.resource = some entry ∧
      spec = ⟨entry.rule, entry.trigger, quota.amount⟩ := by
  rcases List.mem_filterMap.mp h with ⟨quota, hquota, hspec⟩
  rcases Option.bind_eq_some_iff.mp hspec with ⟨entry, hentry, hcase⟩
  split at hcase
  · cases hcase
    exact ⟨quota, hquota, entry, hentry, rfl⟩
  · cases hcase

theorem mem_localSpecs {spec : QuotaSpec} (h : spec ∈ localSpecs env req rules) :
    ∃ quota ∈ req.quotas, ∃ entry, selected env req rules quota.resource = some entry ∧
      spec = ⟨entry.rule, entry.trigger, quota.amount⟩ := by
  rcases List.mem_filterMap.mp h with ⟨quota, hquota, hspec⟩
  rcases Option.bind_eq_some_iff.mp hspec with ⟨entry, hentry, hcase⟩
  split at hcase
  · cases hcase
  · split at hcase
    · cases hcase
      exact ⟨quota, hquota, entry, hentry, rfl⟩
    · cases hcase

theorem specOk_failover (valid : req.checkValid = .ok ()) :
    ∀ spec ∈ failoverSpecs (distributedSpecs env req rules), SpecOk req spec := by
  intro spec h
  rcases mem_distributedSpecs (List.mem_filter.mp h).1 with ⟨quota, hquota, entry, hentry, rfl⟩
  exact specOk_of_selected valid hquota hentry

theorem specOk_local (valid : req.checkValid = .ok ()) :
    ∀ spec ∈ localSpecs env req rules, SpecOk req spec := by
  intro spec h
  rcases mem_localSpecs h with ⟨quota, hquota, entry, hentry, rfl⟩
  exact specOk_of_selected valid hquota hentry

/-! ## Failed calls -/

variable {start : Ledger}

theorem reserveQuotas_ops (state : LocalQuotaState) :
    ∀ op ∈ (reserveQuotas env distributed state req rules).1.ops,
      (∃ spec ∈ reservationPlan env req rules distributed, op = reserveOp req spec) ∨
        op.isFinish := by
  have hlocal : ∀ (call : QuotaCall) backends,
      (∀ op ∈ call.ops, (∃ spec ∈ reservationPlan env req rules distributed,
        op = reserveOp req spec) ∨ op.isFinish) →
      ∀ op ∈ (reserveEach env req id call backends (localSpecs env req rules)).1.ops,
        (∃ spec ∈ reservationPlan env req rules distributed, op = reserveOp req spec) ∨
          op.isFinish := by
    intro call backends hcall op hop
    rcases (reserveEach_trace env req id (localSpecs env req rules) call backends).2 op hop with
      hold | ⟨spec, hspec, heq⟩ | hfinish
    · exact hcall op hold
    · exact .inl ⟨spec, List.mem_append_right _ hspec, heq⟩
    · exact .inr hfinish
  have hfirst : ∀ op ∈ (reserveDistributed env req ⟨state, []⟩ (distributedSpecs env req rules)
      distributed).1.ops, (∃ spec ∈ reservationPlan env req rules distributed,
        op = reserveOp req spec) ∨ op.isFinish := by
    unfold reserveDistributed reservationPlan failoverPlan
    split
    · intro op hop
      cases hop
    · cases hanswer : distributed (distributedSpecs env req rules) with
      | ok answer =>
          intro op hop
          cases answer <;> cases hop
      | error err =>
          intro op hop
          rcases (reserveEach_trace env req _ _ _ _).2 op hop with
            hold | ⟨spec, hspec, heq⟩ | hfinish
          · cases hold
          · exact .inl ⟨spec, List.mem_append_left _ hspec, heq⟩
          · exact .inr hfinish
  unfold reserveQuotas
  rcases hreserve : reserveDistributed env req ⟨state, []⟩ (distributedSpecs env req rules)
    distributed with ⟨call, result⟩
  rw [hreserve] at hfirst
  cases result with
  | error err => exact hfirst
  | ok backends =>
      have hrest := hlocal call backends hfirst
      simp only
      rcases heach : reserveEach env req id call backends (localSpecs env req rules) with
        ⟨last, outcome⟩
      rw [heach] at hrest
      cases outcome <;> exact hrest

theorem reserveQuotas_failed_local (unique : Function.Injective env.uuid)
    (mono : Monotone env.clock) (startInv : LedgerInv env.toQuotaEnv start)
    (valid : req.checkValid = .ok ()) {call before : QuotaCall} {err : PoleError}
    {backends : List QuotaLeaseBackend} {done : List QuotaSpec}
    (h : reserveQuotas env distributed start.state req rules = (call, .error err))
    (sound : Sound env start call)
    (hdistributed : reserveDistributed env req ⟨start.state, []⟩ (distributedSpecs env req rules)
      distributed = (before, .ok backends))
    (hstate : CallState env req start backends done before)
    (hops : before.ops = done.map (reserveOp req))
    (hplan : failoverPlan env req rules distributed = done) :
    ∃ reserved rejecting rest undone,
      reservationPlan env req rules distributed = reserved ++ rejecting :: rest ∧
      CallState env req start [] reserved call ∧
      call.ops = (reserved ++ [rejecting]).map (reserveOp req) ++ undone ∧
      ∀ op ∈ undone, op.isFinish := by
  unfold reserveQuotas at h
  simp only [hdistributed] at h
  rcases heach : reserveEach env req id before backends (localSpecs env req rules) with
    ⟨last, outcome⟩
  simp only [heach] at h
  cases outcome with
  | ok held => cases h
  | error failure =>
      cases h
      have hlast : (reserveEach env req id before backends
          (localSpecs env req rules)).1.trace <+: call.trace := by
        simp only [heach, List.prefix_refl]
      have hresult := reserveEach_state unique mono startInv id (specOk_local valid) sound
        hlast hstate
      rw [heach] at hresult
      rcases hresult with
        ⟨reserved, rejecting, rest, undone, hspecs, hlast, hlastOps, hfinish⟩
      refine ⟨done ++ reserved, rejecting, rest, undone, ?_, hlast, ?_, hfinish⟩
      · unfold reservationPlan
        rw [hplan, hspecs, List.append_assoc]
      · rw [hlastOps, hops]
        simp

theorem trace_reserveDistributed {state : LocalQuotaState} {call before : QuotaCall}
    {result : Except PoleError QuotaLease} {outcome : Except PoleError (List QuotaLeaseBackend)}
    (h : reserveQuotas env distributed state req rules = (call, result))
    (hdistributed : reserveDistributed env req ⟨state, []⟩ (distributedSpecs env req rules)
      distributed = (before, outcome)) : before.trace <+: call.trace := by
  unfold reserveQuotas at h
  simp only [hdistributed] at h
  cases outcome with
  | error error =>
      cases h
      exact List.prefix_rfl
  | ok held =>
      have hrest := (reserveEach_trace env req id (localSpecs env req rules) before held).1
      rcases hlast : reserveEach env req id before held (localSpecs env req rules) with
        ⟨last, each⟩
      rw [hlast] at hrest
      simp only [hlast] at h
      cases each with
      | error error =>
          cases h
          exact hrest
      | ok backends =>
          cases h
          exact hrest

/-- A call that fails has made no local reservation, or has given back all it made before the
one that was rejected. -/
theorem reserveQuotas_failed (unique : Function.Injective env.uuid) (mono : Monotone env.clock)
    (startInv : LedgerInv env.toQuotaEnv start) (completed : CompletedSettled start)
    (valid : req.checkValid = .ok ()) {call : QuotaCall} {err : PoleError}
    (h : reserveQuotas env distributed start.state req rules = (call, .error err))
    (sound : Sound env start call) :
    call = ⟨start.state, []⟩ ∨
      ∃ reserved rejecting rest undone,
        reservationPlan env req rules distributed = reserved ++ rejecting :: rest ∧
        CallState env req start [] reserved call ∧
        call.ops = (reserved ++ [rejecting]).map (reserveOp req) ++ undone ∧
        ∀ op ∈ undone, op.isFinish := by
  have hstart : ∀ backends, localBackends backends = [] →
      CallState env req start backends [] ⟨start.state, []⟩ := by
    intro backends hbackends
    refine ⟨rfl, ?_⟩
    rw [hbackends]
    exact callInv_start completed
  by_cases hempty : (distributedSpecs env req rules).isEmpty = true
  · have hdistributed : reserveDistributed env req ⟨start.state, []⟩
        (distributedSpecs env req rules) distributed = (⟨start.state, []⟩, .ok []) := by
      unfold reserveDistributed
      rw [if_pos hempty]
    have hplan : failoverPlan env req rules distributed = [] := by
      unfold failoverPlan
      rw [if_pos hempty]
    exact .inr (reserveQuotas_failed_local unique mono startInv valid h sound hdistributed
      (hstart [] rfl) rfl hplan)
  · cases hanswer : distributed (distributedSpecs env req rules) with
    | ok answer =>
        cases answer with
        | rejected message =>
            unfold reserveQuotas reserveDistributed at h
            simp only [if_neg hempty, hanswer] at h
            cases h
            exact .inl rfl
        | reserved =>
            have hdistributed : reserveDistributed env req ⟨start.state, []⟩
                (distributedSpecs env req rules) distributed =
                (⟨start.state, []⟩, .ok [.distributed]) := by
              unfold reserveDistributed
              rw [if_neg hempty, hanswer]
            have hplan : failoverPlan env req rules distributed = [] := by
              unfold failoverPlan
              rw [if_neg hempty, hanswer]
            exact .inr (reserveQuotas_failed_local unique mono startInv valid h sound hdistributed
              (hstart _ rfl) rfl hplan)
    | error failure =>
        have hdistributed : reserveDistributed env req ⟨start.state, []⟩
            (distributedSpecs env req rules) distributed =
            reserveEach env req (fun _ => failure) ⟨start.state, []⟩ []
              (failoverSpecs (distributedSpecs env req rules)) := by
          unfold reserveDistributed
          rw [if_neg hempty, hanswer]
        have hplan : failoverPlan env req rules distributed =
            failoverSpecs (distributedSpecs env req rules) := by
          unfold failoverPlan
          rw [if_neg hempty, hanswer]
        rcases heach : reserveEach env req (fun _ => failure) ⟨start.state, []⟩ []
          (failoverSpecs (distributedSpecs env req rules)) with ⟨before, outcome⟩
        have hfirst : before.trace <+: call.trace :=
          trace_reserveDistributed h (hdistributed.trans heach)
        have hresult := reserveEach_state unique mono startInv (fun _ => failure)
          (specOk_failover valid) sound (by rw [heach]; exact hfirst) (hstart [] rfl)
        rw [heach] at hresult hdistributed
        cases outcome with
        | ok held =>
            rcases hresult with ⟨hstate, hops⟩
            exact .inr (reserveQuotas_failed_local unique mono startInv valid h sound hdistributed
              hstate hops hplan)
        | error error =>
            unfold reserveQuotas at h
            simp only [hdistributed] at h
            cases h
            rcases hresult with
              ⟨reserved, rejecting, rest, undone, hspecs, hlast, hlastOps, hfinish⟩
            refine .inr ⟨reserved, rejecting, rest ++ localSpecs env req rules, undone, ?_,
              hlast, hlastOps, hfinish⟩
            unfold reservationPlan
            rw [hplan, hspecs]
            simp

end Plan

/-! ## Runs and calls in words -/

theorem completedSettled_step (arith : CounterArith) (env : QuotaEnv) {ledger : Ledger}
    (inv : CompletedSettled ledger) (timed : TimedOp) :
    CompletedSettled (ledger.step arith env timed) := by
  rcases timed with ⟨now, op⟩
  -- what was completed before the operation stays settled
  have hold : ∀ leaseId,
      (cleanupExpiredLocalLeases arith now ledger.state).completed leaseId ≠ none →
      leaseId ∈ (ledger.step arith env ⟨now, op⟩).settled.map Prod.fst := by
    intro leaseId h
    rcases List.mem_map.mp (inv leaseId (cleanup_completed h)) with ⟨entry, hentry, hid⟩
    refine List.mem_map.mpr ⟨entry, ?_, hid⟩
    exact List.mem_append_right _ (List.mem_append_right _ hentry)
  intro leaseId h
  cases op with
  | reserve req rule trigger amount =>
      have heffect := reserve_effect arith env now ledger.state req rule trigger amount
      have hcompleted : (ledger.step arith env ⟨now, .reserve req rule trigger
          amount⟩).state.completed = _ := heffect.completed
      rw [hcompleted] at h
      exact hold leaseId h
  | update id consumedTotal sequence =>
      have heffect := updateLease_effect arith now ledger.state id consumedTotal sequence
      have hcompleted : (ledger.step arith env ⟨now, .update id consumedTotal
          sequence⟩).state.completed = _ := heffect.completed
      rw [hcompleted] at h
      exact hold leaseId h
  | finish id consumedTotal sequence =>
      have heffect := finishLease_effect arith now ledger.state id consumedTotal sequence
      rcases heffect.completed leaseId h with hkept | ⟨hid, lease, htarget⟩
      · exact hold leaseId hkept
      · refine List.mem_map.mpr ⟨(id, lease), List.mem_append_left _ ?_, hid.symm⟩
        unfold finishedBy
        simp only [htarget, List.mem_singleton]

theorem completedSettled_run (arith : CounterArith) (env : QuotaEnv) (ops : List TimedOp) :
    CompletedSettled (run (Ledger.step arith env) Ledger.empty ops) :=
  run_preserves CompletedSettled (fun _ timed inv => completedSettled_step arith env inv timed) ops
    fun _ h => absurd rfl h

theorem sound_of_along {env : CallEnv} (words : env.arith = .u32)
    (unique : Function.Injective env.uuid) {start : Ledger}
    (startInv : WordInv env.toQuotaEnv start) {call : QuotaCall}
    (positive : ∀ timed ∈ call.trace, AsksPositive timed)
    (along : Along (Ledger.step .u32 env.toQuotaEnv) (fun ledger timed =>
      ¬ Overcharges env.toQuotaEnv ledger.state timed) start call.trace) :
    Sound env start call := by
  intro trace hfirst
  rcases hfirst with ⟨rest, hrest⟩
  have hboth := along_and (along_of_forall fun timed h _ => positive timed h) along
  rw [← hrest, along_append] at hboth
  rw [words]
  exact (run_invariant (fun _ timed inv ok => wordInv_step unique timed inv ok.1 ok.2) startInv
    hboth.1).toLedgerInv

theorem asksPositive_of_plan (env : CallEnv) {req : QuotaRequest} (rules : List RateLimitRule)
    (distributed : List QuotaSpec → Except PoleError DistributedReserveResult)
    (valid : req.checkValid = .ok ()) (state : LocalQuotaState) :
    ∀ timed ∈ (reserveQuotas env distributed state req rules).1.trace, AsksPositive timed := by
  intro timed htimed
  unfold AsksPositive
  rcases reserveQuotas_ops state timed.op (List.mem_map.mpr ⟨timed, htimed, rfl⟩) with
    ⟨spec, hspec, heq⟩ | hfinish
  · rw [heq]
    rcases List.mem_append.mp hspec with hfailover | hlocal
    · unfold failoverPlan at hfailover
      split at hfailover
      · cases hfailover
      · split at hfailover
        · exact (specOk_failover valid spec hfailover).positive
        · cases hfailover
    · exact (specOk_local valid spec hlocal).positive
  · cases hop : timed.op with
    | reserve req rule trigger amount =>
        rw [hop] at hfinish
        cases hfinish
    | update id consumedTotal sequence => trivial
    | finish id consumedTotal sequence => trivial

theorem lastRead_of_ops (env : CallEnv) {call : QuotaCall} {op : QuotaOp} (h : op ∈ call.ops) :
    ∃ now, lastRead env call = some now := by
  rcases List.mem_map.mp h with ⟨timed, htimed, -⟩
  unfold lastRead
  cases hlength : call.trace.length with
  | zero =>
      rw [List.length_eq_zero_iff.mp hlength] at htimed
      cases htimed
  | succ n => exact ⟨env.clock n, rfl⟩

/-- A failing call without overcharges restores the totals unless a request quota was reserved
before the rejected one; it restores them exactly when nothing it settled counts in a window's
present generation. -/
theorem rejected_restores (env : CallEnv) (words : env.arith = .u32)
    (unique : Function.Injective env.uuid) (mono : Monotone env.clock) (ops : List TimedOp)
    (history : Along (Ledger.step .u32 env.toQuotaEnv) (fun ledger timed =>
      AsksPositive timed ∧ ¬ Overcharges env.toQuotaEnv ledger.state timed) Ledger.empty ops)
    (start : Ledger) (hstart : start = run (Ledger.step .u32 env.toQuotaEnv) Ledger.empty ops)
    (distributed : List QuotaSpec → Except PoleError DistributedReserveResult)
    (req : QuotaRequest) (valid : req.checkValid = .ok ()) (rules : List RateLimitRule)
    (call : QuotaCall) (err : PoleError)
    (failed : reserveQuotas env distributed start.state req rules = (call, .error err))
    (within : Along (Ledger.step .u32 env.toQuotaEnv) (fun ledger timed =>
      ¬ Overcharges env.toQuotaEnv ledger.state timed) start call.trace) :
    call = ⟨start.state, []⟩ ∨
      ∃ reserved rejecting rest undone now,
        reservationPlan env req rules distributed = reserved ++ rejecting :: rest ∧
        call.ops = (reserved ++ [rejecting]).map (reserveOp req) ++ undone ∧
        (∀ op ∈ undone, op.isFinish) ∧
        lastRead env call = some now ∧
        ((∀ spec ∈ reserved, spec.trigger.resource = .qps → positiveAmounts spec.trigger = []) →
          Restored (WindowKey env.toQuotaEnv req) now
            (cleanupExpiredLocalLeases .u32 now start.state) call.state) ∧
        (Restored (WindowKey env.toQuotaEnv req) now
            (cleanupExpiredLocalLeases .u32 now start.state) call.state ↔
          ∀ key window, call.state.windows key = some window →
            committedFor (ownSettled start (ledgerOf env start call)) key window.generation =
              0) := by
  have hword : WordInv env.toQuotaEnv start := hstart ▸ wordInv_run unique history
  have hcompleted : CompletedSettled start := hstart ▸ completedSettled_run _ _ ops
  have hpositive := asksPositive_of_plan env rules distributed valid start.state
  rw [failed] at hpositive
  have hsound := sound_of_along words unique hword hpositive within
  rcases reserveQuotas_failed unique mono hword.toLedgerInv hcompleted valid failed hsound with
    hnothing | ⟨reserved, rejecting, rest, undone, hplan, hstate, htrace, hfinish⟩
  · exact .inl hnothing
  · have htried : reserveOp req rejecting ∈ call.ops := by
      rw [htrace]
      simp
    rcases lastRead_of_ops env htried with ⟨now, hread⟩
    have hcall := hstate.inv
    rw [hread] at hcall
    have hclean : LedgerInv env.toQuotaEnv (start.cleaned .u32 now) := by
      unfold Ledger.cleaned
      rw [(cleanup_u32 hword.toLedgerInv hword.bounded now).1]
      exact ledgerInv_cleanup hword.toLedgerInv now
    have hiff := restored_iff hcall (hsound.of_prefix List.prefix_rfl) hclean
    rw [← hstate.state] at hiff
    exact .inr ⟨reserved, rejecting, rest, undone, now, hplan, htrace, hfinish, hread,
      fun hfree => hiff.mpr fun key window _ => ownSettled_zero hcall hfree key _, hiff⟩

/-! ## A rejected token quota -/

def CallEnv.decimal : CallEnv := { QuotaEnv.decimal with
  arith := .u32
  regex := fun _ => none
  clock := id }

def callsTrigger : LimitTrigger :=
  { ordersTrigger .qps [⟨10, some 1⟩] none with name := "calls" }

def mixedRule : RateLimitRule :=
  ⟨"orders", 0, false, .localCount, [callsTrigger, tokenTrigger], none⟩

def reserveOrders (quotas : List QuotaAmount) : QuotaCall × Except PoleError QuotaLease :=
  reserveQuotas .decimal (fun _ => .ok .reserved) LocalQuotaState.empty (ordersRequest quotas)
    [mixedRule]

/-- A request and 101 of 100 tokens: the tokens are refused, and the window of the requests
keeps one committed. -/
theorem refused_tokens_keep_request :
    ∃ err now, (reserveOrders [⟨.qps, 1⟩, ⟨.token, 101⟩]).2 = .error err ∧
      lastRead .decimal (reserveOrders [⟨.qps, 1⟩, ⟨.token, 101⟩]).1 = some now ∧
      ¬ Restored (WindowKey .decimal (ordersRequest [⟨.qps, 1⟩, ⟨.token, 101⟩])) now
        (cleanupExpiredLocalLeases .u32 now LocalQuotaState.empty)
        (reserveOrders [⟨.qps, 1⟩, ⟨.token, 101⟩]).1.state := by
  refine ⟨quotaRejected "rate limit quota exhausted", 2, ?_, ?_, ?_⟩
  · decide +kernel
  · decide +kernel
  · intro h
    have hwindow : (reserveOrders [⟨.qps, 1⟩, ⟨.token, 101⟩]).1.state.windows
        "prod#orders#Pay#orders#calls#1" = some ⟨0, 0, 1, 0⟩ := by decide +kernel
    have hcarried := h.windows _ _ hwindow
    have hfresh : (cleanupExpiredLocalLeases .u32 2 LocalQuotaState.empty).windows
        "prod#orders#Pay#orders#calls#1" = none := by decide +kernel
    unfold carried at hcarried
    rw [hfresh] at hcarried
    cases hcarried

theorem not_overcharges_mixed {state : LocalQuotaState} {now : Nat} {req : QuotaRequest}
    {spec : QuotaSpec} (h : spec.trigger = callsTrigger ∨ spec.trigger = tokenTrigger) :
    ¬ Overcharges .decimal state ⟨now, reserveOp req spec⟩ := by
  unfold reserveOp
  rcases h with h | h
  · rw [h]
    exact not_overcharges_of_distinct (by decide) (by decide) fun limit h => by cases h
  · rw [h]
    exact not_overcharges_of_distinct (by decide) (by decide) fun limit h => by cases h

/-- Refused requests give back the tokens that were reserved before them. -/
theorem refused_requests_restore_tokens :
    ∃ now, Restored (WindowKey .decimal (ordersRequest [⟨.token, 60⟩, ⟨.qps, 11⟩])) now
      (cleanupExpiredLocalLeases .u32 now LocalQuotaState.empty)
      (reserveOrders [⟨.token, 60⟩, ⟨.qps, 11⟩]).1.state := by
  have hplan : reservationPlan .decimal (ordersRequest [⟨.token, 60⟩, ⟨.qps, 11⟩]) [mixedRule]
      (fun _ => .ok .reserved) =
        [⟨mixedRule, tokenTrigger, 60⟩, ⟨mixedRule, callsTrigger, 11⟩] := by decide +kernel
  have hwithin : ∀ timed ∈ (reserveOrders [⟨.token, 60⟩, ⟨.qps, 11⟩]).1.trace, ∀ state,
      ¬ Overcharges .decimal state timed := by
    intro timed htimed state
    rcases timed with ⟨now, op⟩
    rcases reserveQuotas_ops LocalQuotaState.empty op (List.mem_map.mpr ⟨_, htimed, rfl⟩) with
      ⟨spec, hspec, rfl⟩ | hfinish
    · rw [hplan] at hspec
      apply not_overcharges_mixed
      simp only [List.mem_cons, List.not_mem_nil, or_false] at hspec
      rcases hspec with rfl | rfl
      · exact .inr rfl
      · exact .inl rfl
    · intro h
      cases op with
      | reserve req rule trigger amount => exact hfinish
      | update id consumedTotal sequence => exact h
      | finish id consumedTotal sequence => exact h
  have hfailed : (reserveOrders [⟨.token, 60⟩, ⟨.qps, 11⟩]).2 =
      .error (quotaRejected "rate limit quota exhausted") := by decide +kernel
  rcases rejected_restores .decimal rfl (fun _ _ h => Text.toString_nat_inj h) (fun _ _ h => h) []
    trivial Ledger.empty rfl (fun _ => .ok .reserved) (ordersRequest [⟨.token, 60⟩, ⟨.qps, 11⟩])
    (by decide +kernel) [mixedRule] (reserveOrders [⟨.token, 60⟩, ⟨.qps, 11⟩]).1 _
    (Prod.ext rfl hfailed) (along_of_forall fun timed h ledger => hwithin timed h ledger.state) with
    hnothing | ⟨reserved, rejecting, rest, undone, now, hreserved, -, -, -, hrestored, -⟩
  · have hoperated : (reserveOrders [⟨.token, 60⟩, ⟨.qps, 11⟩]).1.trace.length ≠ 0 := by
      decide +kernel
    rw [hnothing] at hoperated
    exact absurd rfl hoperated
  · refine ⟨now, hrestored fun spec hspec hqps => ?_⟩
    have hmem : spec ∈ [⟨mixedRule, tokenTrigger, 60⟩] := by
      cases reserved with
      | nil => cases hspec
      | cons first reserved =>
          rw [hplan] at hreserved
          cases reserved with
          | nil =>
              cases hreserved
              exact hspec
          | cons second reserved => simp at hreserved
    rw [List.mem_singleton.mp hmem] at hqps
    cases hqps

end PoleClient.RateLimit
