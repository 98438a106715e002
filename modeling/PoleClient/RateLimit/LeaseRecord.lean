import PoleClient.RateLimit.CallLedger

/-! # One lease in the ledger

Under one identifier the ledger has a live lease or a settled one. Until the
lease expires the operations of others leave it alone; its own update changes
its totals, and its own finish settles it.
-/

namespace PoleClient.RateLimit

open Lib

/-! ## The record of an identifier -/

def Ledger.settledAs (ledger : Ledger) (leaseId : String) : List LocalLeaseState :=
  (ledger.settled.filter fun entry => entry.1 = leaseId).map Prod.snd

def Drawn (env : QuotaEnv) (state : LocalQuotaState) (leaseId : String) : Prop :=
  ∃ n, n < state.issued ∧ leaseId = env.uuid n

structure HeldAs (ledger : Ledger) (leaseId : String) (lease : LocalLeaseState) : Prop where
  live : ledger.state.leases.lookup leaseId = some lease
  unsettled : ledger.settledAs leaseId = []
  uncompleted : ledger.state.completed leaseId = none

structure SettledAs (ledger : Ledger) (leaseId : String) (lease : LocalLeaseState) : Prop where
  gone : ledger.state.leases.lookup leaseId = none
  once : ledger.settledAs leaseId = [lease]

def QuotaOp.Names (op : QuotaOp) (leaseId : String) : Prop :=
  match op with
  | .reserve _ _ _ _ => False
  | .update named _ _ => named = leaseId
  | .finish named _ _ => named = leaseId

section Records

variable {arith : CounterArith} {env : QuotaEnv} {ledger : Ledger} {leaseId : String}
variable {lease : LocalLeaseState} {now : Nat} {op : QuotaOp}

theorem settledAs_append (first : List (String × LocalLeaseState)) (granted : List String)
    (state : LocalQuotaState) :
    Ledger.settledAs ⟨state, granted, first ++ ledger.settled⟩ leaseId =
      (first.filter fun entry => entry.1 = leaseId).map Prod.snd ++ ledger.settledAs leaseId := by
  unfold Ledger.settledAs
  rw [List.filter_append, List.map_append]

/-! ## Cleanups -/

theorem lookup_cleanup {state : LocalQuotaState}
    (early : ∀ live, state.leases.lookup leaseId = some live → now < live.expiresAt) :
    (cleanupExpiredLocalLeases arith now state).leases.lookup leaseId =
      state.leases.lookup leaseId := by
  apply Option.ext
  intro live
  rw [AList.lookup_eq_some_iff, AList.lookup_eq_some_iff, mem_cleanup]
  exact ⟨fun h => h.1, fun h => ⟨h, early live (AList.lookup_eq_some_iff.mpr h)⟩⟩

theorem settledAs_cleaned
    (early : ∀ live, ledger.state.leases.lookup leaseId = some live → now < live.expiresAt) :
    (ledger.cleaned arith now).settledAs leaseId = ledger.settledAs leaseId := by
  have hnone : (expiredLeases now ledger.state).reverse.filter
      (fun entry => entry.1 = leaseId) = [] := by
    rw [List.filter_eq_nil_iff]
    intro entry hentry hid
    obtain ⟨hmem, hexpired⟩ := mem_expiredLeases.mp (List.mem_reverse.mp hentry)
    have hlookup := AList.lookup_eq_some_iff.mpr hmem
    rw [of_decide_eq_true hid] at hlookup
    have := early entry.2 hlookup
    omega
  unfold Ledger.cleaned
  rw [settledAs_append, hnone]
  rfl

theorem completed_cleaned (h : ledger.state.completed leaseId = none) :
    (ledger.cleaned arith now).state.completed leaseId = none := by
  by_contra hsome
  exact cleanup_completed hsome h

theorem HeldAs.cleaned (held : HeldAs ledger leaseId lease) (early : now < lease.expiresAt) :
    HeldAs (ledger.cleaned arith now) leaseId lease := by
  have hearly : ∀ live, ledger.state.leases.lookup leaseId = some live →
      now < live.expiresAt := by
    intro live hlive
    rw [held.live] at hlive
    obtain rfl := Option.some.inj hlive
    exact early
  constructor
  · exact (lookup_cleanup hearly).trans held.live
  · exact (settledAs_cleaned hearly).trans held.unsettled
  · exact completed_cleaned held.uncompleted

theorem SettledAs.cleaned (settled : SettledAs ledger leaseId lease) :
    SettledAs (ledger.cleaned arith now) leaseId lease := by
  have hearly : ∀ live, ledger.state.leases.lookup leaseId = some live →
      now < live.expiresAt := by
    intro live hlive
    rw [settled.gone] at hlive
    cases hlive
  exact ⟨(lookup_cleanup hearly).trans settled.gone, (settledAs_cleaned hearly).trans settled.once⟩

/-! ## Operations of others -/

/-- After its cleanup, an operation of others changes nothing under the identifier. -/
structure LeavesAlone (leaseId : String) (clean after : Ledger) : Prop where
  lookup : after.state.leases.lookup leaseId = clean.state.leases.lookup leaseId
  settled : after.settledAs leaseId = clean.settledAs leaseId
  completed : clean.state.completed leaseId = none → after.state.completed leaseId = none

theorem HeldAs.kept {clean after : Ledger} (held : HeldAs clean leaseId lease)
    (alone : LeavesAlone leaseId clean after) : HeldAs after leaseId lease where
  live := alone.lookup.trans held.live
  unsettled := alone.settled.trans held.unsettled
  uncompleted := alone.completed held.uncompleted

theorem SettledAs.kept {clean after : Ledger} (settled : SettledAs clean leaseId lease)
    (alone : LeavesAlone leaseId clean after) : SettledAs after leaseId lease where
  gone := alone.lookup.trans settled.gone
  once := alone.settled.trans settled.once

theorem leavesAlone_reserve (ne : leaseId ≠ env.uuid ledger.state.issued) (req : QuotaRequest)
    (rule : RateLimitRule) (trigger : LimitTrigger) (amount : Nat) :
    LeavesAlone leaseId (ledger.cleaned arith now)
      (ledger.step arith env ⟨now, .reserve req rule trigger amount⟩) := by
  have heffect := reserve_effect arith env now ledger.state req rule trigger amount
  have hleases : (reserve arith env now ledger.state req rule trigger amount).1.leases.lookup
      leaseId = (cleanupExpiredLocalLeases arith now ledger.state).leases.lookup leaseId := by
    by_cases hgranted : ∃ backend, (reserve arith env now ledger.state req rule trigger amount).2 =
        .ok (.reserved backend)
    · obtain ⟨backend, hbackend⟩ := hgranted
      obtain ⟨hid, -, live, -, hinsert⟩ := heffect.granted backend hbackend
      rw [cleanup_issued] at hid
      rw [hinsert, AList.lookup_insert_ite, if_neg fun heq => ne (heq.trans hid)]
    · rw [heffect.refused fun backend h => hgranted ⟨backend, h⟩]
  constructor
  · exact hleases
  · rfl
  · intro hnone
    exact (congrFun heffect.completed leaseId).trans hnone

theorem leavesAlone_update {named : String} (ne : named ≠ leaseId) (consumedTotal sequence : Nat) :
    LeavesAlone leaseId (ledger.cleaned arith now)
      (ledger.step arith env ⟨now, .update named consumedTotal sequence⟩) := by
  have heffect := updateLease_effect arith now ledger.state named consumedTotal sequence
  constructor
  · show (updateLease arith now ledger.state named consumedTotal sequence).1.leases.lookup
      leaseId = (cleanupExpiredLocalLeases arith now ledger.state).leases.lookup leaseId
    rcases heffect.leases with hsame | hmodified
    · rw [hsame]
    · rw [hmodified, AList.lookup_modify, if_neg fun h => ne h.symm]
  · rfl
  · intro hnone
    exact (congrFun heffect.completed leaseId).trans hnone

theorem leavesAlone_finish {named : String} (ne : named ≠ leaseId) (consumedTotal sequence : Nat) :
    LeavesAlone leaseId (ledger.cleaned arith now)
      (ledger.step arith env ⟨now, .finish named consumedTotal sequence⟩) := by
  have heffect := finishLease_effect arith now ledger.state named consumedTotal sequence
  constructor
  · show (finishLease arith now ledger.state named consumedTotal sequence).1.leases.lookup
      leaseId = _
    by_cases htarget : ∃ live, finishTarget (cleanupExpiredLocalLeases arith now ledger.state)
        named consumedTotal sequence = .ok (some live)
    · obtain ⟨live, htarget⟩ := htarget
      rw [heffect.removed live htarget, AList.lookup_erase_ite, if_neg fun h => ne h.symm]
      rfl
    · rw [heffect.kept fun live h => htarget ⟨live, h⟩]
      rfl
  · have hfinished : (finishedBy arith ledger.state ⟨now, .finish named consumedTotal
        sequence⟩).filter (fun entry => entry.1 = leaseId) = [] := by
      unfold finishedBy
      simp only
      split
      · rw [List.filter_cons_of_neg (by simpa using ne), List.filter_nil]
      · rfl
    show Ledger.settledAs ⟨_, _, _ ++ (ledger.cleaned arith now).settled⟩ leaseId = _
    rw [settledAs_append, hfinished]
    rfl
  · intro hnone
    by_contra hsome
    rcases heffect.completed leaseId hsome with hbefore | ⟨heq, -⟩
    · exact hbefore hnone
    · exact ne heq.symm

theorem Drawn.ne (unique : Function.Injective env.uuid) {state : LocalQuotaState}
    (drawn : Drawn env state leaseId) : leaseId ≠ env.uuid state.issued := by
  intro heq
  obtain ⟨n, hn, hdrawn⟩ := drawn
  have hsame := unique (hdrawn.symm.trans heq)
  omega

theorem leavesAlone_step (unique : Function.Injective env.uuid)
    (drawn : Drawn env ledger.state leaseId) (foreign : ¬ op.Names leaseId) :
    LeavesAlone leaseId (ledger.cleaned arith now) (ledger.step arith env ⟨now, op⟩) := by
  cases op with
  | reserve req rule trigger amount =>
      exact leavesAlone_reserve (drawn.ne unique) req rule trigger amount
  | update named consumedTotal sequence => exact leavesAlone_update foreign consumedTotal sequence
  | finish named consumedTotal sequence => exact leavesAlone_finish foreign consumedTotal sequence

theorem HeldAs.step (held : HeldAs ledger leaseId lease) (early : now < lease.expiresAt)
    (unique : Function.Injective env.uuid) (drawn : Drawn env ledger.state leaseId)
    (foreign : ¬ op.Names leaseId) : HeldAs (ledger.step arith env ⟨now, op⟩) leaseId lease :=
  (held.cleaned early).kept (leavesAlone_step unique drawn foreign)

theorem SettledAs.step (settled : SettledAs ledger leaseId lease)
    (unique : Function.Injective env.uuid) (drawn : Drawn env ledger.state leaseId)
    (foreign : ¬ op.Names leaseId) : SettledAs (ledger.step arith env ⟨now, op⟩) leaseId lease :=
  settled.cleaned.kept (leavesAlone_step unique drawn foreign)

/-! ## Operations of its own -/

theorem drawn_step (drawn : Drawn env ledger.state leaseId) (op : QuotaOp) :
    Drawn env (ledger.step arith env ⟨now, op⟩).state leaseId := by
  obtain ⟨n, hn, hdrawn⟩ := drawn
  refine ⟨n, Nat.lt_of_lt_of_le hn ?_, hdrawn⟩
  cases op with
  | reserve req rule trigger amount =>
      have heffect := reserve_effect arith env now ledger.state req rule trigger amount
      have hissued := heffect.issued
      rw [cleanup_issued] at hissued
      exact Nat.le_of_lt (Nat.lt_of_lt_of_eq (Nat.lt_succ_self _) hissued.symm)
  | update named consumedTotal sequence =>
      have heffect := updateLease_effect arith now ledger.state named consumedTotal sequence
      exact Nat.le_of_eq (heffect.issued.trans (cleanup_issued ..)).symm
  | finish named consumedTotal sequence =>
      have heffect := finishLease_effect arith now ledger.state named consumedTotal sequence
      exact Nat.le_of_eq (heffect.issued.trans (cleanup_issued ..)).symm

/-- The next sequence, with a total that neither falls nor passes the reservation. -/
theorem validateLocalOperation_next {consumedTotal sequence : Nat}
    (next : sequence = lease.sequence + 1) (bound : sequence ≤ u64Max)
    (low : lease.consumedTotal ≤ consumedTotal) (high : consumedTotal ≤ lease.reservedAmount) :
    validateLocalOperation lease consumedTotal sequence = .ok () := by
  have hsequence : ¬ sequence ≠ min (lease.sequence + 1) u64Max := by omega
  have hinside : ¬ (consumedTotal < lease.consumedTotal ∨
      consumedTotal > lease.reservedAmount) := by omega
  unfold validateLocalOperation
  rw [if_neg hsequence, if_neg hinside]

theorem HeldAs.update {consumedTotal sequence : Nat} (held : HeldAs ledger leaseId lease)
    (early : now < lease.expiresAt)
    (valid : validateLocalOperation lease consumedTotal sequence = .ok ()) :
    (applyOp arith env ledger.state ⟨now, .update leaseId consumedTotal sequence⟩).2 = .ok none ∧
      HeldAs (ledger.step arith env ⟨now, .update leaseId consumedTotal sequence⟩) leaseId
        { lease with consumedTotal, sequence } := by
  have hclean : HeldAs (ledger.cleaned arith now) leaseId lease := held.cleaned early
  have hlookup : (cleanupExpiredLocalLeases arith now ledger.state).leases.lookup leaseId =
      some lease := hclean.live
  have hupdate : (updateLease arith now ledger.state leaseId consumedTotal sequence).2 = .ok () ∧
      (updateLease arith now ledger.state leaseId consumedTotal sequence).1.leases.lookup leaseId =
        some { lease with consumedTotal, sequence } ∧
      (updateLease arith now ledger.state leaseId consumedTotal sequence).1.completed =
        (cleanupExpiredLocalLeases arith now ledger.state).completed := by
    unfold updateLease
    simp only [hlookup]
    by_cases hsame : sequence = lease.sequence ∧ consumedTotal = lease.consumedTotal
    · rw [if_pos hsame]
      refine ⟨rfl, ?_, rfl⟩
      rw [hsame.1, hsame.2]
      exact hlookup
    · rw [if_neg hsame, valid]
      refine ⟨rfl, ?_, rfl⟩
      simp only [AList.lookup_modify, if_true, hlookup, Option.map_some]
  refine ⟨?_, hupdate.2.1, hclean.unsettled, ?_⟩
  · unfold applyOp
    simp only [hupdate.1]
    rfl
  · exact (congrFun hupdate.2.2 leaseId).trans hclean.uncompleted

theorem HeldAs.finish {consumedTotal sequence : Nat} (held : HeldAs ledger leaseId lease)
    (early : now < lease.expiresAt)
    (valid : validateLocalOperation lease consumedTotal sequence = .ok ()) :
    (applyOp arith env ledger.state ⟨now, .finish leaseId consumedTotal sequence⟩).2 = .ok none ∧
      SettledAs (ledger.step arith env ⟨now, .finish leaseId consumedTotal sequence⟩) leaseId
        { lease with consumedTotal } := by
  have hclean : HeldAs (ledger.cleaned arith now) leaseId lease := held.cleaned early
  have heffect := finishLease_effect arith now ledger.state leaseId consumedTotal sequence
  have htarget : finishTarget (cleanupExpiredLocalLeases arith now ledger.state) leaseId
      consumedTotal sequence = .ok (some { lease with consumedTotal }) := by
    have hlookup : (cleanupExpiredLocalLeases arith now ledger.state).leases.lookup leaseId =
        some lease := hclean.live
    have hcompleted : (cleanupExpiredLocalLeases arith now ledger.state).completed leaseId =
        none := hclean.uncompleted
    unfold finishTarget
    rw [hcompleted, hlookup]
    simp only [Option.any_none, Bool.false_eq_true, if_false, valid]
  have hfinished : finishedBy arith ledger.state ⟨now, .finish leaseId consumedTotal sequence⟩ =
      [(leaseId, { lease with consumedTotal })] := by
    unfold finishedBy
    simp only [htarget]
  refine ⟨?_, ?_, ?_⟩
  · unfold applyOp finishLease
    simp only [htarget]
    rfl
  · show (finishLease arith now ledger.state leaseId consumedTotal sequence).1.leases.lookup
      leaseId = none
    rw [heffect.removed _ htarget, AList.lookup_erase_ite, if_pos rfl]
  · show Ledger.settledAs ⟨_, _, _ ++ (ledger.cleaned arith now).settled⟩ leaseId = _
    rw [settledAs_append, hfinished, hclean.unsettled]
    simp

end Records

end PoleClient.RateLimit
