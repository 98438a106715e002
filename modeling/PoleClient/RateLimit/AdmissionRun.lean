import PoleClient.RateLimit.Admission
import PoleClient.RateLimit.LedgerRun

/-! # Runs on 32-bit counters

In a run without overcharges every total stays within a word, so that words
count as exact naturals do: the ledger of the run is conserved, and no addition
wraps or saturates.
-/

namespace PoleClient.RateLimit

open Lib

/-! ## Settlements within a word -/

/-- Every total fits in a word and no lease has consumed more than it reserved. -/
structure Bounded (state : LocalQuotaState) : Prop where
  windows : ∀ key window, state.windows key = some window →
    window.committed + window.reserved ≤ CounterArith.u32Max
  concurrency : ∀ key occupied, state.concurrency key = some occupied →
    occupied ≤ CounterArith.u32Max
  consumed : ∀ entry ∈ state.leases.rows, entry.2.consumedTotal ≤ entry.2.reservedAmount

def WindowsBounded (windows : String → Option QuotaWindow) : Prop :=
  ∀ key window, windows key = some window →
    window.committed + window.reserved ≤ CounterArith.u32Max

section Settlement

variable {lease : LocalLeaseState}

/-- What a settlement commits was reserved before. -/
theorem settleWindow_u32 {windows : String → Option QuotaWindow} {r : LocalWindowReservation}
    (bounded : WindowsBounded windows) (consumed : lease.consumedTotal ≤ lease.reservedAmount)
    (covers : CoversReservation lease windows r) :
    settleWindow .u32 lease windows r = settleWindow .exact lease windows r ∧
      WindowsBounded (settleWindow .exact lease windows r) := by
  have hadd : ∀ window, windows r.key = some window → window.generation = r.generation →
      CounterArith.u32.saturatingAdd window.committed lease.consumedTotal =
        window.committed + lease.consumedTotal := by
    intro window hwindow hgeneration
    have := bounded r.key window hwindow
    have := covers window hwindow hgeneration
    simp only [CounterArith.u32]
    omega
  constructor
  · unfold settleWindow
    cases hwindow : windows r.key with
    | none => rfl
    | some window =>
        simp only
        split
        · rfl
        · rename_i hgeneration
          rw [hadd window hwindow (not_not.mp hgeneration)]
          rfl
  · intro key window hafter
    rw [settleWindow_apply] at hafter
    rcases Option.map_eq_some_iff.mp hafter with ⟨before, hbefore, heq⟩
    have hbounded := bounded key before hbefore
    by_cases hr : r = ⟨key, before.generation⟩
    · rw [if_pos hr] at heq
      subst heq hr
      have := covers before hbefore rfl
      simp only [CounterArith.exact_saturatingAdd]
      omega
    · rw [if_neg hr] at heq
      subst heq
      exact hbounded

theorem settleWindows_u32 {reservations : List LocalWindowReservation}
    {windows : String → Option QuotaWindow} (bounded : WindowsBounded windows)
    (consumed : lease.consumedTotal ≤ lease.reservedAmount)
    (covers : Along (settleWindow .exact lease) (CoversReservation lease) windows reservations) :
    reservations.foldl (settleWindow .u32 lease) windows =
        reservations.foldl (settleWindow .exact lease) windows ∧
      WindowsBounded (reservations.foldl (settleWindow .exact lease) windows) := by
  induction reservations generalizing windows with
  | nil => exact ⟨rfl, bounded⟩
  | cons r reservations ih =>
      rcases settleWindow_u32 bounded consumed covers.1 with ⟨heq, hbounded⟩
      rw [List.foldl_cons, List.foldl_cons, heq]
      exact ih hbounded covers.2

theorem settleOccupancy_le {concurrency : String → Option Nat}
    (bounded : ∀ key occupied, concurrency key = some occupied →
      occupied ≤ CounterArith.u32Max) :
    ∀ key occupied, settleOccupancy lease concurrency key = some occupied →
      occupied ≤ CounterArith.u32Max := by
  intro key occupied h
  unfold settleOccupancy at h
  cases hkey : lease.concurrencyKey with
  | none => exact bounded key occupied (by simpa [hkey] using h)
  | some held =>
      cases hheld : concurrency held with
      | none => exact bounded key occupied (by simpa [hkey, hheld] using h)
      | some before =>
          simp only [hkey, hheld] at h
          by_cases hsame : key = held
          · subst hsame
            rw [Function.update_self] at h
            split at h
            · cases h
            · have := bounded key before hheld
              cases h
              omega
          · rw [Function.update_of_ne hsame] at h
            exact bounded key occupied h

end Settlement

section Runs

variable {env : QuotaEnv} {state : LocalQuotaState} {granted : List String}
variable {settled : List (String × LocalLeaseState)}

theorem removeAndSettle_u32 {leaseId : String} {live : LocalLeaseState} {consumedTotal : Nat}
    (inv : LedgerInv env ⟨state, granted, settled⟩) (bounded : Bounded state)
    (h : state.leases.lookup leaseId = some live) (consumed : consumedTotal ≤ live.reservedAmount) :
    removeAndSettle .u32 state leaseId { live with consumedTotal } =
        removeAndSettle .exact state leaseId { live with consumedTotal } ∧
      Bounded (removeAndSettle .exact state leaseId { live with consumedTotal }) := by
  have hexactly := settlesExactly_of_live inv h consumedTotal
  have hleases : ∀ entry ∈ (state.leases.erase leaseId).rows,
      entry.2.consumedTotal ≤ entry.2.reservedAmount := fun entry hentry =>
    bounded.consumed entry (AList.mem_rows_erase.mp hentry).1
  unfold removeAndSettle settleLocalLease
  unfold SettlesExactly at hexactly
  cases haccounting : live.accounting with
  | consumable =>
      simp only [haccounting] at hexactly
      rcases settleWindows_u32 bounded.windows consumed hexactly with ⟨heq, hwindows⟩
      simp only at heq hwindows ⊢
      rw [heq]
      exact ⟨rfl, hwindows, bounded.concurrency, hleases⟩
  | occupancy =>
      exact ⟨rfl, bounded.windows, settleOccupancy_le bounded.concurrency, hleases⟩

theorem settleAll_u32 {entries : List (String × LocalLeaseState)}
    (inv : LedgerInv env ⟨state, granted, settled⟩) (bounded : Bounded state)
    (distinct : (entries.map Prod.fst).Nodup)
    (live : ∀ entry ∈ entries, state.leases.lookup entry.1 = some entry.2) :
    entries.foldl (fun state entry => removeAndSettle .u32 state entry.1 entry.2) state =
        entries.foldl (fun state entry => removeAndSettle .exact state entry.1 entry.2) state ∧
      Bounded (entries.foldl (fun state entry =>
        removeAndSettle .exact state entry.1 entry.2) state) := by
  induction entries generalizing state settled with
  | nil => exact ⟨rfl, bounded⟩
  | cons entry entries ih =>
      rcases List.nodup_cons.mp distinct with ⟨hnot, hdistinct⟩
      have hentry := live entry List.mem_cons_self
      have hconsumed := bounded.consumed entry (AList.lookup_eq_some_iff.mp hentry)
      have hsettle : removeAndSettle .u32 state entry.1 entry.2 =
          removeAndSettle .exact state entry.1 entry.2 ∧
          Bounded (removeAndSettle .exact state entry.1 entry.2) :=
        removeAndSettle_u32 inv bounded hentry hconsumed
      rw [List.foldl_cons, List.foldl_cons, hsettle.1]
      exact ih (ledgerInv_settle inv hentry entry.2.consumedTotal) hsettle.2 hdistinct
        (live_after_settle hnot live)

theorem cleanup_u32 (inv : LedgerInv env ⟨state, granted, settled⟩) (bounded : Bounded state)
    (now : Nat) :
    cleanupExpiredLocalLeases .u32 now state = cleanupExpiredLocalLeases .exact now state ∧
      Bounded (cleanupExpiredLocalLeases .exact now state) := by
  have hsettle := settleAll_u32 inv bounded (expiredLeases_distinct now state)
    fun entry h => expiredLeases_lookup h
  unfold cleanupExpiredLocalLeases
  rw [hsettle.1]
  exact ⟨rfl, hsettle.2.windows, hsettle.2.concurrency, hsettle.2.consumed⟩

/-! ## Reservations within a word -/

theorem bounded_advance {windows : String → Option QuotaWindow} (bounded : Bounded state)
    (advanced : Advanced state.windows windows) : Bounded { state with windows } := by
  refine ⟨fun key window hwindow => ?_, bounded.concurrency, bounded.consumed⟩
  rcases advanced key with hkept | ⟨fresh, hfresh, hreserved, hcommitted, -⟩
  · exact bounded.windows key window (hkept.symm.trans hwindow)
  · obtain rfl : fresh = window := Option.some.inj (hfresh.symm.trans hwindow)
    rw [hreserved, hcommitted]
    exact Nat.zero_le _

theorem charged_fits {now : Nat} {keyOf : Nat → String} (inj : Function.Injective keyOf)
    {trigger : LimitTrigger} {amount : Nat} (bounded : Bounded state)
    (fits : ∀ limit ∈ positiveAmounts trigger,
      (currentWindow now (amountDuration limit) state.windows
          (keyOf (amountDuration limit))).committed +
        (currentWindow now (amountDuration limit) state.windows
          (keyOf (amountDuration limit))).reserved +
        sharers trigger limit * amount ≤ limit.maxAmount.toNat)
    {key : String} {window : QuotaWindow}
    (hwindow : lookedUp now keyOf state.windows (positiveAmounts trigger) key = some window) :
    window.committed + (window.reserved +
      (((positiveAmounts trigger).map (reservationFor now keyOf state.windows)).countP fun r =>
        r.key = key) * amount) ≤ CounterArith.u32Max := by
  by_cases hcounted : ∃ limit ∈ positiveAmounts trigger, keyOf (amountDuration limit) = key
  · rcases hcounted with ⟨limit, hlimit, rfl⟩
    have hlooked := lookedUp_of_mem now inj state.windows hlimit
    obtain rfl := Option.some.inj (hlooked.symm.trans hwindow)
    rw [countP_reservations inj]
    have := fits limit hlimit
    have := maxAmount_le limit.maxAmount
    omega
  · have hzero : (((positiveAmounts trigger).map (reservationFor now keyOf state.windows)).countP
        fun r => r.key = key) = 0 := by
      rw [List.countP_eq_zero]
      intro r hr hkey
      rcases List.mem_map.mp hr with ⟨limit, hlimit, rfl⟩
      exact hcounted ⟨limit, hlimit, of_decide_eq_true hkey⟩
    have := (bounded_advance bounded (advanced_lookedUp now keyOf state.windows
      (positiveAmounts trigger))).windows key window hwindow
    rw [hzero]
    omega

theorem chargeWindows_u32 {amount : Nat} {reservations : List LocalWindowReservation}
    {windows : String → Option QuotaWindow}
    (fits : ∀ key window, windows key = some window → window.committed + (window.reserved +
      (reservations.countP fun r => r.key = key) * amount) ≤ CounterArith.u32Max) :
    reservations.foldl (chargeWindow .u32 amount) windows =
        reservations.foldl (chargeWindow .exact amount) windows ∧
      WindowsBounded (reservations.foldl (chargeWindow .exact amount) windows) := by
  constructor
  · funext key
    rw [chargeWindows_apply, chargeWindows_apply]
    cases hwindow : windows key with
    | none => rfl
    | some window =>
        have hfits := fits key window hwindow
        unfold CounterArith.u32Max at hfits
        rw [Option.map_some, Option.map_some, CounterArith.exact_add_iterate,
          CounterArith.u32_add_iterate_of_lt (by omega)]
  · intro key window hafter
    rw [chargeWindows_apply] at hafter
    rcases Option.map_eq_some_iff.mp hafter with ⟨before, hbefore, rfl⟩
    have hfits := fits key before hbefore
    rw [CounterArith.exact_add_iterate]
    exact hfits

theorem bounded_insert {leaseId : String} {lease : LocalLeaseState}
    (consumed : ∀ entry ∈ state.leases.rows, entry.2.consumedTotal ≤ entry.2.reservedAmount)
    (h : lease.consumedTotal ≤ lease.reservedAmount) :
    ∀ entry ∈ (state.leases.insert leaseId lease).rows,
      entry.2.consumedTotal ≤ entry.2.reservedAmount := by
  intro entry hentry
  rcases AList.mem_rows_insert.mp hentry with rfl | ⟨hold, -⟩
  · exact h
  · exact consumed entry hold

theorem initialConsumedTotal_le (trigger : LimitTrigger) : initialConsumedTotal trigger ≤ 1 := by
  unfold initialConsumedTotal
  split <;> omega

theorem reserveConsumable_u32 {n now amount expiresAt : Nat} {req : QuotaRequest}
    {rule : RateLimitRule} {trigger : LimitTrigger} {resource : QuotaResource}
    {before : Nat → QuotaWindow}
    (inv : LedgerInv env ⟨state, granted, settled⟩) (bounded : Bounded state)
    (hn : n < state.issued) (unused : env.uuid n ∉ state.leases.keys ++ settled.map Prod.fst)
    (positive : 0 < amount)
    (hbefore : ∀ seconds, before seconds = currentWindow now seconds state.windows
      (quotaCounterKey env.sha256Hex req rule trigger seconds))
    (within : ¬ OverchargesConsumable before trigger amount) :
    LedgerInv env ⟨(reserveConsumable .u32 env now state req rule trigger amount expiresAt
        ⟨env.uuid n, resource⟩).1,
      grantedBy (.ok (some (reserveConsumable .u32 env now state req rule trigger amount
        expiresAt ⟨env.uuid n, resource⟩).2)) ++ granted, settled⟩ ∧
      Bounded (reserveConsumable .u32 env now state req rule trigger amount expiresAt
        ⟨env.uuid n, resource⟩).1 := by
  have hinj : Function.Injective (quotaCounterKey env.sha256Hex req rule trigger) :=
    fun _ _ h => quotaCounterKey_inj.mp h
  have hexact := ledgerInv_reserveConsumable inv hn unused now req rule trigger amount expiresAt
    resource
  have hadvance := bounded_advance bounded (advanced_lookedUp now
    (quotaCounterKey env.sha256Hex req rule trigger) state.windows (positiveAmounts trigger))
  unfold reserveConsumable at hexact ⊢
  split
  · exact ⟨inv, bounded⟩
  · rename_i hsome
    rw [if_neg hsome] at hexact
    rcases checkWindows_spec now hinj .u32 amount state.windows (positiveAmounts trigger) with
      ⟨hroom, hcheck⟩ | ⟨-, visited, -, hcheck⟩
    · simp only [not_exceeds_iff, ← hbefore] at hroom
      have hfits := fits_of_not_overcharges within hroom
      simp only [hbefore] at hfits
      have hcharge := chargeWindows_u32 fun key window hwindow =>
        charged_fits hinj bounded hfits hwindow
      rcases checkWindows_spec now hinj .exact amount state.windows (positiveAmounts trigger) with
        ⟨-, hcheckExact⟩ | ⟨⟨limit, hlimit, hexceeds⟩, -⟩
      · rw [hcheckExact] at hexact
        rw [hcheck]
        simp only at hexact ⊢
        rw [hcharge.1]
        refine ⟨hexact, hcharge.2, hadvance.concurrency, bounded_insert bounded.consumed ?_⟩
        have := initialConsumedTotal_le trigger
        show initialConsumedTotal trigger ≤ amount
        omega
      · -- the exact check cannot fail where the charges fit
        have := hfits limit hlimit
        have : amount ≤ sharers trigger limit * amount :=
          Nat.le_mul_of_pos_left _ (one_le_sharers hlimit)
        unfold exceeds at hexceeds
        simp only [CounterArith.exact_saturatingAdd] at hexceeds
        omega
    · rw [hcheck]
      have hvisited := advanced_lookedUp now (quotaCounterKey env.sha256Hex req rule trigger)
        state.windows visited
      exact ⟨ledgerInv_advance inv hvisited, bounded_advance bounded hvisited⟩

theorem reserveConcurrency_u32 {n amount expiresAt : Nat} {req : QuotaRequest}
    {rule : RateLimitRule} {trigger : LimitTrigger} {resource : QuotaResource}
    (inv : LedgerInv env ⟨state, granted, settled⟩) (bounded : Bounded state)
    (hn : n < state.issued) (unused : env.uuid n ∉ state.leases.keys ++ settled.map Prod.fst)
    (within : ¬ OverchargesConcurrency ((state.concurrency
      (concurrencyCounterKey env.sha256Hex req rule trigger)).getD 0) trigger amount) :
    LedgerInv env ⟨(reserveConcurrency .u32 env state req rule trigger amount expiresAt
        ⟨env.uuid n, resource⟩).1,
      grantedBy (.ok (some (reserveConcurrency .u32 env state req rule trigger amount
        expiresAt ⟨env.uuid n, resource⟩).2)) ++ granted, settled⟩ ∧
      Bounded (reserveConcurrency .u32 env state req rule trigger amount expiresAt
        ⟨env.uuid n, resource⟩).1 := by
  have hexact := ledgerInv_reserveConcurrency inv hn unused req rule trigger amount expiresAt
    resource
  have hsame : reserveConcurrency .u32 env state req rule trigger amount expiresAt
      ⟨env.uuid n, resource⟩ = reserveConcurrency .exact env state req rule trigger amount
        expiresAt ⟨env.uuid n, resource⟩ ∧
      Bounded (reserveConcurrency .exact env state req rule trigger amount
        expiresAt ⟨env.uuid n, resource⟩).1 := by
    unfold reserveConcurrency
    unfold OverchargesConcurrency at within
    cases hlimit : trigger.concurrencyAmount with
    | none => exact ⟨rfl, bounded⟩
    | some limit =>
        have hmax := maxAmount_le limit
        have hgt : ∀ before, CounterArith.u32.saturatingAdd before amount > limit.toNat ↔
            before + amount > limit.toNat ∧ limit.toNat ≠ CounterArith.u32Max := fun before =>
          CounterArith.u32_saturatingAdd_gt_iff hmax
        simp only [hlimit, Option.some.injEq, exists_eq_left', not_and] at within
        have hset : ∀ value, value ≤ CounterArith.u32Max → ∀ key occupied,
            Function.update state.concurrency
              (concurrencyCounterKey env.sha256Hex req rule trigger) (some value) key =
                some occupied → occupied ≤ CounterArith.u32Max := by
          intro value hvalue key occupied h
          by_cases hkey : key = concurrencyCounterKey env.sha256Hex req rule trigger
          · rw [hkey, Function.update_self] at h
            cases h
            exact hvalue
          · rw [Function.update_of_ne hkey] at h
            exact bounded.concurrency key occupied h
        simp only [hgt, CounterArith.exact_saturatingAdd]
        split
        · exact ⟨rfl, bounded⟩
        · by_cases hover : (state.concurrency
              (concurrencyCounterKey env.sha256Hex req rule trigger)).getD 0 + amount >
                limit.toNat
          · have hne : limit.toNat ≠ CounterArith.u32Max := fun h =>
              within h (by omega)
            simp only [hover, hne, ne_eq, not_false_eq_true, and_self, if_true]
            refine ⟨trivial, bounded.windows, hset _ ?_, bounded.consumed⟩
            cases hoccupied : state.concurrency
              (concurrencyCounterKey env.sha256Hex req rule trigger) with
            | none => exact Nat.zero_le _
            | some occupied => exact bounded.concurrency _ occupied hoccupied
          · have hadd : CounterArith.u32.add ((state.concurrency
                (concurrencyCounterKey env.sha256Hex req rule trigger)).getD 0) amount = _ :=
              CounterArith.u32_add_of_lt (by unfold CounterArith.u32Max at hmax; omega)
            simp only [hover, false_and, if_false, hadd, CounterArith.exact_add]
            exact ⟨trivial, bounded.windows, hset _ (by omega),
              bounded_insert bounded.consumed (Nat.zero_le _)⟩
  rw [hsame.1]
  exact ⟨hexact, hsame.2⟩

/-! ## Runs -/

def AsksPositive (timed : TimedOp) : Prop :=
  match timed.op with
  | .reserve _ _ _ amount => 0 < amount
  | _ => True

theorem reserve_u32 {now amount : Nat} {req : QuotaRequest} {rule : RateLimitRule}
    {trigger : LimitTrigger} (unique : Function.Injective env.uuid)
    (inv : LedgerInv env ⟨state, granted, settled⟩) (bounded : Bounded state)
    (positive : 0 < amount)
    (within : ¬ Overcharges env state ⟨now, .reserve req rule trigger amount⟩) :
    LedgerInv env ⟨(reserve .u32 env now state req rule trigger amount).1,
      grantedBy ((reserve .u32 env now state req rule trigger amount).2.map some) ++ granted,
      (expiredLeases now state).reverse ++ settled⟩ ∧
      Bounded (reserve .u32 env now state req rule trigger amount).1 := by
  rcases cleanup_u32 inv bounded now with ⟨heq, hbounded⟩
  have hclean := ledgerInv_cleanup inv now
  have hunused := ledgerInv_unused hclean unique
  have hissued : LedgerInv env ⟨{ cleanupExpiredLocalLeases .exact now state with
      issued := (cleanupExpiredLocalLeases .exact now state).issued + 1 }, granted,
      (expiredLeases now state).reverse ++ settled⟩ :=
    ledgerInv_congr hclean rfl (fun _ => rfl) rfl (Nat.le_succ _)
  have hboundedIssued : Bounded { cleanupExpiredLocalLeases .exact now state with
      issued := (cleanupExpiredLocalLeases .exact now state).issued + 1 } :=
    ⟨hbounded.windows, hbounded.concurrency, hbounded.consumed⟩
  unfold Overcharges windowBefore occupiedBefore at within
  simp only [heq] at within
  unfold reserve
  simp only [heq]
  split
  · exact ⟨hissued, hboundedIssued⟩
  · rename_i hrepresentable
    have hle : now + req.leaseTtl ≤ env.lastInstant := Nat.le_of_not_lt hrepresentable
    cases hresource : trigger.resource with
    | qps =>
        simp only [hresource, hle, true_and] at within
        exact reserveConsumable_u32 hissued hboundedIssued (Nat.lt_succ_self _) hunused positive
          (fun _ => rfl) within
    | token =>
        simp only [hresource, hle, true_and] at within
        exact reserveConsumable_u32 hissued hboundedIssued (Nat.lt_succ_self _) hunused positive
          (fun _ => rfl) within
    | concurrency =>
        simp only [hresource, hle, true_and] at within
        exact reserveConcurrency_u32 hissued hboundedIssued (Nat.lt_succ_self _) hunused within
    | other => exact ⟨hissued, hboundedIssued⟩

theorem validated_consumed {lease : LocalLeaseState} {consumedTotal sequence : Nat}
    (h : validateLocalOperation lease consumedTotal sequence = .ok ()) :
    consumedTotal ≤ lease.reservedAmount := by
  unfold validateLocalOperation at h
  split at h
  · cases h
  · split at h
    · cases h
    · rename_i hinside
      omega

theorem update_u32 {now consumedTotal sequence : Nat} {leaseId : String}
    (inv : LedgerInv env ⟨state, granted, settled⟩) (bounded : Bounded state) :
    updateLease .u32 now state leaseId consumedTotal sequence =
        updateLease .exact now state leaseId consumedTotal sequence ∧
      Bounded (updateLease .exact now state leaseId consumedTotal sequence).1 := by
  rcases cleanup_u32 inv bounded now with ⟨heq, hbounded⟩
  unfold updateLease
  simp only [heq, true_and]
  cases hlookup : (cleanupExpiredLocalLeases .exact now state).leases.lookup leaseId with
  | none => exact hbounded
  | some live =>
      simp only
      split
      · exact hbounded
      · cases hvalid : validateLocalOperation live consumedTotal sequence with
        | error err => exact hbounded
        | ok _ =>
            refine ⟨hbounded.windows, hbounded.concurrency, fun entry hentry => ?_⟩
            rcases AList.mem_rows_modify hentry with ⟨hold, -⟩ | ⟨before, hbefore, rfl⟩
            · exact hbounded.consumed entry hold
            · have hsame := hlookup.symm.trans (AList.lookup_eq_some_iff.mpr hbefore)
              cases hsame
              have hconsumed : consumedTotal ≤ live.reservedAmount := validated_consumed hvalid
              exact hconsumed

theorem finish_u32 {now consumedTotal sequence : Nat} {leaseId : String}
    (inv : LedgerInv env ⟨state, granted, settled⟩) (bounded : Bounded state) :
    finishLease .u32 now state leaseId consumedTotal sequence =
        finishLease .exact now state leaseId consumedTotal sequence ∧
      Bounded (finishLease .exact now state leaseId consumedTotal sequence).1 := by
  rcases cleanup_u32 inv bounded now with ⟨heq, hbounded⟩
  have hclean := ledgerInv_cleanup inv now
  unfold finishLease
  simp only [heq]
  cases htarget : finishTarget (cleanupExpiredLocalLeases .exact now state) leaseId
      consumedTotal sequence with
  | error err => exact ⟨rfl, hbounded⟩
  | ok target =>
      cases target with
      | none => exact ⟨rfl, hbounded⟩
      | some lease =>
          rcases finishTarget_some htarget with ⟨live, hlookup, hvalid, rfl⟩
          have hsettle := removeAndSettle_u32 hclean hbounded hlookup (validated_consumed hvalid)
          simp only [hsettle.1, true_and]
          exact ⟨hsettle.2.windows, hsettle.2.concurrency, hsettle.2.consumed⟩

theorem finishedBy_u32 (inv : LedgerInv env ⟨state, granted, settled⟩) (bounded : Bounded state)
    (timed : TimedOp) : finishedBy .u32 state timed = finishedBy .exact state timed := by
  unfold finishedBy
  rw [(cleanup_u32 inv bounded timed.now).1]

end Runs

/-- The ledger is conserved and its totals fit in words. -/
structure WordInv (env : QuotaEnv) (ledger : Ledger) : Prop extends LedgerInv env ledger where
  bounded : Bounded ledger.state

theorem wordInv_step {env : QuotaEnv} (unique : Function.Injective env.uuid)
    {ledger : Ledger} (timed : TimedOp) (wordInv : WordInv env ledger)
    (positive : AsksPositive timed) (within : ¬ Overcharges env ledger.state timed) :
    WordInv env (ledger.step .u32 env timed) := by
  rcases wordInv with ⟨inv, bounded⟩
  have hexact := ledgerInv_step unique inv timed
  have hfinished := finishedBy_u32 inv bounded timed
  rcases timed with ⟨now, op⟩
  cases op with
  | reserve req rule trigger amount =>
      have hreserve := reserve_u32 unique inv bounded positive within
      exact ⟨hreserve.1, hreserve.2⟩
  | update leaseId consumedTotal sequence =>
      have hupdate : updateLease .u32 now ledger.state leaseId consumedTotal sequence = _ ∧ _ :=
        update_u32 inv bounded
      unfold Ledger.step applyOp at hexact ⊢
      simp only [hupdate.1, hfinished] at hexact ⊢
      exact ⟨hexact, hupdate.2⟩
  | finish leaseId consumedTotal sequence =>
      have hfinish : finishLease .u32 now ledger.state leaseId consumedTotal sequence = _ ∧ _ :=
        finish_u32 inv bounded
      unfold Ledger.step applyOp at hexact ⊢
      simp only [hfinish.1, hfinished] at hexact ⊢
      exact ⟨hexact, hfinish.2⟩

theorem wordInv_empty (env : QuotaEnv) : WordInv env Ledger.empty := by
  refine ⟨ledgerInv_empty env, ?_⟩
  constructor
  · intro key window h
    cases h
  · intro key occupied h
    cases h
  · intro entry h
    cases h

/-- A run without overcharges counts in words as in naturals. -/
theorem wordInv_run {env : QuotaEnv} (unique : Function.Injective env.uuid)
    {ops : List TimedOp}
    (along : Along (Ledger.step .u32 env) (fun ledger timed =>
      AsksPositive timed ∧ ¬ Overcharges env ledger.state timed) Ledger.empty ops) :
    WordInv env (run (Ledger.step .u32 env) Ledger.empty ops) :=
  run_invariant (fun _ timed inv ok => wordInv_step unique timed inv ok.1 ok.2)
    (wordInv_empty env) along

/-! ## The admission law -/

/-- Along every run the admissions are exact at the steps that do not overcharge, and at no
others. In a run of such steps the word counters are the sums over the ledger. -/
theorem admission_exact_along (env : QuotaEnv) (unique : Function.Injective env.uuid)
    (ops : List TimedOp) :
    (Along (Ledger.step .u32 env) (fun ledger timed => AdmissionExact env ledger.state timed)
        Ledger.empty ops ↔
      Along (Ledger.step .u32 env) (fun ledger timed => ¬ Overcharges env ledger.state timed)
        Ledger.empty ops) ∧
    ((∀ timed ∈ ops, AsksPositive timed) →
      Along (Ledger.step .u32 env) (fun ledger timed => ¬ Overcharges env ledger.state timed)
        Ledger.empty ops →
      Conserved (run (Ledger.step .u32 env) Ledger.empty ops) ∧
        Bounded (run (Ledger.step .u32 env) Ledger.empty ops).state) := by
  constructor
  · simp only [admissionExact_iff]
  · intro positive along
    have hinv := wordInv_run unique
      (along_and (along_of_forall fun timed h _ => positive timed h) along)
    exact ⟨hinv.toConserved, hinv.bounded⟩

/-- The run of `ledger_conserved_tokens`, in words. -/
theorem admission_exact_tokens :
    Conserved (run (Ledger.step .u32 .decimal) Ledger.empty
      [⟨0, .reserve (ordersRequest [⟨.token, 60⟩]) (ordersRule tokenTrigger) tokenTrigger 60⟩,
        ⟨1, .reserve (ordersRequest [⟨.token, 60⟩]) (ordersRule tokenTrigger) tokenTrigger 60⟩,
        ⟨2, .finish "0" 40 1⟩,
        ⟨3, .reserve (ordersRequest [⟨.token, 60⟩]) (ordersRule tokenTrigger) tokenTrigger
          60⟩]) := by
  have hwithin : ∀ state now, ¬ Overcharges .decimal state
      ⟨now, .reserve (ordersRequest [⟨.token, 60⟩]) (ordersRule tokenTrigger) tokenTrigger 60⟩ :=
    fun state now => not_overcharges_of_distinct (by decide) (by decide) fun limit h => by cases h
  apply ((admission_exact_along .decimal (fun _ _ h => Text.toString_nat_inj h) _).2 _ _).1
  · simp [AsksPositive]
  · exact ⟨hwithin _ _, hwithin _ _, fun h => h, hwithin _ _, trivial⟩

def doubledTrigger : LimitTrigger := ordersTrigger .token [⟨100, some 1⟩, ⟨100, none⟩] none

/-- Two amounts of one duration charge their window twice: 60 tokens are granted although the
window, with room for 100, then holds 120. -/
theorem shared_window_overcharged :
    ¬ Along (Ledger.step .u32 .decimal) (fun ledger timed =>
      AdmissionExact .decimal ledger.state timed) Ledger.empty
      [⟨0, .reserve (ordersRequest [⟨.token, 60⟩]) (ordersRule doubledTrigger) doubledTrigger
        60⟩] := by
  intro h
  apply (admissionExact_iff _ _ _).mp h.1
  have hovercharges : ∀ before : Nat → QuotaWindow,
      (∀ limit, before (amountDuration limit) = .fresh 0) →
      OverchargesConsumable before doubledTrigger 60 := by
    intro before hfresh
    refine ⟨fun limit hlimit => ?_, ⟨100, some 1⟩, by decide, .inl ⟨by decide, ?_⟩⟩
    · rw [hfresh]
      revert limit
      decide
    · rw [hfresh]
      decide
  exact ⟨by decide, hovercharges _ fun limit =>
    currentWindow_none rfl (one_le_amountDuration limit)⟩

end PoleClient.RateLimit
