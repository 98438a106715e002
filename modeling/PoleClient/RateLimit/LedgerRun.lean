import PoleClient.RateLimit.Conservation

/-! # Runs of the quota ledger

Every operation is a cleanup followed by at most one reservation, update or
settlement, so the sums over the ledger hold after every run. From them follows
that no settlement takes more out of a total than the total holds.
-/

namespace PoleClient.RateLimit

open Lib

/-! ## Operations keep the ledger -/

section Operations

variable {env : QuotaEnv} {state : LocalQuotaState} {granted : List String}
variable {settled : List (String × LocalLeaseState)}

/-- All reservations of one lease on a key name the generation of that key's window. -/
theorem countP_reservationFor {now : Nat} {keyOf : Nat → String}
    (inj : Function.Injective keyOf) {windows : String → Option QuotaWindow}
    {limits : List Amount} {key : String} {window : QuotaWindow}
    (h : lookedUp now keyOf windows limits key = some window) :
    ((limits.map (reservationFor now keyOf windows)).countP fun r => r.key = key) =
      (limits.map (reservationFor now keyOf windows)).count ⟨key, window.generation⟩ := by
  rw [List.count]
  apply List.countP_congr
  intro r hr
  rcases List.mem_map.mp hr with ⟨limit, hlimit, rfl⟩
  have hwindow := lookedUp_of_mem now inj windows hlimit
  simp only [reservationFor, beq_iff_eq, LocalWindowReservation.mk.injEq]
  constructor
  · intro hkey
    have hkey := of_decide_eq_true hkey
    rw [hkey, h] at hwindow
    exact ⟨hkey, by rw [Option.some.inj hwindow, hkey]⟩
  · exact fun hkey => decide_eq_true hkey.1

theorem ledgerInv_reserveConsumable {n : Nat}
    (inv : LedgerInv env ⟨state, granted, settled⟩) (hn : n < state.issued)
    (unused : env.uuid n ∉ state.leases.keys ++ settled.map Prod.fst)
    (now : Nat) (req : QuotaRequest) (rule : RateLimitRule) (trigger : LimitTrigger)
    (amount expiresAt : Nat) (resource : QuotaResource) :
    LedgerInv env ⟨(reserveConsumable .exact env now state req rule trigger amount expiresAt
        ⟨env.uuid n, resource⟩).1,
      grantedBy (.ok (some (reserveConsumable .exact env now state req rule trigger amount
        expiresAt ⟨env.uuid n, resource⟩).2)) ++ granted, settled⟩ := by
  have hinj : Function.Injective (quotaCounterKey env.sha256Hex req rule trigger) :=
    fun _ _ h => quotaCounterKey_inj.mp h
  unfold reserveConsumable
  split
  · exact inv
  · rcases checkWindows_spec now hinj .exact amount state.windows (positiveAmounts trigger) with
      ⟨-, hcheck⟩ | ⟨-, visited, -, hcheck⟩
    · rw [hcheck]
      have hadvanced := ledgerInv_advance inv (advanced_lookedUp now
        (quotaCounterKey env.sha256Hex req rule trigger) state.windows (positiveAmounts trigger))
      apply ledgerInv_reserve hadvanced hn unused
      · intro key
        rw [chargeWindows_apply]
        simp only
        cases hwindow : lookedUp now (quotaCounterKey env.sha256Hex req rule trigger)
            state.windows (positiveAmounts trigger) key with
        | none => rfl
        | some window =>
            simp only [Option.map_some, CounterArith.exact_add_iterate,
              countP_reservationFor hinj hwindow]
            rfl
      · intro key
        simp [occupies]
      · intro key generation hbindings
        have hr := List.count_pos_iff.mp (Nat.pos_of_ne_zero hbindings)
        rcases List.mem_map.mp hr with ⟨limit, hlimit, heq⟩
        cases heq
        exact ⟨_, lookedUp_of_mem now hinj state.windows hlimit, Nat.le_refl _⟩
    · rw [hcheck]
      exact ledgerInv_advance inv (advanced_lookedUp now _ state.windows visited)

theorem ledgerInv_reserveConcurrency {n : Nat}
    (inv : LedgerInv env ⟨state, granted, settled⟩) (hn : n < state.issued)
    (unused : env.uuid n ∉ state.leases.keys ++ settled.map Prod.fst)
    (req : QuotaRequest) (rule : RateLimitRule) (trigger : LimitTrigger)
    (amount expiresAt : Nat) (resource : QuotaResource) :
    LedgerInv env ⟨(reserveConcurrency .exact env state req rule trigger amount expiresAt
        ⟨env.uuid n, resource⟩).1,
      grantedBy (.ok (some (reserveConcurrency .exact env state req rule trigger amount
        expiresAt ⟨env.uuid n, resource⟩).2)) ++ granted, settled⟩ := by
  unfold reserveConcurrency
  cases trigger.concurrencyAmount with
  | none => exact inv
  | some limit =>
      simp only
      split
      · exact inv
      · split
        · -- the refused reservation leaves a counter at its default
          apply ledgerInv_congr inv
          case windows => rfl
          case leases => rfl
          case issued => exact Nat.le_refl _
          case concurrency =>
            intro key
            by_cases hkey : key = concurrencyCounterKey env.sha256Hex req rule trigger
            · subst hkey
              simp
            · simp [Function.update_of_ne hkey]
        · refine ledgerInv_reserve inv hn unused (fun key => ?_) (fun key => ?_) ?_
          · simp [bindings]
          · by_cases hkey : key = concurrencyCounterKey env.sha256Hex req rule trigger
            · subst hkey
              simp [occupies, Nat.add_comm]
            · have hne : ¬ concurrencyCounterKey env.sha256Hex req rule trigger = key :=
                fun h => hkey h.symm
              simp [occupies, Function.update_of_ne hkey, hne]
          · exact fun key generation hbindings => absurd rfl hbindings

theorem ledgerInv_reserve_op (inv : LedgerInv env ⟨state, granted, settled⟩)
    (unique : Function.Injective env.uuid) (now : Nat) (req : QuotaRequest)
    (rule : RateLimitRule) (trigger : LimitTrigger) (amount : Nat) :
    LedgerInv env ⟨(reserve .exact env now state req rule trigger amount).1,
      grantedBy ((reserve .exact env now state req rule trigger amount).2.map some) ++ granted,
      (expiredLeases now state).reverse ++ settled⟩ := by
  have hclean := ledgerInv_cleanup inv now
  have hunused := ledgerInv_unused hclean unique
  have hissued : LedgerInv env ⟨{ cleanupExpiredLocalLeases .exact now state with
      issued := (cleanupExpiredLocalLeases .exact now state).issued + 1 }, granted,
      (expiredLeases now state).reverse ++ settled⟩ :=
    ledgerInv_congr hclean rfl (fun _ => rfl) rfl (Nat.le_succ _)
  unfold reserve
  simp only
  split
  · exact hissued
  · cases trigger.resource with
    | qps => exact ledgerInv_reserveConsumable hissued (Nat.lt_succ_self _) hunused ..
    | token => exact ledgerInv_reserveConsumable hissued (Nat.lt_succ_self _) hunused ..
    | concurrency =>
        exact ledgerInv_reserveConcurrency hissued (Nat.lt_succ_self _) hunused ..
    | other => exact hissued

theorem ledgerInv_modify (inv : LedgerInv env ⟨state, granted, settled⟩) {leaseId : String}
    {live : LocalLeaseState} (h : state.leases.lookup leaseId = some live)
    (consumedTotal sequence : Nat) :
    LedgerInv env ⟨{ state with leases := state.leases.modify leaseId fun lease =>
      { lease with consumedTotal, sequence } }, granted, settled⟩ := by
  have hsum : ∀ f : LocalLeaseState → Nat,
      f { live with consumedTotal, sequence } = f live →
      (state.leases.modify leaseId fun lease => { lease with consumedTotal, sequence }).sum f =
        state.leases.sum f := by
    intro f hf
    have := AList.sum_modify_add f (fun lease => { lease with consumedTotal, sequence }) h
    omega
  constructor
  · refine ⟨fun key window hwindow => ?_, inv.committed, fun key => ?_, ?_, ?_⟩
    · refine (inv.reserved key window hwindow).trans (hsum _ ?_).symm
      rfl
    · refine (inv.occupancy key).trans (hsum _ ?_).symm
      rfl
    · simpa only [AList.keys_modify] using inv.once
    · simpa only [AList.keys_modify] using inv.granted
  · refine ⟨fun lease hlease key generation hbindings => ?_, ?_⟩
    · rcases hlease with ⟨id, hid⟩
      rcases List.mem_append.mp hid with hlive | hsettled
      · rcases AList.mem_rows_modify hlive with ⟨hold, -⟩ | ⟨before, hbefore, heq⟩
        · exact inv.bound lease ⟨id, List.mem_append_left _ hold⟩ key generation hbindings
        · cases heq
          exact inv.bound before ⟨leaseId, List.mem_append_left _ hbefore⟩ key generation hbindings
      · exact inv.bound lease ⟨id, List.mem_append_right _ hsettled⟩ key generation hbindings
    · simpa only [AList.keys_modify] using inv.issued

theorem ledgerInv_update_op (inv : LedgerInv env ⟨state, granted, settled⟩) (now : Nat)
    (leaseId : String) (consumedTotal sequence : Nat) :
    LedgerInv env ⟨(updateLease .exact now state leaseId consumedTotal sequence).1, granted,
      (expiredLeases now state).reverse ++ settled⟩ := by
  have hclean := ledgerInv_cleanup inv now
  unfold updateLease
  cases hlookup : (cleanupExpiredLocalLeases .exact now state).leases.lookup leaseId with
  | none =>
      simp only [hlookup]
      exact hclean
  | some live =>
      simp only [hlookup]
      split
      · exact hclean
      · cases validateLocalOperation live consumedTotal sequence with
        | error err => exact hclean
        | ok _ => exact ledgerInv_modify hclean hlookup consumedTotal sequence

theorem finishTarget_some {leaseId : String} {consumedTotal sequence : Nat}
    {lease : LocalLeaseState}
    (h : finishTarget state leaseId consumedTotal sequence = .ok (some lease)) :
    ∃ live, state.leases.lookup leaseId = some live ∧
      validateLocalOperation live consumedTotal sequence = .ok () ∧
      lease = { live with consumedTotal } := by
  unfold finishTarget at h
  split at h
  · cases h
  · cases hlookup : state.leases.lookup leaseId with
    | none => simp only [hlookup] at h; cases h
    | some live =>
        simp only [hlookup] at h
        cases hvalid : validateLocalOperation live consumedTotal sequence with
        | error err => simp only [hvalid] at h; cases h
        | ok _ =>
            simp only [hvalid] at h
            cases h
            exact ⟨live, rfl, hvalid, rfl⟩

theorem ledgerInv_finish_op (inv : LedgerInv env ⟨state, granted, settled⟩) (now : Nat)
    (leaseId : String) (consumedTotal sequence : Nat) :
    LedgerInv env ⟨(finishLease .exact now state leaseId consumedTotal sequence).1, granted,
      finishedBy .exact state ⟨now, .finish leaseId consumedTotal sequence⟩ ++
        ((expiredLeases now state).reverse ++ settled)⟩ := by
  have hclean := ledgerInv_cleanup inv now
  unfold finishLease finishedBy
  cases htarget : finishTarget (cleanupExpiredLocalLeases .exact now state) leaseId
      consumedTotal sequence with
  | error err =>
      simp only [htarget]
      exact hclean
  | ok target =>
      cases target with
      | none =>
          simp only [htarget]
          exact hclean
      | some lease =>
          simp only [htarget]
          rcases finishTarget_some htarget with ⟨live, hlookup, -, rfl⟩
          exact ledgerInv_congr (ledgerInv_settle hclean hlookup consumedTotal) rfl
            (fun _ => rfl) rfl (Nat.le_refl _)

end Operations

/-! ## Runs -/

theorem ledgerInv_empty (env : QuotaEnv) : LedgerInv env Ledger.empty := by
  constructor
  · constructor
    · intro key window h
      cases h
    · intro key window h
      cases h
    · exact fun key => rfl
    · exact List.nodup_nil
    · exact fun leaseId => Iff.rfl
  · constructor
    · rintro lease ⟨id, hid⟩
      cases hid
    · intro id hid
      cases hid

theorem ledgerInv_step {env : QuotaEnv} (unique : Function.Injective env.uuid) {ledger : Ledger}
    (inv : LedgerInv env ledger) (timed : TimedOp) :
    LedgerInv env (ledger.step .exact env timed) := by
  rcases timed with ⟨now, op⟩
  cases op with
  | reserve req rule trigger amount =>
      exact ledgerInv_reserve_op inv unique now req rule trigger amount
  | update leaseId consumedTotal sequence =>
      have hupdate := ledgerInv_update_op inv now leaseId consumedTotal sequence
      unfold Ledger.step applyOp
      cases hresult : (updateLease .exact now ledger.state leaseId consumedTotal sequence).2 with
      | error err => simpa [hresult, Except.map, grantedBy, finishedBy] using hupdate
      | ok _ => simpa [hresult, Except.map, grantedBy, finishedBy] using hupdate
  | finish leaseId consumedTotal sequence =>
      have hfinish := ledgerInv_finish_op inv now leaseId consumedTotal sequence
      unfold Ledger.step applyOp
      cases hresult : (finishLease .exact now ledger.state leaseId consumedTotal sequence).2 with
      | error err => simpa [hresult, Except.map, grantedBy] using hfinish
      | ok _ => simpa [hresult, Except.map, grantedBy] using hfinish

theorem ledgerInv_run {env : QuotaEnv} (unique : Function.Injective env.uuid)
    (ops : List TimedOp) :
    LedgerInv env (run (Ledger.step .exact env) Ledger.empty ops) :=
  run_preserves (LedgerInv env) (fun _ timed inv => ledgerInv_step unique inv timed) ops
    (ledgerInv_empty env)

/-! ## Subtractions -/

/-- The window of a reservation, if of its generation, has the lease's amount reserved. -/
def CoversReservation (lease : LocalLeaseState) (windows : String → Option QuotaWindow)
    (r : LocalWindowReservation) : Prop :=
  ∀ window, windows r.key = some window → window.generation = r.generation →
    lease.reservedAmount ≤ window.reserved

/-- No subtraction of `settleLocalLease` truncates. -/
def SettlesExactly (state : LocalQuotaState) (lease : LocalLeaseState) : Prop :=
  match lease.accounting with
  | .consumable =>
      Along (settleWindow .exact lease) (CoversReservation lease) state.windows lease.windows
  | .occupancy => ∀ key occupied, lease.concurrencyKey = some key →
      state.concurrency key = some occupied → lease.reservedAmount ≤ occupied

/-- No subtraction of an operation truncates, in its cleanup or in its own settlement. -/
def OperatesExactly (state : LocalQuotaState) (timed : TimedOp) : Prop :=
  Along (fun state entry => removeAndSettle .exact state entry.1 entry.2)
    (fun state entry => SettlesExactly state entry.2) state (expiredLeases timed.now state) ∧
  ∀ entry ∈ finishedBy .exact state timed,
    SettlesExactly (cleanupExpiredLocalLeases .exact timed.now state) entry.2

theorem along_settleWindow {lease : LocalLeaseState}
    {reservations : List LocalWindowReservation} {windows : String → Option QuotaWindow}
    (covered : ∀ key window, windows key = some window →
      reservations.count ⟨key, window.generation⟩ * lease.reservedAmount ≤ window.reserved) :
    Along (settleWindow .exact lease) (CoversReservation lease) windows reservations := by
  induction reservations generalizing windows with
  | nil => trivial
  | cons r reservations ih =>
      constructor
      · intro window hwindow hgeneration
        have hcovered := covered r.key window hwindow
        rw [hgeneration, List.count_cons_self, Nat.succ_mul] at hcovered
        omega
      · apply ih
        intro key window hwindow
        rw [settleWindow_apply] at hwindow
        rcases Option.map_eq_some_iff.mp hwindow with ⟨before, hbefore, heq⟩
        have hcovered := covered key before hbefore
        by_cases hr : r = ⟨key, before.generation⟩
        · rw [if_pos hr] at heq
          subst heq
          rw [hr, List.count_cons_self, Nat.succ_mul] at hcovered
          simp only
          omega
        · rw [if_neg hr] at heq
          subst heq
          rwa [List.count_cons_of_ne hr] at hcovered

section Subtractions

variable {env : QuotaEnv} {state : LocalQuotaState} {granted : List String}
variable {settled : List (String × LocalLeaseState)}

/-- The sums over the ledger include what a live lease holds. -/
theorem settlesExactly_of_live (inv : LedgerInv env ⟨state, granted, settled⟩) {leaseId : String}
    {live : LocalLeaseState} (h : state.leases.lookup leaseId = some live) (consumedTotal : Nat) :
    SettlesExactly state { live with consumedTotal } := by
  unfold SettlesExactly
  cases haccounting : live.accounting with
  | consumable =>
      apply along_settleWindow
      intro key window hwindow
      have hsum := AList.sum_erase_add
        (fun lease => bindings lease key window.generation * lease.reservedAmount) h
      have hreserved := inv.reserved key window hwindow
      simp only [reservedFor, bindings, haccounting] at hreserved hsum ⊢
      omega
  | occupancy =>
      intro key occupied hkey hoccupied
      have hsum := AList.sum_erase_add (fun lease => occupies lease key) h
      have hoccupancy := inv.occupancy key
      have hheld : occupies live key = live.reservedAmount := by
        have hkey : live.concurrencyKey = some key := hkey
        simp [occupies, haccounting, hkey]
      simp only [occupancyFor] at hoccupancy hsum ⊢
      rw [hoccupied, Option.getD_some] at hoccupancy
      omega

theorem along_settleAll {entries : List (String × LocalLeaseState)}
    (inv : LedgerInv env ⟨state, granted, settled⟩) (distinct : (entries.map Prod.fst).Nodup)
    (live : ∀ entry ∈ entries, state.leases.lookup entry.1 = some entry.2) :
    Along (fun state entry => removeAndSettle .exact state entry.1 entry.2)
      (fun state entry => SettlesExactly state entry.2) state entries := by
  induction entries generalizing state settled with
  | nil => trivial
  | cons entry entries ih =>
      rcases List.nodup_cons.mp distinct with ⟨hnot, hdistinct⟩
      have hentry := live entry List.mem_cons_self
      refine ⟨settlesExactly_of_live inv hentry entry.2.consumedTotal, ?_⟩
      exact ih (ledgerInv_settle inv hentry entry.2.consumedTotal) hdistinct
        (live_after_settle hnot live)

theorem operatesExactly (inv : LedgerInv env ⟨state, granted, settled⟩) (timed : TimedOp) :
    OperatesExactly state timed := by
  refine ⟨along_settleAll inv (expiredLeases_distinct timed.now state)
    fun entry h => expiredLeases_lookup h, fun entry hentry => ?_⟩
  have hclean := ledgerInv_cleanup inv timed.now
  unfold finishedBy at hentry
  cases hop : timed.op with
  | reserve req rule trigger amount => simp [hop] at hentry
  | update leaseId consumedTotal sequence => simp [hop] at hentry
  | finish leaseId consumedTotal sequence =>
      cases htarget : finishTarget (cleanupExpiredLocalLeases .exact timed.now state) leaseId
          consumedTotal sequence with
      | error err => simp [hop, htarget] at hentry
      | ok target =>
          cases target with
          | none => simp [hop, htarget] at hentry
          | some lease =>
              simp only [hop, htarget, List.mem_singleton] at hentry
              rcases finishTarget_some htarget with ⟨live, hlookup, -, rfl⟩
              rw [hentry]
              exact settlesExactly_of_live hclean hlookup consumedTotal

end Subtractions

/-! ## The ledger law -/

/-- Settling a lease that is bound to other generations only leaves the window as it is. -/
theorem settle_otherGeneration {state : LocalQuotaState} {leaseId : String}
    {lease : LocalLeaseState} {key : String} {window : QuotaWindow}
    (hwindow : state.windows key = some window)
    (other : ∀ r ∈ lease.windows, r.key = key → r.generation ≠ window.generation) :
    (removeAndSettle .exact state leaseId lease).windows key = some window := by
  have hbindings : bindings lease key window.generation = 0 := by
    unfold bindings
    cases lease.accounting with
    | consumable => exact List.count_eq_zero.mpr fun h => other _ h rfl rfl
    | occupancy => rfl
  rw [removeAndSettle_windows, hwindow, Option.map_some, hbindings]
  simp

/-- An operation that fails does no more than its cleanup and, perhaps, draw an identifier. -/
theorem applyOp_error {arith : CounterArith} {env : QuotaEnv} {state : LocalQuotaState}
    {timed : TimedOp} {err : PoleError} (h : (applyOp arith env state timed).2 = .error err) :
    (applyOp arith env state timed).1 =
      { cleanupExpiredLocalLeases arith timed.now state with
        issued := (applyOp arith env state timed).1.issued } := by
  rcases timed with ⟨now, op⟩
  cases op with
  | reserve req rule trigger amount =>
      unfold applyOp reserve at h ⊢
      simp only at h ⊢
      split
      · rfl
      · rename_i hrepresentable
        rw [if_neg hrepresentable] at h
        cases hresource : trigger.resource <;> simp [hresource, Except.map] at h
  | update leaseId consumedTotal sequence =>
      unfold applyOp updateLease at h ⊢
      simp only at h ⊢
      cases hlookup : (cleanupExpiredLocalLeases arith now state).leases.lookup leaseId with
      | none => rfl
      | some live =>
          simp only [hlookup] at h ⊢
          split
          · rfl
          · rename_i hnew
            rw [if_neg hnew] at h
            cases hvalid : validateLocalOperation live consumedTotal sequence with
            | error err => rfl
            | ok _ => simp [hvalid, Except.map] at h
  | finish leaseId consumedTotal sequence =>
      unfold applyOp finishLease at h ⊢
      simp only at h ⊢
      cases htarget : finishTarget (cleanupExpiredLocalLeases arith now state) leaseId
          consumedTotal sequence with
      | error err => rfl
      | ok target =>
          cases target with
          | none => rfl
          | some lease => simp [htarget, Except.map] at h

/-- After every run the totals are the sums over the ledger, with every granted lease live or
settled, once. The next operation changes nothing beyond its cleanup if it fails, subtracts
exactly, leaves no lease live past its expiry, and no settlement touches the window of another
generation. -/
theorem ledger_conserved (env : QuotaEnv) (unique : Function.Injective env.uuid)
    (ops : List TimedOp) :
    Conserved (run (Ledger.step .exact env) Ledger.empty ops) ∧
      ∀ timed : TimedOp, ∀ state,
        state = (run (Ledger.step .exact env) Ledger.empty ops).state →
        (∀ err, (applyOp .exact env state timed).2 = .error err →
          (applyOp .exact env state timed).1 =
            { cleanupExpiredLocalLeases .exact timed.now state with
              issued := (applyOp .exact env state timed).1.issued }) ∧
        OperatesExactly state timed ∧
        (∀ leaseId lease,
          (cleanupExpiredLocalLeases .exact timed.now state).leases.lookup leaseId = some lease →
          timed.now < lease.expiresAt) ∧
        ∀ (before : LocalQuotaState) leaseId (lease : LocalLeaseState) key window,
          before.windows key = some window →
          (∀ r ∈ lease.windows, r.key = key → r.generation ≠ window.generation) →
          (removeAndSettle .exact before leaseId lease).windows key = some window := by
  have hinv := ledgerInv_run unique ops
  refine ⟨hinv.toConserved, fun timed state hstate => ?_⟩
  subst hstate
  refine ⟨fun err h => applyOp_error h, operatesExactly hinv timed,
    fun leaseId lease h => (mem_cleanup.mp (AList.lookup_eq_some_iff.mp h)).2,
    fun before leaseId lease key window hwindow other => settle_otherGeneration hwindow other⟩

/-- Identifiers and digests in decimal and in clear, for concrete runs. -/
def QuotaEnv.decimal : QuotaEnv := ⟨toString, id, 2 ^ 64⟩

def ordersRequest (quotas : List QuotaAmount) : QuotaRequest :=
  ⟨"prod", "orders", "Pay", fun _ _ => none, quotas, 30 * nanosPerSecond⟩

def ordersTrigger (resource : LimitResource) (amounts : List Amount)
    (concurrencyAmount : Option UInt32) : LimitTrigger :=
  ⟨"pay", false, resource, amounts, concurrencyAmount, [], [], .failoverLocal⟩

def ordersRule (trigger : LimitTrigger) : RateLimitRule :=
  ⟨"orders", 0, false, .localCount, [trigger], none⟩

def tokenTrigger : LimitTrigger := ordersTrigger .token [⟨100, some 1⟩] none

/-- Of three reservations of 60 out of 100 tokens the second is refused, and the third fits
once the first has settled 40. -/
theorem ledger_conserved_tokens :
    Conserved (run (Ledger.step .exact .decimal) Ledger.empty
      [⟨0, .reserve (ordersRequest [⟨.token, 60⟩]) (ordersRule tokenTrigger) tokenTrigger 60⟩,
        ⟨1, .reserve (ordersRequest [⟨.token, 60⟩]) (ordersRule tokenTrigger) tokenTrigger 60⟩,
        ⟨2, .finish "0" 40 1⟩,
        ⟨3, .reserve (ordersRequest [⟨.token, 60⟩]) (ordersRule tokenTrigger) tokenTrigger 60⟩]) :=
  (ledger_conserved .decimal (fun _ _ h => Text.toString_nat_inj h) _).1

end PoleClient.RateLimit
