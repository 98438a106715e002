import PoleClient.RateLimit.Conservation
import PoleClient.RateLimit.MultiReserve

/-! # What one operation does to leases and windows

Whatever the counter arithmetic, a cleanup removes the expired leases, a
granted reservation adds one lease under the next identifier, a finish removes
one, and windows only rotate when their time has run.
-/

namespace PoleClient.RateLimit

open Lib

/-! ## Windows over time -/

/-- A window later on: in the same generation, or in a later one that began when the window
had run for the seconds of its key. -/
def Aged (keyed : String → Nat → Prop) (now : Nat)
    (before after : String → Option QuotaWindow) : Prop :=
  ∀ key old, before key = some old → ∃ window, after key = some window ∧
    ((window.generation = old.generation ∧ window.startedAt = old.startedAt) ∨
      (old.generation < window.generation ∧ ∃ seconds, keyed key seconds ∧
        old.startedAt + seconds * nanosPerSecond ≤ now))

/-- The windows of both sides agree but for their totals. -/
def SameWindows (before after : String → Option QuotaWindow) : Prop :=
  ∀ key, (after key).map (fun window => (window.generation, window.startedAt)) =
    (before key).map fun window => (window.generation, window.startedAt)

theorem SameWindows.symm {before after : String → Option QuotaWindow}
    (h : SameWindows before after) : SameWindows after before :=
  fun key => (h key).symm

theorem SameWindows.trans {first second third : String → Option QuotaWindow}
    (h₁ : SameWindows first second) (h₂ : SameWindows second third) :
    SameWindows first third :=
  fun key => (h₂ key).trans (h₁ key)

section Windows

variable {keyed : String → Nat → Prop} {now : Nat}

theorem SameWindows.aged {before after : String → Option QuotaWindow}
    (h : SameWindows before after) : Aged keyed now before after := by
  intro key old hold
  have hkey := h key
  rw [hold, Option.map_some] at hkey
  rcases Option.map_eq_some_iff.mp hkey with ⟨window, hwindow, heq⟩
  rcases Prod.ext_iff.mp heq with ⟨hgeneration, hstartedAt⟩
  exact ⟨window, hwindow, .inl ⟨hgeneration, hstartedAt⟩⟩

theorem Aged.trans {earlier : Nat} {first second third : String → Option QuotaWindow}
    (h₁ : Aged keyed earlier first second) (h₂ : Aged keyed now second third)
    (le : earlier ≤ now) : Aged keyed now first third := by
  intro key old hold
  rcases h₁ key old hold with ⟨middle, hmiddle, ⟨hgen, hstart⟩ | ⟨hlater, seconds, hkeyed, hrun⟩⟩
  · rcases h₂ key middle hmiddle with ⟨window, hwindow, hcases⟩
    rw [hgen, hstart] at hcases
    exact ⟨window, hwindow, hcases⟩
  · rcases h₂ key middle hmiddle with ⟨window, hwindow, ⟨hgen, -⟩ | ⟨hmore, -⟩⟩
    · exact ⟨window, hwindow, .inr ⟨by omega, seconds, hkeyed, by omega⟩⟩
    · exact ⟨window, hwindow, .inr ⟨by omega, seconds, hkeyed, by omega⟩⟩

theorem sameWindows_settleWindow (arith : CounterArith) (lease : LocalLeaseState)
    (windows : String → Option QuotaWindow) (r : LocalWindowReservation) :
    SameWindows windows (settleWindow arith lease windows r) := by
  intro key
  rw [settleWindow_apply, Option.map_map]
  apply Option.map_congr
  intro window _
  simp only [Function.comp_apply]
  split <;> rfl

theorem sameWindows_settleWindows (arith : CounterArith) (lease : LocalLeaseState)
    (reservations : List LocalWindowReservation) (windows : String → Option QuotaWindow) :
    SameWindows windows (reservations.foldl (settleWindow arith lease) windows) := by
  induction reservations generalizing windows with
  | nil => exact fun key => rfl
  | cons r reservations ih =>
      exact (sameWindows_settleWindow arith lease windows r).trans (ih _)

theorem sameWindows_removeAndSettle (arith : CounterArith) (state : LocalQuotaState)
    (leaseId : String) (lease : LocalLeaseState) :
    SameWindows state.windows (removeAndSettle arith state leaseId lease).windows := by
  unfold removeAndSettle settleLocalLease
  cases lease.accounting with
  | consumable => exact sameWindows_settleWindows arith lease lease.windows state.windows
  | occupancy => exact fun key => rfl

theorem sameWindows_settleAll (arith : CounterArith) (entries : List (String × LocalLeaseState))
    (state : LocalQuotaState) :
    SameWindows state.windows (entries.foldl (fun state entry =>
      removeAndSettle arith state entry.1 entry.2) state).windows := by
  induction entries generalizing state with
  | nil => exact fun key => rfl
  | cons entry entries ih =>
      exact (sameWindows_removeAndSettle arith state entry.1 entry.2).trans (ih _)

theorem sameWindows_cleanup (arith : CounterArith) (time : Nat) (state : LocalQuotaState) :
    SameWindows state.windows (cleanupExpiredLocalLeases arith time state).windows :=
  sameWindows_settleAll arith (expiredLeases time state) state

theorem sameWindows_chargeWindows (arith : CounterArith) (amount : Nat)
    (reservations : List LocalWindowReservation) (windows : String → Option QuotaWindow) :
    SameWindows windows (reservations.foldl (chargeWindow arith amount) windows) := by
  intro key
  rw [chargeWindows_apply, Option.map_map]
  rfl

/-- A lookup rotates a window only if it has run for the seconds of its key. -/
theorem aged_currentWindow {windows : String → Option QuotaWindow} {key : String} {seconds : Nat}
    (pos : 1 ≤ seconds) (hkeyed : keyed key seconds) :
    Aged keyed now windows
      (Function.update windows key (some (currentWindow now seconds windows key))) := by
  intro other old hold
  by_cases hkey : other = key
  · subst hkey
    refine ⟨_, Function.update_self _ _ _, ?_⟩
    unfold currentWindow QuotaWindow.rotate
    rw [hold, Option.getD_some]
    have hpos : 0 < seconds * nanosPerSecond := Nat.mul_pos pos (by decide)
    by_cases hrun : now - old.startedAt ≥ seconds * nanosPerSecond
    · rw [if_pos hrun]
      exact .inr ⟨Nat.lt_succ_self _, seconds, hkeyed, by omega⟩
    · rw [if_neg hrun]
      exact .inl ⟨rfl, rfl⟩
  · exact ⟨old, by rw [Function.update_of_ne hkey, hold], .inl ⟨rfl, rfl⟩⟩

theorem aged_lookedUp {keyOf : Nat → String} (hkeyed : ∀ seconds, keyed (keyOf seconds) seconds)
    (windows : String → Option QuotaWindow) (limits : List Amount) :
    Aged keyed now windows (lookedUp now keyOf windows limits) := by
  induction limits generalizing windows with
  | nil => exact SameWindows.aged fun key => rfl
  | cons limit limits ih =>
      rw [lookedUp, List.foldl_cons]
      exact (aged_currentWindow (one_le_amountDuration limit) (hkeyed _)).trans (ih _)
        (Nat.le_refl _)

end Windows

/-! ## Operations -/

/-- The key belongs to windows of so many seconds, under some rule of the request. -/
def WindowKey (env : QuotaEnv) (req : QuotaRequest) (key : String) (seconds : Nat) : Prop :=
  ∃ rule trigger, key = quotaCounterKey env.sha256Hex req rule trigger seconds

theorem settleAll_frame (arith : CounterArith) (entries : List (String × LocalLeaseState))
    (state : LocalQuotaState) :
    (entries.foldl (fun state entry => removeAndSettle arith state entry.1 entry.2)
        state).issued = state.issued ∧
      (entries.foldl (fun state entry => removeAndSettle arith state entry.1 entry.2)
        state).completed = state.completed := by
  induction entries generalizing state with
  | nil => exact ⟨rfl, rfl⟩
  | cons entry entries ih =>
      rw [List.foldl_cons, (ih _).1, (ih _).2]
      exact ⟨removeAndSettle_issued, removeAndSettle_completed⟩

@[simp] theorem cleanup_issued (arith : CounterArith) (now : Nat) (state : LocalQuotaState) :
    (cleanupExpiredLocalLeases arith now state).issued = state.issued :=
  (settleAll_frame arith (expiredLeases now state) state).1

theorem cleanup_completed {arith : CounterArith} {now : Nat} {state : LocalQuotaState}
    {leaseId : String}
    (h : (cleanupExpiredLocalLeases arith now state).completed leaseId ≠ none) :
    state.completed leaseId ≠ none := by
  intro hnone
  apply h
  have hfold := (settleAll_frame arith (expiredLeases now state) state).2
  unfold cleanupExpiredLocalLeases
  simp only [hfold, hnone]
  rfl

/-- A granted request quota has an amount to count in. -/
def Configured (trigger : LimitTrigger) : Prop :=
  trigger.resource = .qps → positiveAmounts trigger ≠ []

/-- The lease that a reservation of the trigger starts with. -/
structure InitialLease (trigger : LimitTrigger) (amount : Nat) (lease : LocalLeaseState) :
    Prop where
  configured : Configured trigger
  sequence : lease.sequence = 0
  consumedTotal : lease.consumedTotal = initialConsumedTotal trigger
  reservedAmount : lease.reservedAmount = amount

/-- What a reservation does to the state its cleanup leaves. -/
structure ReserveEffect (env : QuotaEnv) (now : Nat) (clean : LocalQuotaState)
    (req : QuotaRequest) (trigger : LimitTrigger) (amount : Nat) (after : LocalQuotaState)
    (result : Except PoleError LocalReserveResult) : Prop where
  issued : after.issued = clean.issued + 1
  completed : after.completed = clean.completed
  windows : Aged (WindowKey env req) now clean.windows after.windows
  refused : (∀ backend, result ≠ .ok (.reserved backend)) → after.leases = clean.leases
  granted : ∀ backend, result = .ok (.reserved backend) →
    backend.leaseId = env.uuid clean.issued ∧
    quotaResource trigger.resource = some backend.resource ∧
    ∃ lease, InitialLease trigger amount lease ∧
      after.leases = clean.leases.insert backend.leaseId lease

theorem reserveConsumable_effect (arith : CounterArith) (env : QuotaEnv) (now : Nat)
    (state : LocalQuotaState) (req : QuotaRequest) (rule : RateLimitRule) (trigger : LimitTrigger)
    (amount expiresAt : Nat) (resource : QuotaResource)
    (hresource : quotaResource trigger.resource = some resource) :
    ReserveEffect env now state req trigger amount
      (reserveConsumable arith env now { state with issued := state.issued + 1 } req rule trigger
        amount expiresAt ⟨env.uuid state.issued, resource⟩).1
      (.ok (reserveConsumable arith env now { state with issued := state.issued + 1 } req rule
        trigger amount expiresAt ⟨env.uuid state.issued, resource⟩).2) := by
  have hinj : Function.Injective (quotaCounterKey env.sha256Hex req rule trigger) :=
    fun _ _ h => quotaCounterKey_inj.mp h
  have hkeyed : ∀ seconds, WindowKey env req (quotaCounterKey env.sha256Hex req rule trigger
      seconds) seconds := fun seconds => ⟨rule, trigger, rfl⟩
  unfold reserveConsumable
  split
  · exact ⟨rfl, rfl, SameWindows.aged fun key => rfl, fun _ => rfl, fun backend h => by cases h⟩
  · rename_i hsome
    rcases checkWindows_spec now hinj arith amount state.windows (positiveAmounts trigger) with
      ⟨-, hcheck⟩ | ⟨-, visited, -, hcheck⟩
    · simp only [hcheck]
      refine ⟨rfl, rfl, ?_, fun h => absurd rfl (h _), fun backend h => ?_⟩
      · exact (aged_lookedUp hkeyed state.windows (positiveAmounts trigger)).trans
          (sameWindows_chargeWindows arith amount _ _).aged (Nat.le_refl _)
      · cases h
        exact ⟨rfl, hresource, _, ⟨fun _ h => hsome (by rw [h]; rfl), rfl, rfl, rfl⟩, rfl⟩
    · simp only [hcheck]
      exact ⟨rfl, rfl, aged_lookedUp hkeyed state.windows visited, fun _ => rfl,
        fun backend h => by cases h⟩

theorem reserveConcurrency_effect (arith : CounterArith) (env : QuotaEnv) (now : Nat)
    (state : LocalQuotaState) (req : QuotaRequest) (rule : RateLimitRule) (trigger : LimitTrigger)
    (amount expiresAt : Nat) (hresource : trigger.resource = .concurrency) :
    ReserveEffect env now state req trigger amount
      (reserveConcurrency arith env { state with issued := state.issued + 1 } req rule trigger
        amount expiresAt ⟨env.uuid state.issued, .concurrency⟩).1
      (.ok (reserveConcurrency arith env { state with issued := state.issued + 1 } req rule
        trigger amount expiresAt ⟨env.uuid state.issued, .concurrency⟩).2) := by
  have hsame : Aged (WindowKey env req) now state.windows state.windows :=
    SameWindows.aged fun key => rfl
  have hinitial : initialConsumedTotal trigger = 0 := by
    unfold initialConsumedTotal
    rw [hresource]
  unfold reserveConcurrency
  cases trigger.concurrencyAmount with
  | none => exact ⟨rfl, rfl, hsame, fun _ => rfl, fun backend h => by cases h⟩
  | some limit =>
      simp only
      split
      · exact ⟨rfl, rfl, hsame, fun _ => rfl, fun backend h => by cases h⟩
      · split
        · exact ⟨rfl, rfl, hsame, fun _ => rfl, fun backend h => by cases h⟩
        · refine ⟨rfl, rfl, hsame, fun h => absurd rfl (h _), fun backend h => ?_⟩
          cases h
          have hconfigured : Configured trigger := fun h => by rw [hresource] at h; cases h
          exact ⟨rfl, congrArg quotaResource hresource, _,
            ⟨hconfigured, rfl, hinitial.symm, rfl⟩, rfl⟩

theorem reserve_effect (arith : CounterArith) (env : QuotaEnv) (now : Nat)
    (state : LocalQuotaState) (req : QuotaRequest) (rule : RateLimitRule) (trigger : LimitTrigger)
    (amount : Nat) :
    ReserveEffect env now (cleanupExpiredLocalLeases arith now state) req trigger amount
      (reserve arith env now state req rule trigger amount).1
      (reserve arith env now state req rule trigger amount).2 := by
  have hsame : Aged (WindowKey env req) now (cleanupExpiredLocalLeases arith now state).windows
      (cleanupExpiredLocalLeases arith now state).windows := SameWindows.aged fun key => rfl
  unfold reserve
  simp only
  split
  · exact ⟨rfl, rfl, hsame, fun _ => rfl, fun backend h => by cases h⟩
  · cases hresource : trigger.resource with
    | qps =>
        exact reserveConsumable_effect arith env now (cleanupExpiredLocalLeases arith now state)
          req rule trigger amount (now + req.leaseTtl) .qps (congrArg quotaResource hresource)
    | token =>
        exact reserveConsumable_effect arith env now (cleanupExpiredLocalLeases arith now state)
          req rule trigger amount (now + req.leaseTtl) .token (congrArg quotaResource hresource)
    | concurrency =>
        exact reserveConcurrency_effect arith env now (cleanupExpiredLocalLeases arith now state)
          req rule trigger amount (now + req.leaseTtl) hresource
    | other => exact ⟨rfl, rfl, hsame, fun _ => rfl, fun backend h => by cases h⟩

structure UpdateEffect (leaseId : String) (consumedTotal sequence : Nat)
    (clean after : LocalQuotaState) : Prop where
  issued : after.issued = clean.issued
  completed : after.completed = clean.completed
  missing : clean.leases.lookup leaseId = none → after.leases = clean.leases
  leases : after.leases = clean.leases ∨ after.leases = clean.leases.modify leaseId fun lease =>
    { lease with consumedTotal, sequence }

theorem updateLease_effect (arith : CounterArith) (now : Nat) (state : LocalQuotaState)
    (leaseId : String) (consumedTotal sequence : Nat) :
    UpdateEffect leaseId consumedTotal sequence (cleanupExpiredLocalLeases arith now state)
      (updateLease arith now state leaseId consumedTotal sequence).1 := by
  unfold updateLease
  simp only
  cases hlookup : (cleanupExpiredLocalLeases arith now state).leases.lookup leaseId with
  | none => exact ⟨rfl, rfl, fun _ => rfl, .inl rfl⟩
  | some lease =>
      have hlive : (cleanupExpiredLocalLeases arith now state).leases.lookup leaseId ≠ none := by
        rw [hlookup]
        exact Option.some_ne_none lease
      simp only
      split
      · exact ⟨rfl, rfl, fun h => absurd h hlive, .inl rfl⟩
      · split
        · exact ⟨rfl, rfl, fun h => absurd h hlive, .inl rfl⟩
        · exact ⟨rfl, rfl, fun h => absurd h hlive, .inr rfl⟩

structure FinishEffect (leaseId : String) (clean after : LocalQuotaState)
    (target : Except PoleError (Option LocalLeaseState)) : Prop where
  issued : after.issued = clean.issued
  windows : SameWindows clean.windows after.windows
  completed : ∀ other, after.completed other ≠ none → clean.completed other ≠ none ∨
    (other = leaseId ∧ ∃ lease, target = .ok (some lease))
  kept : (∀ lease, target ≠ .ok (some lease)) → after.leases = clean.leases
  removed : ∀ lease, target = .ok (some lease) → after.leases = clean.leases.erase leaseId

theorem finishLease_effect (arith : CounterArith) (now : Nat) (state : LocalQuotaState)
    (leaseId : String) (consumedTotal sequence : Nat) :
    FinishEffect leaseId (cleanupExpiredLocalLeases arith now state)
      (finishLease arith now state leaseId consumedTotal sequence).1
      (finishTarget (cleanupExpiredLocalLeases arith now state) leaseId consumedTotal
        sequence) := by
  unfold finishLease
  simp only
  cases htarget : finishTarget (cleanupExpiredLocalLeases arith now state) leaseId consumedTotal
      sequence with
  | error err =>
      exact ⟨rfl, fun key => rfl, fun other h => .inl h, fun _ => rfl, fun lease h => by cases h⟩
  | ok target =>
      cases target with
      | none =>
          exact ⟨rfl, fun key => rfl, fun other h => .inl h, fun _ => rfl,
            fun lease h => by cases h⟩
      | some lease =>
          simp only
          refine ⟨removeAndSettle_issued, sameWindows_removeAndSettle arith _ leaseId lease,
            fun other h => ?_, fun h => absurd rfl (h lease), fun _ _ => removeAndSettle_leases⟩
          by_cases hother : other = leaseId
          · exact .inr ⟨hother, lease, rfl⟩
          · simp only [Function.update_of_ne hother, removeAndSettle_completed] at h
            exact .inl h

end PoleClient.RateLimit
