import PoleClient.RateLimit.Windows
import PoleClient.RateLimit.Ledger

/-! # Admission on 32-bit counters

A reservation checks every amount of its trigger before it charges any, and
charges the window of an amount once for each amount counted in it. It is exact
unless it is granted although a window shared by several amounts has no room
for all its charges, or although a limit at the largest word is passed.
-/

namespace PoleClient.RateLimit

open Lib

/-! ## Exactness -/

/-- How many amounts of the trigger are counted in the window of this one. -/
def sharers (trigger : LimitTrigger) (limit : Amount) : Nat :=
  (positiveAmounts trigger).countP fun other => amountDuration other = amountDuration limit

/-- Granted: every window is charged in full and within its limit. Refused: some window would
not be. `before` is the window of a duration as the reservation finds it. -/
def ConsumableExact (keyOf : Nat → String) (before : Nat → QuotaWindow) (trigger : LimitTrigger)
    (amount : Nat) (after : LocalQuotaState) (result : LocalReserveResult) : Prop :=
  match result with
  | .reserved _ => ∀ limit ∈ positiveAmounts trigger, ∃ window,
      after.windows (keyOf (amountDuration limit)) = some window ∧
      window.reserved =
        (before (amountDuration limit)).reserved + sharers trigger limit * amount ∧
      window.committed + window.reserved ≤ limit.maxAmount.toNat
  | .rejected _ => ∃ limit ∈ positiveAmounts trigger,
      (before (amountDuration limit)).committed + (before (amountDuration limit)).reserved +
        sharers trigger limit * amount > limit.maxAmount.toNat
  | .notConfigured => True

def ConcurrencyExact (key : String) (before : Nat) (trigger : LimitTrigger) (amount : Nat)
    (after : LocalQuotaState) (result : LocalReserveResult) : Prop :=
  match result with
  | .reserved _ => ∃ limit occupied, trigger.concurrencyAmount = some limit ∧
      after.concurrency key = some occupied ∧ occupied = before + amount ∧
      occupied ≤ limit.toNat
  | .rejected _ => ∃ limit, trigger.concurrencyAmount = some limit ∧
      before + amount > limit.toNat
  | .notConfigured => True

/-- The window of a duration as a reservation finds it, after its cleanup. -/
def windowBefore (env : QuotaEnv) (now : Nat) (state : LocalQuotaState) (req : QuotaRequest)
    (rule : RateLimitRule) (trigger : LimitTrigger) (seconds : Nat) : QuotaWindow :=
  currentWindow now seconds (cleanupExpiredLocalLeases .u32 now state).windows
    (quotaCounterKey env.sha256Hex req rule trigger seconds)

def occupiedBefore (env : QuotaEnv) (now : Nat) (state : LocalQuotaState) (req : QuotaRequest)
    (rule : RateLimitRule) (trigger : LimitTrigger) : Nat :=
  ((cleanupExpiredLocalLeases .u32 now state).concurrency
    (concurrencyCounterKey env.sha256Hex req rule trigger)).getD 0

def AdmissionExact (env : QuotaEnv) (state : LocalQuotaState) (timed : TimedOp) : Prop :=
  match timed.op with
  | .reserve req rule trigger amount =>
      match reserve .u32 env timed.now state req rule trigger amount with
      | (_, .error _) => True
      | (after, .ok result) =>
          match trigger.resource with
          | .qps | .token =>
              ConsumableExact (quotaCounterKey env.sha256Hex req rule trigger)
                (windowBefore env timed.now state req rule trigger) trigger amount after result
          | .concurrency =>
              ConcurrencyExact (concurrencyCounterKey env.sha256Hex req rule trigger)
                (occupiedBefore env timed.now state req rule trigger) trigger amount after result
          | .other => True
  | _ => True

/-! ## Overcharges -/

def HasRoom (window : QuotaWindow) (amount : Nat) (limit : Amount) : Prop :=
  window.committed + window.reserved + amount ≤ limit.maxAmount.toNat ∨
    limit.maxAmount.toNat = CounterArith.u32Max

/-- Every check passes, but a window of several amounts lacks room for all its charges, or a
limit at the largest word is passed. -/
def OverchargesConsumable (before : Nat → QuotaWindow) (trigger : LimitTrigger)
    (amount : Nat) : Prop :=
  (∀ limit ∈ positiveAmounts trigger, HasRoom (before (amountDuration limit)) amount limit) ∧
  ∃ limit ∈ positiveAmounts trigger,
    (2 ≤ sharers trigger limit ∧
      (before (amountDuration limit)).committed + (before (amountDuration limit)).reserved +
        sharers trigger limit * amount > limit.maxAmount.toNat) ∨
    (limit.maxAmount.toNat = CounterArith.u32Max ∧
      (before (amountDuration limit)).committed + (before (amountDuration limit)).reserved +
        amount > CounterArith.u32Max)

instance (window : QuotaWindow) (amount : Nat) (limit : Amount) :
    Decidable (HasRoom window amount limit) :=
  inferInstanceAs (Decidable (_ ∨ _))

def OverchargesConcurrency (before : Nat) (trigger : LimitTrigger) (amount : Nat) : Prop :=
  ∃ limit, trigger.concurrencyAmount = some limit ∧ limit.toNat = CounterArith.u32Max ∧
    before + amount > CounterArith.u32Max

def Overcharges (env : QuotaEnv) (state : LocalQuotaState) (timed : TimedOp) : Prop :=
  match timed.op with
  | .reserve req rule trigger amount =>
      timed.now + req.leaseTtl ≤ env.lastInstant ∧
      match trigger.resource with
      | .qps | .token =>
          OverchargesConsumable (windowBefore env timed.now state req rule trigger) trigger amount
      | .concurrency =>
          OverchargesConcurrency (occupiedBefore env timed.now state req rule trigger) trigger
            amount
      | .other => False
  | _ => False

/-! ## One reservation -/

theorem maxAmount_le (limit : UInt32) : limit.toNat ≤ CounterArith.u32Max := by
  have := limit.toNat_lt
  unfold CounterArith.u32Max
  omega

theorem not_exceeds_iff (window : QuotaWindow) (amount : Nat) (limit : Amount) :
    ¬ exceeds .u32 window amount limit.maxAmount.toNat ↔ HasRoom window amount limit := by
  have := maxAmount_le limit.maxAmount
  unfold exceeds HasRoom
  simp only [CounterArith.u32]
  omega

theorem one_le_sharers {trigger : LimitTrigger} {limit : Amount}
    (h : limit ∈ positiveAmounts trigger) : 1 ≤ sharers trigger limit :=
  List.countP_pos_iff.mpr ⟨limit, h, decide_eq_true rfl⟩

theorem countP_reservations {now : Nat} {keyOf : Nat → String}
    (inj : Function.Injective keyOf) (windows : String → Option QuotaWindow)
    (trigger : LimitTrigger) (limit : Amount) :
    (((positiveAmounts trigger).map (reservationFor now keyOf windows)).countP fun r =>
      r.key = keyOf (amountDuration limit)) = sharers trigger limit := by
  rw [List.countP_map]
  apply List.countP_congr
  intro other _
  show decide (keyOf (amountDuration other) = keyOf (amountDuration limit)) = true ↔
    decide (amountDuration other = amountDuration limit) = true
  rw [decide_eq_true_iff, decide_eq_true_iff]
  exact inj.eq_iff

theorem charged_window (now : Nat) {keyOf : Nat → String}
    (inj : Function.Injective keyOf) (windows : String → Option QuotaWindow)
    (trigger : LimitTrigger) (amount : Nat) {limit : Amount}
    (h : limit ∈ positiveAmounts trigger) :
    ∃ window, ((positiveAmounts trigger).map (reservationFor now keyOf windows)).foldl
        (chargeWindow .u32 amount) (lookedUp now keyOf windows (positiveAmounts trigger))
        (keyOf (amountDuration limit)) = some window ∧
      window.committed = (currentWindow now (amountDuration limit) windows
        (keyOf (amountDuration limit))).committed ∧
      window.reserved = CounterArith.u32.add (currentWindow now (amountDuration limit) windows
        (keyOf (amountDuration limit))).reserved (sharers trigger limit * amount) := by
  rcases Nat.exists_eq_add_of_le' (one_le_sharers h) with ⟨n, hn⟩
  rcases chargeWindows_some (lookedUp_of_mem now inj windows h) with
    ⟨window, hwindow, hcommitted, hreserved⟩
  rw [countP_reservations inj, hn, CounterArith.u32_add_iterate, ← hn] at hreserved
  exact ⟨window, hwindow, hcommitted, hreserved⟩

/-- What a consumable reservation does: nothing without positive amounts, charge every window
once for each amount counted in it, or refuse. -/
theorem reserveConsumable_spec (env : QuotaEnv) (now : Nat) (state : LocalQuotaState)
    (req : QuotaRequest) (rule : RateLimitRule) (trigger : LimitTrigger) (amount expiresAt : Nat)
    (backend : LocalLeaseBackend) :
    ∀ after result, (after, result) =
      reserveConsumable .u32 env now state req rule trigger amount expiresAt backend →
    ∀ before : Nat → QuotaWindow, (∀ seconds, before seconds =
      currentWindow now seconds state.windows
        (quotaCounterKey env.sha256Hex req rule trigger seconds)) →
    (positiveAmounts trigger = [] ∧ result = .notConfigured) ∨
    ((∀ limit ∈ positiveAmounts trigger, HasRoom (before (amountDuration limit)) amount limit) ∧
      (∃ backend, result = .reserved backend) ∧
      ∀ limit ∈ positiveAmounts trigger, ∃ window,
        after.windows (quotaCounterKey env.sha256Hex req rule trigger (amountDuration limit)) =
          some window ∧
        window.committed = (before (amountDuration limit)).committed ∧
        window.reserved = CounterArith.u32.add (before (amountDuration limit)).reserved
          (sharers trigger limit * amount)) ∨
    ((∃ limit ∈ positiveAmounts trigger,
        ¬ HasRoom (before (amountDuration limit)) amount limit) ∧
      ∃ message, result = .rejected message) := by
  intro after result hresult before hbefore
  have hinj : Function.Injective (quotaCounterKey env.sha256Hex req rule trigger) :=
    fun _ _ h => quotaCounterKey_inj.mp h
  unfold reserveConsumable at hresult
  split at hresult
  · rename_i hempty
    cases hresult
    exact .inl ⟨List.isEmpty_iff.mp hempty, rfl⟩
  · rcases checkWindows_spec now hinj .u32 amount state.windows (positiveAmounts trigger) with
      ⟨hroom, hcheck⟩ | ⟨⟨limit, hlimit, hexceeds⟩, visited, -, hcheck⟩
    · rw [hcheck] at hresult
      cases hresult
      simp only [not_exceeds_iff, ← hbefore] at hroom
      refine .inr (.inl ⟨hroom, ⟨_, rfl⟩, fun limit hlimit => ?_⟩)
      rw [hbefore]
      exact charged_window now hinj state.windows trigger amount hlimit
    · rw [hcheck] at hresult
      cases hresult
      rw [← hbefore] at hexceeds
      exact .inr (.inr ⟨⟨limit, hlimit, fun h => (not_exceeds_iff _ _ _).mpr h hexceeds⟩,
        ⟨_, rfl⟩⟩)

/-- Without an overcharge every window that passes the check has room for all its charges. -/
theorem fits_of_not_overcharges {before : Nat → QuotaWindow} {trigger : LimitTrigger}
    {amount : Nat} (within : ¬ OverchargesConsumable before trigger amount)
    (room : ∀ limit ∈ positiveAmounts trigger,
      HasRoom (before (amountDuration limit)) amount limit) :
    ∀ limit ∈ positiveAmounts trigger,
      (before (amountDuration limit)).committed + (before (amountDuration limit)).reserved +
        sharers trigger limit * amount ≤ limit.maxAmount.toNat := by
  intro limit hlimit
  apply Nat.le_of_not_lt
  intro hover
  apply within
  refine ⟨room, limit, hlimit, ?_⟩
  have hone := one_le_sharers hlimit
  by_cases hsharers : sharers trigger limit = 1
  · rw [hsharers] at hover
    rcases room limit hlimit with hlow | hmax
    · omega
    · exact .inr ⟨hmax, by omega⟩
  · exact .inl ⟨by omega, hover⟩

theorem not_overcharges_of_distinct {env : QuotaEnv} {state : LocalQuotaState} {now : Nat}
    {req : QuotaRequest} {rule : RateLimitRule} {trigger : LimitTrigger} {amount : Nat}
    (distinct : ((positiveAmounts trigger).map amountDuration).Nodup)
    (below : ∀ limit ∈ positiveAmounts trigger, limit.maxAmount.toNat ≠ CounterArith.u32Max)
    (belowConcurrency : ∀ limit, trigger.concurrencyAmount = some limit →
      limit.toNat ≠ CounterArith.u32Max) :
    ¬ Overcharges env state ⟨now, .reserve req rule trigger amount⟩ := by
  have hconsumable : ∀ before, ¬ OverchargesConsumable before trigger amount := by
    intro before hovercharges
    rcases hovercharges.2 with ⟨limit, hlimit, ⟨hshared, -⟩ | ⟨hmax, -⟩⟩
    · have hcount := List.nodup_iff_count_le_one.mp distinct (amountDuration limit)
      rw [List.count, List.countP_map] at hcount
      unfold sharers at hshared
      have hsame : (positiveAmounts trigger).countP (fun other =>
          amountDuration other = amountDuration limit) =
          (positiveAmounts trigger).countP ((· == amountDuration limit) ∘ amountDuration) :=
        rfl
      omega
    · exact below limit hlimit hmax
  intro hovercharges
  have h := hovercharges.2
  cases hresource : trigger.resource with
  | qps => exact hconsumable _ (by simpa only [hresource] using h)
  | token => exact hconsumable _ (by simpa only [hresource] using h)
  | concurrency =>
      simp only [hresource] at h
      rcases h with ⟨limit, hlimit, hmax, -⟩
      exact belowConcurrency limit hlimit hmax
  | other => simp only [hresource] at h

theorem consumableExact_iff (env : QuotaEnv) (now : Nat) (state : LocalQuotaState)
    (req : QuotaRequest) (rule : RateLimitRule) (trigger : LimitTrigger) (amount expiresAt : Nat)
    (backend : LocalLeaseBackend) (before : Nat → QuotaWindow)
    (hbefore : ∀ seconds, before seconds = currentWindow now seconds state.windows
      (quotaCounterKey env.sha256Hex req rule trigger seconds)) :
    ConsumableExact (quotaCounterKey env.sha256Hex req rule trigger) before trigger amount
        (reserveConsumable .u32 env now state req rule trigger amount expiresAt backend).1
        (reserveConsumable .u32 env now state req rule trigger amount expiresAt backend).2 ↔
      ¬ OverchargesConsumable before trigger amount := by
  rcases hresult : reserveConsumable .u32 env now state req rule trigger amount expiresAt backend
    with ⟨after, result⟩
  rcases reserveConsumable_spec env now state req rule trigger amount expiresAt backend after
    result hresult.symm before hbefore with
    ⟨hempty, rfl⟩ | ⟨hroom, ⟨lease, rfl⟩, hcharged⟩ | ⟨⟨limit, hlimit, hfull⟩, ⟨message, rfl⟩⟩
  · simp [ConsumableExact, OverchargesConsumable, hempty]
  · constructor
    · intro hexact hovercharges
      rcases hovercharges.2 with ⟨limit, hlimit, hover⟩
      rcases hexact limit hlimit with ⟨window, hwindow, hreserved, hwithin⟩
      have hone := one_le_sharers hlimit
      have hamount : amount ≤ sharers trigger limit * amount := Nat.le_mul_of_pos_left _ hone
      rcases hcharged limit hlimit with ⟨charged, hafter, hcommitted, -⟩
      cases hafter.symm.trans hwindow
      omega
    · intro hwithin limit hlimit
      rcases hcharged limit hlimit with ⟨window, hwindow, hcommitted, hreserved⟩
      have hfits := fits_of_not_overcharges hwithin hroom limit hlimit
      have hmax := maxAmount_le limit.maxAmount
      unfold CounterArith.u32Max at hmax
      rw [CounterArith.u32_add_of_lt (by omega)] at hreserved
      exact ⟨window, hwindow, hreserved, by omega⟩
  · constructor
    · exact fun _ hovercharges => hfull (hovercharges.1 limit hlimit)
    · intro _
      refine ⟨limit, hlimit, ?_⟩
      have hone := one_le_sharers hlimit
      have hamount : amount ≤ sharers trigger limit * amount := Nat.le_mul_of_pos_left _ hone
      unfold HasRoom at hfull
      omega

theorem concurrencyExact_iff (env : QuotaEnv) (state : LocalQuotaState) (req : QuotaRequest)
    (rule : RateLimitRule) (trigger : LimitTrigger) (amount expiresAt : Nat)
    (backend : LocalLeaseBackend) (before : Nat)
    (hbefore : before =
      (state.concurrency (concurrencyCounterKey env.sha256Hex req rule trigger)).getD 0) :
    ConcurrencyExact (concurrencyCounterKey env.sha256Hex req rule trigger) before trigger amount
        (reserveConcurrency .u32 env state req rule trigger amount expiresAt backend).1
        (reserveConcurrency .u32 env state req rule trigger amount expiresAt backend).2 ↔
      ¬ OverchargesConcurrency before trigger amount := by
  subst hbefore
  unfold reserveConcurrency OverchargesConcurrency
  cases hlimit : trigger.concurrencyAmount with
  | none => simp [ConcurrencyExact]
  | some limit =>
      have hmax := maxAmount_le limit
      simp only [Option.some.injEq, exists_eq_left']
      split
      · rename_i hzero
        subst hzero
        simp [ConcurrencyExact, CounterArith.u32Max]
      · split
        · rename_i hfull
          rw [CounterArith.u32_saturatingAdd_gt_iff hmax] at hfull
          simp only [ConcurrencyExact, hlimit, Option.some.injEq, exists_eq_left']
          omega
        · rename_i hroom
          rw [CounterArith.u32_saturatingAdd_gt_iff hmax] at hroom
          simp only [ConcurrencyExact, hlimit, Option.some.injEq, Function.update_self]
          constructor
          · intro hexact hovercharges
            rcases hexact with ⟨_, occupied, rfl, hadd, hoccupied, hwithin⟩
            omega
          · intro hwithin
            have hfits : (state.concurrency (concurrencyCounterKey env.sha256Hex req rule
                trigger)).getD 0 + amount ≤ limit.toNat := by omega
            unfold CounterArith.u32Max at hmax
            exact ⟨limit, _, rfl, rfl, CounterArith.u32_add_of_lt (by omega), by
              rwa [CounterArith.u32_add_of_lt (by omega)]⟩

theorem admissionExact_iff (env : QuotaEnv) (state : LocalQuotaState) (timed : TimedOp) :
    AdmissionExact env state timed ↔ ¬ Overcharges env state timed := by
  rcases timed with ⟨now, op⟩
  cases op with
  | update leaseId consumedTotal sequence => simp [AdmissionExact, Overcharges]
  | finish leaseId consumedTotal sequence => simp [AdmissionExact, Overcharges]
  | reserve req rule trigger amount =>
      unfold AdmissionExact Overcharges reserve
      simp only
      by_cases hrepresentable : now + req.leaseTtl > env.lastInstant
      · rw [if_pos hrepresentable]
        simp only [true_iff]
        omega
      · have hle : now + req.leaseTtl ≤ env.lastInstant := by omega
        rw [if_neg hrepresentable]
        cases hresource : trigger.resource with
        | qps =>
            exact (consumableExact_iff env now _ req rule trigger amount _ _ _ fun _ => rfl).trans
              (not_congr (and_iff_right hle).symm)
        | token =>
            exact (consumableExact_iff env now _ req rule trigger amount _ _ _ fun _ => rfl).trans
              (not_congr (and_iff_right hle).symm)
        | concurrency =>
            exact (concurrencyExact_iff env _ req rule trigger amount _ _ _ rfl).trans
              (not_congr (and_iff_right hle).symm)
        | other => simp

end PoleClient.RateLimit
