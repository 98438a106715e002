import PoleClient.RateLimit.Limiter

/-! # What requests change

A reservation adds to what is reserved of each counter that it names, and a
settlement takes what the lease held and adds what it consumed; other counters
stay as they are.
-/

namespace PoleClient.RateLimit

open Lib

/-! ## Amounts by counter -/

def amountAt (entries : List (UInt32 × UInt32)) (key : UInt32) : Nat :=
  ((entries.find? fun entry => entry.1 = key).map fun entry => entry.2.toNat).getD 0

@[simp] theorem amountAt_nil (key : UInt32) : amountAt [] key = 0 := rfl

theorem amountAt_cons (entry : UInt32 × UInt32) (entries : List (UInt32 × UInt32))
    (key : UInt32) :
    amountAt (entry :: entries) key =
      if entry.1 = key then entry.2.toNat else amountAt entries key := by
  unfold amountAt
  rw [List.find?_cons]
  by_cases h : entry.1 = key
  · simp [h]
  · simp [h]

theorem amountAt_eq (entries : List (UInt32 × UInt32)) (key : UInt32) :
    amountAt entries key =
      (((entries.find? fun entry => entry.1 = key).map Prod.snd).map UInt32.toNat).getD 0 := by
  unfold amountAt
  rw [Option.map_map]
  rfl

theorem amountAt_rows (t : Table UInt32 UInt32) (key : UInt32) :
    amountAt t.rows key = ((t.lookup key).map UInt32.toNat).getD 0 := by
  rw [amountAt_eq, AList.lookup_eq_find]

theorem amountAt_of_not_mem {entries : List (UInt32 × UInt32)} {key : UInt32}
    (h : key ∉ entries.map Prod.fst) : amountAt entries key = 0 := by
  induction entries with
  | nil => rfl
  | cons entry entries ih =>
      rw [List.map_cons, List.mem_cons, not_or] at h
      rw [amountAt_cons, if_neg fun heq => h.1 heq.symm, ih h.2]

theorem amountAt_of_mem {entries : List (UInt32 × UInt32)}
    (nodup : (entries.map Prod.fst).Nodup) {key amount : UInt32}
    (h : (key, amount) ∈ entries) : amountAt entries key = amount.toNat := by
  rw [amountAt_eq, (AList.find_eq_some_iff nodup).mpr h]
  rfl

def ServerLease.held (key : UInt32) (lease : ServerLease) : Nat :=
  amountAt lease.reservations.rows key

/-- What settlements charge a counter: nothing where only the occupancy counts. -/
def charged (accounting : QuotaAccounting) (key : UInt32) (settlements : List QuotaSettlement) :
    Nat :=
  match accounting with
  | .occupancy => 0
  | .consumable => amountAt
      (settlements.map fun settlement => (settlement.counterKey, settlement.consumedTotal)) key

theorem charged_of_not_mem {accounting : QuotaAccounting} {key : UInt32}
    {settlements : List QuotaSettlement}
    (h : key ∉ settlements.map QuotaSettlement.counterKey) :
    charged accounting key settlements = 0 := by
  cases accounting with
  | occupancy => rfl
  | consumable =>
      apply amountAt_of_not_mem
      rwa [List.map_map]

theorem charged_cons_of_ne {accounting : QuotaAccounting} {key : UInt32}
    {settlement : QuotaSettlement} {settlements : List QuotaSettlement}
    (h : settlement.counterKey ≠ key) :
    charged accounting key (settlement :: settlements) = charged accounting key settlements := by
  cases accounting with
  | occupancy => rfl
  | consumable =>
      unfold charged
      rw [List.map_cons, amountAt_cons, if_neg h]

/-! ## Counters that change -/

/-- The same counters, each changed as `change` says. -/
structure Changed (change : UInt32 → CounterState → CounterState → Prop)
    (before after : Table UInt32 CounterState) : Prop where
  keys : after.keys = before.keys
  counters : ∀ key new, after.lookup key = some new →
    ∃ old, before.lookup key = some old ∧ new.maxAmount = old.maxAmount ∧
      new.accounting = old.accounting ∧ change key old new

section Changed

variable {before after : Table UInt32 CounterState}

theorem changed_modify {key : UInt32} {f : CounterState → CounterState} {old : CounterState}
    {change : UInt32 → CounterState → CounterState → Prop}
    (h : before.lookup key = some old) (maxAmount : (f old).maxAmount = old.maxAmount)
    (accounting : (f old).accounting = old.accounting) (here : change key old (f old))
    (others : ∀ other counter, other ≠ key → change other counter counter) :
    Changed change before (before.modify key f) := by
  refine ⟨AList.keys_modify before key f, fun other new hnew => ?_⟩
  rw [AList.lookup_modify] at hnew
  by_cases hkey : other = key
  · rw [if_pos hkey, h] at hnew
    cases hnew
    rw [hkey]
    exact ⟨old, h, maxAmount, accounting, here⟩
  · rw [if_neg hkey] at hnew
    exact ⟨new, hnew, rfl, rfl, others other new hkey⟩

theorem Changed.trans {middle : Table UInt32 CounterState}
    {first second change : UInt32 → CounterState → CounterState → Prop}
    (h₁ : Changed first before middle) (h₂ : Changed second middle after)
    (both : ∀ key old between new, between.accounting = old.accounting →
      first key old between → second key between new → change key old new) :
    Changed change before after := by
  refine ⟨h₂.keys.trans h₁.keys, fun key new hnew => ?_⟩
  obtain ⟨between, hbetween, hmax, haccounting, hsecond⟩ := h₂.counters key new hnew
  obtain ⟨old, hold, hmax', haccounting', hfirst⟩ := h₁.counters key between hbetween
  exact ⟨old, hold, hmax.trans hmax', haccounting.trans haccounting',
    both key old between new haccounting' hfirst hsecond⟩

end Changed

/-! ## Reserving -/

/-- What the reservations take of a counter. -/
def Reserves (reservations : List QuotaReservation) (key : UInt32) (old new : CounterState) :
    Prop :=
  new.committed = old.committed ∧ new.reserved = old.reserved +
    amountAt (reservations.map fun reservation => (reservation.counterKey, reservation.amount)) key

theorem changed_reserveCounters {reservations : List QuotaReservation}
    {before after : Table UInt32 CounterState}
    (nodup : (reservations.map QuotaReservation.counterKey).Nodup)
    (h : reservations.foldlM reserveCounter before = some after) :
    Changed (Reserves reservations) before after := by
  induction reservations generalizing before with
  | nil =>
      cases h
      exact ⟨rfl, fun key new hnew => ⟨new, hnew, rfl, rfl, rfl, rfl⟩⟩
  | cons reservation reservations ih =>
      obtain ⟨hnot, hnodup⟩ := List.nodup_cons.mp nodup
      rw [List.foldlM_cons] at h
      obtain ⟨middle, hmiddle, hrest⟩ := Option.bind_eq_some_iff.mp h
      unfold reserveCounter at hmiddle
      cases hold : before.lookup reservation.counterKey with
      | none => simp only [hold, reduceCtorEq] at hmiddle
      | some old =>
          simp only [hold] at hmiddle
          split at hmiddle
          · cases hmiddle
            have hfirst := @changed_modify before reservation.counterKey
              (fun counter => { counter with
                reserved := counter.reserved + reservation.amount.toNat }) old
              (Reserves [reservation]) hold rfl rfl
              ⟨rfl, by rw [List.map_cons, amountAt_cons, if_pos rfl]⟩
              (fun other counter hne => ⟨rfl, by
                rw [List.map_cons, amountAt_cons, if_neg hne.symm]
                rfl⟩)
            refine hfirst.trans (ih hnodup hrest) ?_
            intro key old between new _ hreserves hlater
            refine ⟨hlater.1.trans hreserves.1, ?_⟩
            rw [hlater.2, hreserves.2, List.map_cons, List.map_cons, amountAt_cons, amountAt_cons]
            by_cases hkey : reservation.counterKey = key
            · have hnone : amountAt (reservations.map fun reservation =>
                  (reservation.counterKey, reservation.amount)) key = 0 := by
                apply amountAt_of_not_mem
                rw [List.map_map]
                exact hkey ▸ hnot
              rw [if_pos hkey, if_pos hkey, hnone, Nat.add_zero]
            · rw [if_neg hkey, if_neg hkey]
              rfl
          · cases hmiddle

theorem lookup_newLease {reservations : List QuotaReservation}
    (nodup : (reservations.map QuotaReservation.counterKey).Nodup) {key amount : UInt32} :
    (newLease reservations).reservations.lookup key = some amount ↔
      ⟨key, amount⟩ ∈ reservations := by
  unfold newLease
  simp only [Table.lookup_collect, lastOfKeys_eq_self nodup]
  constructor
  · rintro ⟨reservation, hmem, rfl, rfl⟩
    exact hmem
  · exact fun hmem => ⟨_, hmem, rfl, rfl⟩

theorem held_newLease {reservations : List QuotaReservation}
    (nodup : (reservations.map QuotaReservation.counterKey).Nodup) (key : UInt32) :
    (newLease reservations).held key = amountAt
      (reservations.map fun reservation => (reservation.counterKey, reservation.amount)) key := by
  have hkeys : ((reservations.map fun reservation =>
      (reservation.counterKey, reservation.amount)).map Prod.fst).Nodup := by
    rw [List.map_map]
    exact nodup
  rw [ServerLease.held, amountAt_rows, amountAt_eq]
  congr 2
  apply Option.ext
  intro amount
  rw [lookup_newLease nodup, AList.find_eq_some_iff hkeys, List.mem_map]
  constructor
  · exact fun hmem => ⟨_, hmem, rfl⟩
  · rintro ⟨reservation, hmem, heq⟩
    cases heq
    exact hmem

/-! ## Settling -/

/-- What settling the entries does to a counter. -/
def Settles (entries : List (UInt32 × UInt32)) (settlements : List QuotaSettlement) (key : UInt32)
    (old new : CounterState) : Prop :=
  new.reserved + amountAt entries key = old.reserved ∧
    new.committed = old.committed + charged old.accounting key settlements ∧
    charged old.accounting key settlements ≤ amountAt entries key

theorem changed_settleCounter {consumed : Table UInt32 UInt32}
    {before after : Table UInt32 CounterState} {key amount : UInt32}
    {settlement : QuotaSettlement}
    (h : settleCounter consumed before key amount = some (after, settlement)) :
    settlement.counterKey = key ∧ consumed.lookup key = some settlement.consumedTotal ∧
      Changed (Settles [(key, amount)] [settlement]) before after := by
  unfold settleCounter at h
  cases htotal : consumed.lookup key with
  | none => simp only [htotal, reduceCtorEq] at h
  | some total =>
      cases hold : before.lookup key with
      | none => simp only [htotal, hold, reduceCtorEq] at h
      | some old =>
          simp only [htotal, hold] at h
          by_cases hless : old.reserved < amount.toNat
          · rw [if_pos hless] at h
            cases h
          · rw [if_neg hless] at h
            have hothers : ∀ settlement : QuotaSettlement, settlement.counterKey = key →
                ∀ other counter, other ≠ key →
                  Settles [(key, amount)] [settlement] other counter counter := by
              intro settlement hkey other counter hne
              have hsettlement : settlement.counterKey ≠ other := fun heq =>
                hne (heq.symm.trans hkey)
              refine ⟨?_, ?_, ?_⟩
              · rw [amountAt_cons, if_neg hne.symm]
                rfl
              · rw [charged_cons_of_ne hsettlement, charged_of_not_mem List.not_mem_nil]
                rfl
              · rw [charged_cons_of_ne hsettlement, charged_of_not_mem List.not_mem_nil]
                exact Nat.zero_le _
            cases haccounting : old.accounting with
            | consumable =>
                simp only [haccounting] at h
                by_cases hpanic : CounterArith.u32Max < old.committed + total.toNat ∨ amount < total
                · rw [if_pos hpanic] at h
                  cases h
                · rw [if_neg hpanic] at h
                  cases h
                  rw [not_or, UInt32.not_lt, UInt32.le_iff_toNat_le] at hpanic
                  refine ⟨rfl, rfl, changed_modify hold rfl rfl ⟨?_, ?_, ?_⟩
                    (hothers _ rfl)⟩
                  · rw [amountAt_cons, if_pos rfl]
                    exact Nat.sub_add_cancel (Nat.not_lt.mp hless)
                  · simp only [charged, haccounting, List.map_cons, amountAt_cons, if_true]
                  · simp only [charged, haccounting, List.map_cons, amountAt_cons, if_true]
                    exact hpanic.2
            | occupancy =>
                simp only [haccounting] at h
                cases h
                refine ⟨rfl, rfl, changed_modify hold rfl rfl ⟨?_, ?_, ?_⟩ (hothers _ rfl)⟩
                · rw [amountAt_cons, if_pos rfl]
                  exact Nat.sub_add_cancel (Nat.not_lt.mp hless)
                · simp only [charged, haccounting, Nat.add_zero]
                · simp only [charged, haccounting]
                  exact Nat.zero_le _

theorem changed_settleCounters {consumed : Table UInt32 UInt32}
    {entries : List (UInt32 × UInt32)} {before after : Table UInt32 CounterState}
    {settlements : List QuotaSettlement} (nodup : (entries.map Prod.fst).Nodup)
    (h : settleCounters consumed before entries = some (after, settlements)) :
    settlements.map QuotaSettlement.counterKey = entries.map Prod.fst ∧
      Changed (Settles entries settlements) before after := by
  induction entries generalizing before settlements with
  | nil =>
      cases h
      refine ⟨rfl, rfl, fun key new hnew => ⟨new, hnew, rfl, rfl, rfl, ?_, ?_⟩⟩
      · rw [charged_of_not_mem List.not_mem_nil, Nat.add_zero]
      · rw [charged_of_not_mem List.not_mem_nil]
        exact Nat.zero_le _
  | cons entry entries ih =>
      obtain ⟨key, amount⟩ := entry
      obtain ⟨hnot, hnodup⟩ := List.nodup_cons.mp nodup
      rw [settleCounters] at h
      cases hone : settleCounter consumed before key amount with
      | none => simp only [hone, reduceCtorEq] at h
      | some first =>
          obtain ⟨middle, settlement⟩ := first
          simp only [hone] at h
          cases hrest : settleCounters consumed middle entries with
          | none => simp only [hrest, reduceCtorEq] at h
          | some rest =>
              obtain ⟨last, others⟩ := rest
              simp only [hrest] at h
              cases h
              obtain ⟨hkey, -, hfirst⟩ := changed_settleCounter hone
              obtain ⟨hkeys, hlater⟩ := ih hnodup hrest
              refine ⟨by rw [List.map_cons, List.map_cons, hkeys, hkey], ?_⟩
              refine hfirst.trans hlater ?_
              intro other old between new haccounting hone hrest
              obtain ⟨hreserved, hcommitted, hle⟩ := hone
              obtain ⟨hreserved', hcommitted', hle'⟩ := hrest
              rw [haccounting] at hcommitted' hle'
              rw [amountAt_cons] at hreserved hle
              unfold Settles
              rw [amountAt_cons]
              by_cases hsame : key = other
              · -- the counter is in the first entry only
                have hnone : amountAt entries other = 0 :=
                  amountAt_of_not_mem (hsame ▸ hnot)
                have hcharged : charged old.accounting other others = 0 := by
                  apply charged_of_not_mem
                  rw [hkeys]
                  exact hsame ▸ hnot
                have hall : charged old.accounting other (settlement :: others) =
                    charged old.accounting other [settlement] := by
                  cases old.accounting with
                  | occupancy => rfl
                  | consumable =>
                      simp only [charged, List.map_cons, amountAt_cons, hkey, hsame, if_true]
                rw [if_pos hsame] at hreserved hle ⊢
                rw [hall]
                exact ⟨by omega, by omega, hle⟩
              · have hall : charged old.accounting other (settlement :: others) =
                    charged old.accounting other others :=
                  charged_cons_of_ne fun heq => hsame (hkey.symm.trans heq)
                have hnothing : charged old.accounting other [settlement] = 0 := by
                  rw [charged_cons_of_ne fun heq => hsame (hkey.symm.trans heq)]
                  exact charged_of_not_mem List.not_mem_nil
                rw [if_neg hsame, amountAt_nil] at hreserved
                rw [if_neg hsame, hall]
                exact ⟨by omega, by omega, hle'⟩

end PoleClient.RateLimit
