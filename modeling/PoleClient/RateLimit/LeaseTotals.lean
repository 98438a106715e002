import Mathlib.Data.List.Forall2
import PoleClient.RateLimit.Lease

/-! # The totals of a lease

The consumptions of a lease follow its reservations, one for each and in their
order. Updates only raise them, and never past what was reserved; so their sum
bounds the number of confirmed updates, and no lease runs out of sequences.
-/

namespace PoleClient.RateLimit

open Lib

/-! ## Lookups -/

def totalOf (consumptions : List QuotaConsumption) (resource : QuotaResource) : Option UInt32 :=
  (consumptions.find? fun consumption => consumption.resource = resource).map
    QuotaConsumption.consumedTotal

def amountOf (reservations : List QuotaAmount) (resource : QuotaResource) : Option UInt32 :=
  (reservations.find? fun reservation => reservation.resource = resource).map QuotaAmount.amount

theorem totalOf_cons (consumption : QuotaConsumption) (consumptions : List QuotaConsumption)
    (resource : QuotaResource) :
    totalOf (consumption :: consumptions) resource =
      if consumption.resource = resource then some consumption.consumedTotal
      else totalOf consumptions resource := by
  unfold totalOf
  rw [List.find?_cons]
  by_cases h : consumption.resource = resource <;> simp [h]

theorem amountOf_cons (reservation : QuotaAmount) (reservations : List QuotaAmount)
    (resource : QuotaResource) :
    amountOf (reservation :: reservations) resource =
      if reservation.resource = resource then some reservation.amount
      else amountOf reservations resource := by
  unfold amountOf
  rw [List.find?_cons]
  by_cases h : reservation.resource = resource <;> simp [h]

theorem consumptionFor_ok_iff {consumptions : List QuotaConsumption} {resource : QuotaResource}
    {total : UInt32} :
    consumptionFor consumptions resource = .ok total ↔
      totalOf consumptions resource = some total := by
  unfold consumptionFor totalOf
  cases consumptions.find? fun consumption => consumption.resource = resource <;> simp

/-! ## Within the reservations, and growing -/

/-- One consumption for each reservation, and within it. -/
def Within (reservations : List QuotaAmount) (consumptions : List QuotaConsumption) : Prop :=
  List.Forall₂ (fun reservation consumption => consumption.resource = reservation.resource ∧
    consumption.consumedTotal ≤ reservation.amount) reservations consumptions

def Grown (before after : List QuotaConsumption) : Prop :=
  List.Forall₂ (fun old new => new.resource = old.resource ∧
    old.consumedTotal ≤ new.consumedTotal) before after

section Totals

variable {reservations : List QuotaAmount} {consumptions before after : List QuotaConsumption}

theorem Grown.refl (consumptions : List QuotaConsumption) : Grown consumptions consumptions :=
  List.forall₂_same.mpr fun _ _ => ⟨rfl, Nat.le_refl _⟩

theorem Grown.trans {middle : List QuotaConsumption} (h₁ : Grown before middle)
    (h₂ : Grown middle after) : Grown before after := by
  induction h₁ generalizing after with
  | nil => exact h₂
  | cons hfirst hrest ih =>
      cases h₂ with
      | cons hnext hmore =>
          exact .cons ⟨hnext.1.trans hfirst.1, UInt32.le_trans hfirst.2 hnext.2⟩ (ih hmore)

theorem Within.totalOf (h : Within reservations consumptions) (resource : QuotaResource) :
    (amountOf reservations resource = none ∧ totalOf consumptions resource = none) ∨
      ∃ amount total, amountOf reservations resource = some amount ∧
        RateLimit.totalOf consumptions resource = some total ∧ total ≤ amount := by
  induction h with
  | nil => exact .inl ⟨rfl, rfl⟩
  | @cons reservation consumption reservations consumptions hfirst hrest ih =>
      rw [amountOf_cons, totalOf_cons, hfirst.1]
      by_cases hresource : reservation.resource = resource
      · rw [if_pos hresource, if_pos hresource]
        exact .inr ⟨_, _, rfl, rfl, hfirst.2⟩
      · rw [if_neg hresource, if_neg hresource]
        exact ih

theorem Within.total_le (h : Within reservations consumptions) {resource : QuotaResource}
    {total : UInt32} (htotal : RateLimit.totalOf consumptions resource = some total) :
    ∃ amount, amountOf reservations resource = some amount ∧ total ≤ amount := by
  rcases h.totalOf resource with ⟨-, hnone⟩ | ⟨amount, found, hamount, hfound, hle⟩
  · rw [hnone] at htotal
    cases htotal
  · obtain rfl := Option.some.inj (hfound.symm.trans htotal)
    exact ⟨amount, hamount, hle⟩

theorem Grown.totalOf (h : Grown before after) {resource : QuotaResource} {total : UInt32}
    (htotal : totalOf before resource = some total) :
    ∃ raised, RateLimit.totalOf after resource = some raised ∧ total ≤ raised := by
  induction h with
  | nil => cases htotal
  | @cons old new before after hfirst hrest ih =>
      rw [totalOf_cons] at htotal ⊢
      rw [hfirst.1]
      by_cases hresource : old.resource = resource
      · rw [if_pos hresource] at htotal ⊢
        obtain rfl := Option.some.inj htotal
        exact ⟨_, rfl, hfirst.2⟩
      · rw [if_neg hresource] at htotal ⊢
        exact ih htotal

/-! ## Setting one total -/

theorem totalOf_setConsumption (resource other : QuotaResource) (total : UInt32)
    (consumptions : List QuotaConsumption) :
    totalOf (setConsumption resource total consumptions) other =
      if other = resource then (totalOf consumptions resource).map fun _ => total
      else totalOf consumptions other := by
  induction consumptions with
  | nil => cases h : decide (other = resource) <;> simp_all [setConsumption, totalOf]
  | cons consumption consumptions ih =>
      unfold setConsumption
      by_cases hfirst : consumption.resource = resource
      · rw [if_pos hfirst, totalOf_cons, totalOf_cons, totalOf_cons, if_pos hfirst]
        by_cases hother : other = resource
        · rw [if_pos hother, hother, if_pos hfirst]
          rfl
        · have hne : ¬ consumption.resource = other := fun h => hother (h.symm.trans hfirst)
          rw [if_neg hother, if_neg hne, if_neg hne]
      · rw [if_neg hfirst, totalOf_cons, totalOf_cons, totalOf_cons, if_neg hfirst, ih]
        by_cases hother : other = resource
        · rw [if_pos hother, if_pos hother, hother, if_neg hfirst]
        · rw [if_neg hother, if_neg hother]

theorem within_setConsumption {resource : QuotaResource} {total : UInt32}
    (h : Within reservations consumptions)
    (hle : ∀ amount, amountOf reservations resource = some amount → total ≤ amount) :
    Within reservations (setConsumption resource total consumptions) := by
  induction h with
  | nil => exact .nil
  | @cons reservation consumption reservations consumptions hfirst hrest ih =>
      unfold setConsumption
      by_cases hresource : consumption.resource = resource
      · rw [if_pos hresource]
        refine .cons ⟨hfirst.1, hle _ ?_⟩ hrest
        rw [amountOf_cons, if_pos (hfirst.1.symm.trans hresource)]
      · rw [if_neg hresource]
        refine .cons hfirst (ih fun amount hamount => hle amount ?_)
        rw [amountOf_cons, if_neg fun h => hresource (hfirst.1.trans h), hamount]

theorem grown_setConsumption {resource : QuotaResource} {total : UInt32}
    (hle : ∀ old, totalOf consumptions resource = some old → old ≤ total) :
    Grown consumptions (setConsumption resource total consumptions) := by
  induction consumptions with
  | nil => exact .nil
  | cons consumption consumptions ih =>
      unfold setConsumption
      by_cases hresource : consumption.resource = resource
      · rw [if_pos hresource]
        refine .cons ⟨rfl, hle _ ?_⟩ (Grown.refl consumptions)
        rw [totalOf_cons, if_pos hresource]
      · rw [if_neg hresource]
        refine .cons ⟨rfl, Nat.le_refl _⟩ (ih fun old hold => hle old ?_)
        rw [totalOf_cons, if_neg hresource, hold]

/-! ## Updates -/

/-- An update is accepted if its resource is new, and its total lies between what was consumed
and what was reserved. -/
theorem applyUpdates_cons_ok_iff (within : Within reservations consumptions)
    {seen : List QuotaResource} {update : QuotaConsumption} {updates next : List QuotaConsumption} :
    applyUpdates reservations seen consumptions (update :: updates) = .ok next ↔
      update.resource ∉ seen ∧
      (∃ amount, amountOf reservations update.resource = some amount ∧
        update.consumedTotal ≤ amount) ∧
      (∀ total, totalOf consumptions update.resource = some total →
        total ≤ update.consumedTotal) ∧
      applyUpdates reservations (update.resource :: seen)
        (setConsumption update.resource update.consumedTotal consumptions) updates = .ok next := by
  rw [applyUpdates]
  by_cases hseen : update.resource ∈ seen
  · rw [if_pos hseen]
    exact ⟨fun h => (by cases h), fun h => absurd hseen h.1⟩
  · rw [if_neg hseen]
    have htotal := within.totalOf update.resource
    unfold amountOf totalOf at htotal ⊢
    cases hreservation : reservations.find? fun reservation =>
        reservation.resource = update.resource with
    | none => simp
    | some reservation =>
        cases hconsumption : consumptions.find? fun consumption =>
            consumption.resource = update.resource with
        | none => simp [hreservation, hconsumption] at htotal
        | some consumption =>
            simp only [Option.map_some, Option.some.injEq, exists_eq_left', forall_eq']
            by_cases hlow : update.consumedTotal < consumption.consumedTotal
            · rw [if_pos hlow]
              refine ⟨fun h => (by cases h), fun h => ?_⟩
              exact absurd h.2.2.1 (UInt32.not_le.mpr hlow)
            · rw [if_neg hlow]
              by_cases hhigh : update.consumedTotal > reservation.amount
              · rw [if_pos hhigh]
                refine ⟨fun h => (by cases h), fun h => ?_⟩
                exact absurd h.2.1 (UInt32.not_le.mpr hhigh)
              · rw [if_neg hhigh]
                exact ⟨fun h => ⟨hseen, UInt32.not_lt.mp hhigh, UInt32.not_lt.mp hlow, h⟩,
                  fun h => h.2.2.2⟩

theorem applyUpdates_grown {seen : List QuotaResource} {updates next : List QuotaConsumption}
    (within : Within reservations consumptions)
    (h : applyUpdates reservations seen consumptions updates = .ok next) :
    Within reservations next ∧ Grown consumptions next := by
  induction updates generalizing seen consumptions with
  | nil =>
      rw [applyUpdates] at h
      obtain rfl := Except.ok.inj h
      exact ⟨within, Grown.refl consumptions⟩
  | cons update updates ih =>
      obtain ⟨-, ⟨amount, hamount, hle⟩, hold, hrest⟩ := (applyUpdates_cons_ok_iff within).mp h
      have hset := within_setConsumption within fun other hother =>
        Option.some.inj (hamount.symm.trans hother) ▸ hle
      obtain ⟨hwithin, hgrown⟩ := ih hset hrest
      exact ⟨hwithin, (grown_setConsumption hold).trans hgrown⟩

/-- Updates of the same resources, none of them lower, and all within the reservations. -/
def Raises (reservations : List QuotaAmount) (updates raised : List QuotaConsumption) : Prop :=
  Grown updates raised ∧ ∀ update ∈ raised, ∀ amount,
    amountOf reservations update.resource = some amount → update.consumedTotal ≤ amount

/-- The lease accepts raised updates where it accepts the updates. -/
theorem applyUpdates_raised {seen : List QuotaResource}
    {updates raised next others : List QuotaConsumption}
    (raises : Raises reservations updates raised) (within : Within reservations consumptions)
    (others_within : Within reservations others)
    (same : ∀ resource, resource ∉ seen →
      totalOf others resource = totalOf consumptions resource)
    (h : applyUpdates reservations seen consumptions updates = .ok next) :
    ∃ larger, applyUpdates reservations seen others raised = .ok larger := by
  obtain ⟨hgrown, hbound⟩ := raises
  induction hgrown generalizing seen consumptions others with
  | nil => exact ⟨others, rfl⟩
  | @cons update larger updates raised hfirst hrest ih =>
      obtain ⟨hseen, ⟨amount, hamount, hle⟩, hold, htail⟩ :=
        (applyUpdates_cons_ok_iff within).mp h
      have hamount' : amountOf reservations larger.resource = some amount := by
        rw [hfirst.1, hamount]
      have hlarger := hbound larger List.mem_cons_self amount hamount'
      have hset := within_setConsumption within fun other hother =>
        Option.some.inj (hamount.symm.trans hother) ▸ hle
      have hset' := within_setConsumption others_within fun other hother =>
        Option.some.inj (hamount'.symm.trans hother) ▸ hlarger
      obtain ⟨final, hfinal⟩ := ih hset hset' (by
        intro resource hresource
        rw [List.mem_cons, not_or] at hresource
        rw [totalOf_setConsumption, totalOf_setConsumption, hfirst.1, if_neg hresource.1,
          if_neg hresource.1, same resource hresource.2]) htail
        (fun other hother => hbound other (List.mem_cons_of_mem _ hother))
      refine ⟨final, (applyUpdates_cons_ok_iff others_within).mpr ⟨?_, ⟨amount, hamount', hlarger⟩,
        ?_, ?_⟩⟩
      · rw [hfirst.1]
        exact hseen
      · intro total htotal
        rw [hfirst.1, same _ hseen] at htotal
        exact UInt32.le_trans (hold total htotal) hfirst.2
      · rw [hfirst.1] at hfinal ⊢
        exact hfinal

/-! ## The sum of the totals -/

def totalSum (consumptions : List QuotaConsumption) : Nat :=
  (consumptions.map fun consumption => consumption.consumedTotal.toNat).sum

theorem Grown.sum_le (h : Grown before after) : totalSum before ≤ totalSum after := by
  induction h with
  | nil => exact Nat.le_refl _
  | @cons old new before after hfirst hrest ih =>
      have := UInt32.le_iff_toNat_le.mp hfirst.2
      unfold totalSum at ih ⊢
      simp only [List.map_cons, List.sum_cons]
      omega

theorem Grown.sum_lt (h : Grown before after) (ne : after ≠ before) :
    totalSum before < totalSum after := by
  induction h with
  | nil => exact absurd rfl ne
  | @cons old new before after hfirst hrest ih =>
      have hle := UInt32.le_iff_toNat_le.mp hfirst.2
      have hsum := Grown.sum_le hrest
      unfold totalSum at ih hsum ⊢
      simp only [List.map_cons, List.sum_cons]
      by_cases hsame : after = before
      · have hne : new.consumedTotal.toNat ≠ old.consumedTotal.toNat := by
          intro heq
          apply ne
          rw [hsame]
          cases new
          cases old
          simp only [UInt32.toNat_inj] at heq
          simp_all
        omega
      · have := ih hsame
        omega

/-- Three resources, a word each. -/
theorem Within.sum_le (h : Within reservations consumptions)
    (distinct : (reservations.map QuotaAmount.resource).Nodup) :
    totalSum consumptions ≤ 3 * CounterArith.u32Max := by
  have hlength : consumptions.length ≤ 3 := by
    have hall : reservations.map QuotaAmount.resource ⊆
        [.qps, .token, .concurrency] := by
      intro resource _
      cases resource <;> simp
    have hle := (List.subperm_of_subset distinct hall).length_le
    rw [List.length_map] at hle
    rw [← List.Forall₂.length_eq h]
    exact hle
  have hsum : ∀ list : List QuotaConsumption,
      totalSum list ≤ list.length * CounterArith.u32Max := by
    intro list
    induction list with
    | nil => exact Nat.le_refl _
    | cons consumption list ih =>
        have := consumption.consumedTotal.toNat_lt
        unfold totalSum CounterArith.u32Max at ih ⊢
        simp only [List.map_cons, List.sum_cons, List.length_cons, Nat.succ_mul]
        omega
  exact (hsum consumptions).trans (Nat.mul_le_mul_right _ hlength)

end Totals

end PoleClient.RateLimit
