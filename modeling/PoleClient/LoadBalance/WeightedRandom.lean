import PoleClient.Core.Model
import PoleClient.Core.Naming
import PoleClient.Lib.Shares

/-! # Weighted random choice

The draw, reduced by the total weight, falls into the cumulative interval of one
place of the list. Weights are added as 64-bit numbers, with or without overflow
checks; the draw is an argument.
-/

namespace PoleClient.LoadBalance.WeightRandomLoadbalancer

open Lib

/-! ## The code -/

/-- How the loop over the instances ends. -/
inductive Walk where
  | chosen (ins : Instance)
  | unmatched
  | overflowed

def walk (overflowChecks : Bool) (randWeight : UInt64) : UInt64 → UInt64 → List Instance → Walk
  | _, _, [] => .unmatched
  | left, right, ins :: instances =>
      if overflowChecks && decide (2 ^ 64 ≤ right.toNat + ins.weight.toNat) then .overflowed
      else
        let right := right + ins.weight.toUInt64
        if left ≤ randWeight ∧ randWeight < right then .chosen ins
        else walk overflowChecks randWeight right right instances

def zeroWeightError : PoleError := .new .instanceInfoError "total weight of instances is 0"

/-- No answer stands for a panic: of an addition, of the remainder by the length of an empty
list, or of the indexing. -/
def chooseInstance (overflowChecks : Bool) (random : UInt64) (instances : ServiceInstances) :
    Option (Except PoleError Instance) :=
  let totalWeight := UInt64.ofNat instances.getTotalWeight
  if totalWeight = 0 then some (.error zeroWeightError)
  else
    match walk overflowChecks (random % totalWeight) 0 0 instances.instances with
    | .chosen ins => some (.ok ins)
    | .overflowed => none
    | .unmatched =>
        if instances.instances.length = 0 then none
        else
          let index := totalWeight.toNat % instances.instances.length
          instances.instances[index]?.map .ok

/-! ## The intervals of the list -/

def weights (instances : List Instance) : List Nat :=
  instances.map fun ins => ins.weight.toNat

/-- Every instance before the place is passed over, and the one at the place is taken. -/
theorem walk_of_owns (overflowChecks : Bool) {randWeight edge : UInt64}
    {instances : List Instance} {place : Nat} {ins : Instance} (hedge : edge ≤ randWeight)
    (bound : edge.toNat + (weights instances).sum < 2 ^ 64) (found : instances[place]? = some ins)
    (owns : Shares.Owns (weights instances) place (randWeight.toNat - edge.toNat)) :
    walk overflowChecks randWeight edge edge instances = .chosen ins := by
  induction instances generalizing edge place with
  | nil => cases found
  | cons first instances ih =>
      have hle : edge.toNat ≤ randWeight.toNat := UInt64.le_iff_toNat_le.mp hedge
      have hsum : edge.toNat + (first.weight.toNat + (weights instances).sum) < 2 ^ 64 := bound
      have hright : (edge + first.weight.toUInt64).toNat = edge.toNat + first.weight.toNat := by
        rw [UInt64.toNat_add, UInt32.toNat_toUInt64, Nat.mod_eq_of_lt (by omega)]
      have hchecked : (overflowChecks &&
          decide (2 ^ 64 ≤ edge.toNat + first.weight.toNat)) = false := by
        rw [decide_eq_false (by omega), Bool.and_false]
      rw [walk, hchecked, if_neg Bool.false_ne_true]
      cases place with
      | zero =>
          have hlt : randWeight.toNat - edge.toNat < first.weight.toNat :=
            (Shares.owns_cons_zero_iff first.weight.toNat (weights instances) _).mp owns
          have hinside : edge ≤ randWeight ∧ randWeight < edge + first.weight.toUInt64 := by
            constructor
            · exact hedge
            · rw [UInt64.lt_iff_toNat_lt, hright]
              omega
          obtain rfl := Option.some.inj found
          exact if_pos hinside
      | succ place =>
          obtain ⟨hpast, hrest⟩ :=
            (Shares.owns_cons_succ_iff first.weight.toNat (weights instances) place _).mp owns
          have hnext : edge + first.weight.toUInt64 ≤ randWeight := by
            rw [UInt64.le_iff_toNat_le, hright]
            omega
          have houtside : ¬ (edge ≤ randWeight ∧ randWeight < edge + first.weight.toUInt64) := by
            rintro ⟨-, hlt⟩
            exact absurd hlt (UInt64.not_lt.mpr hnext)
          rw [if_neg houtside]
          apply ih hnext
          · rw [hright]
            omega
          · exact found
          · rw [hright, ← Nat.sub_sub]
            exact hrest

theorem toNat_total {instances : ServiceInstances}
    (word : instances.totalWeight < UInt64.size) :
    (UInt64.ofNat instances.totalWeight).toNat = instances.totalWeight := by
  rw [UInt64.toNat_ofNat', Nat.mod_eq_of_lt word]

theorem toNat_residue {instances : ServiceInstances}
    (word : instances.totalWeight < UInt64.size) (random : UInt64) :
    (random % .ofNat instances.totalWeight).toNat = random.toNat % instances.totalWeight := by
  rw [UInt64.toNat_mod, toNat_total word]

theorem walk_residue (overflowChecks : Bool) {instances : ServiceInstances}
    (total : instances.totalWeight = (weights instances.instances).sum)
    (word : instances.totalWeight < UInt64.size) {random : UInt64} {place : Nat} {ins : Instance}
    (found : instances.instances[place]? = some ins)
    (owns : Shares.Owns (weights instances.instances) place
      (random.toNat % instances.totalWeight)) :
    walk overflowChecks (random % .ofNat instances.totalWeight) 0 0 instances.instances =
      .chosen ins := by
  apply walk_of_owns overflowChecks (UInt64.zero_le) _ found
  · rw [toNat_residue word]
    exact owns
  · rw [UInt64.toNat_zero, Nat.zero_add, ← total]
    exact word

theorem exists_place {instances : ServiceInstances}
    (total : instances.totalWeight = (weights instances.instances).sum) {r : Nat}
    (h : r < instances.totalWeight) :
    ∃ place ins, instances.instances[place]? = some ins ∧
      Shares.Owns (weights instances.instances) place r := by
  obtain ⟨place, hplace, howns⟩ := Shares.exists_owner (total ▸ h)
  rw [weights, List.length_map] at hplace
  exact ⟨place, instances.instances[place], List.getElem?_eq_getElem hplace, howns⟩

theorem weight_at {instances : List Instance} {place : Nat} {ins : Instance}
    (found : instances[place]? = some ins) :
    (weights instances)[place]? = some ins.weight.toNat := by
  rw [weights, List.getElem?_map, found]
  rfl

theorem weight_ne_zero_of_owns {instances : List Instance} {place r : Nat} {ins : Instance}
    (found : instances[place]? = some ins) (owns : Shares.Owns (weights instances) place r) :
    ins.weight ≠ 0 := by
  intro hzero
  obtain ⟨hle, hlt⟩ := owns
  rw [Shares.start_succ (weight_at found), hzero] at hlt
  exact absurd hlt (Nat.not_lt.mpr hle)

/-- The choice is exact: the residue of the draw lies in the interval of one place, whose
instance is returned; the intervals are as long as the weights, and the loop always finds one. -/
theorem choice_exact (overflowChecks : Bool) (instances : ServiceInstances)
    (total : instances.totalWeight = (weights instances.instances).sum)
    (positive : 0 < instances.totalWeight) (word : instances.totalWeight < UInt64.size) :
    (∀ r < instances.totalWeight,
      ∃ place ins, instances.instances[place]? = some ins ∧ ins.weight ≠ 0 ∧
        (∀ other, Shares.Owns (weights instances.instances) other r ↔ other = place) ∧
        ∀ random : UInt64, random.toNat % instances.totalWeight = r →
          chooseInstance overflowChecks random instances = some (.ok ins)) ∧
    (∀ (place : Nat) (ins : Instance), instances.instances[place]? = some ins →
      ((Finset.range instances.totalWeight).filter
        (Shares.Owns (weights instances.instances) place)).card = ins.weight.toNat) ∧
    ∀ random : UInt64, walk overflowChecks (random % .ofNat instances.getTotalWeight) 0 0
      instances.instances ≠ .unmatched := by
  constructor
  · intro r hr
    obtain ⟨place, ins, hfound, howns⟩ := exists_place total hr
    refine ⟨place, ins, hfound, weight_ne_zero_of_owns hfound howns, ?_, ?_⟩
    · intro other
      constructor
      · exact fun hother => Shares.owner_unique hother howns
      · rintro rfl
        exact howns
    · rintro random rfl
      have hnonzero : UInt64.ofNat instances.totalWeight ≠ 0 := by
        intro hzero
        have htoNat := toNat_total word
        rw [hzero, UInt64.toNat_zero] at htoNat
        omega
      rw [chooseInstance, ServiceInstances.getTotalWeight]
      simp only [if_neg hnonzero, walk_residue overflowChecks total word hfound howns]
  constructor
  · intro place ins hfound
    rw [total]
    exact Shares.card_owned (weight_at hfound)
  · intro random hunmatched
    obtain ⟨place, ins, hfound, howns⟩ := exists_place total (Nat.mod_lt random.toNat positive)
    rw [ServiceInstances.getTotalWeight,
      walk_residue overflowChecks total word hfound howns] at hunmatched
    cases hunmatched

def unevenList : ServiceInstances :=
  .new ⟨"", "default", "orders", .empty, "rev-1"⟩ (
    [("a", 0), ("b", 3), ("c", 5), ("d", 0)].map fun (id, weight) =>
      ⟨id, "default", "orders", "127.0.0.1", 8080, "", "", "", true, false, weight, 0, .empty,
        default, ""⟩)

theorem unevenList_exact : (∃ place ins, unevenList.instances[place]? = some ins ∧
    ins.weight ≠ 0 ∧
      (∀ other, Shares.Owns (weights unevenList.instances) other 3 ↔ other = place) ∧
      ∀ random : UInt64, random.toNat % unevenList.totalWeight = 3 →
        chooseInstance true random unevenList = some (.ok ins)) ∧
    ((Finset.range 8).filter (Shares.Owns (weights unevenList.instances) 2)).card = 5 := by
  have hexact := choice_exact true unevenList rfl (by decide) (by decide)
  exact ⟨hexact.1 3 (by decide), hexact.2.1 2 _ rfl⟩

end PoleClient.LoadBalance.WeightRandomLoadbalancer
