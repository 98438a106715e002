import Mathlib.Data.List.Chain
import PoleClient.Lib.SmoothRoundRobin
import PoleClient.LoadBalance.RoundRobin

/-! # Fairness of the weighted round robin

Calls on one list of a service, each within the expiry of the one before, take
the turns of the smooth weighted round robin: the 64-bit numbers stay far from
their ends, so that the current weights are the credits themselves.
-/

namespace PoleClient.LoadBalance.WeightedRoundRobinBalancer

open Lib.SmoothRoundRobin

/-! ## What the two loops leave in the entries -/

section Loops

variable {now : Nat} {instances : List Instance} {robins : RoundRobins}

theorem upToDate_of_notMem {id : String} (h : id ∉ instances.map Instance.id) :
    upToDate now instances robins id = robins id := by
  induction instances generalizing robins with
  | nil => rfl
  | cons ins instances ih =>
      rw [List.map_cons, List.mem_cons, not_or] at h
      rw [upToDate, ih h.2, Function.update_of_ne h.1]

theorem upToDate_of_mem (distinct : (instances.map Instance.id).Nodup) {ins : Instance}
    (h : ins ∈ instances) :
    upToDate now instances robins ins.id =
      some (((robins ins.id).getD (.new now ins.weight)).followWeight ins.weight) := by
  induction instances generalizing robins with
  | nil => cases h
  | cons head instances ih =>
      rw [List.map_cons, List.nodup_cons] at distinct
      rw [upToDate]
      rcases List.mem_cons.mp h with rfl | htail
      · rw [upToDate_of_notMem distinct.1, Function.update_self]
      · have hne : ins.id ≠ head.id := fun heq =>
          distinct.1 (heq ▸ List.mem_map_of_mem htail)
        rw [ih distinct.2 htail, Function.update_of_ne hne]

def Carries (robins : RoundRobins) (credit : String → Int) (ins : Instance) : Prop :=
  ∃ robin, robins ins.id = some robin ∧ robin.weight = ins.weight ∧
    robin.curWeight.toInt = credit ins.id

def Raised (now : Nat) (robins : RoundRobins) (credit : String → Int) (ins : Instance) : Prop :=
  ∃ robin, robins ins.id = some robin ∧ robin.weight = ins.weight ∧
    robin.curWeight.toInt = credit ins.id + ins.weight.toNat ∧ robin.lastFetch = now

/-- The walk keeps its start or ends with the largest sum. -/
def Best (instances : List Instance) (credit : String → Int) (start result : Selection) : Prop :=
  (∀ ins ∈ instances, credit ins.id + ins.weight.toNat ≤ result.maxWeight.toInt) ∧
    start.maxWeight.toInt ≤ result.maxWeight.toInt ∧
    (result = start ∨ ∃ ins ∈ instances, result.selected = some ins ∧
      result.maxWeight.toInt = credit ins.id + ins.weight.toNat)

theorem best_cons {ins : Instance} {credit : String → Int} {start result : Selection}
    {sum : Int64} (hsum : sum.toInt = credit ins.id + ins.weight.toNat)
    (best : Best instances credit
      (if start.maxWeight < sum then ⟨sum, some ins⟩ else start) result) :
    Best (ins :: instances) credit start result := by
  obtain ⟨hall, hstart, hresult⟩ := best
  by_cases habove : start.maxWeight < sum
  · rw [if_pos habove] at hstart hresult
    have hlt := Int64.lt_iff_toInt_lt.mp habove
    refine ⟨List.forall_mem_cons.mpr ⟨hsum ▸ hstart, hall⟩, ?_, .inr ?_⟩
    · have hle : sum.toInt ≤ result.maxWeight.toInt := hstart
      omega
    · rcases hresult with rfl | ⟨other, hother, hselected⟩
      · exact ⟨ins, List.mem_cons_self, rfl, hsum⟩
      · exact ⟨other, List.mem_cons_of_mem ins hother, hselected⟩
  · rw [if_neg habove] at hstart hresult
    have hle : sum.toInt ≤ start.maxWeight.toInt := by
      have hnot : ¬ start.maxWeight.toInt < sum.toInt :=
        fun h => habove (Int64.lt_iff_toInt_lt.mpr h)
      omega
    refine ⟨List.forall_mem_cons.mpr ⟨by omega, hall⟩, hstart, ?_⟩
    rcases hresult with rfl | ⟨other, hother, hselected⟩
    · exact .inl rfl
    · exact .inr ⟨other, List.mem_cons_of_mem ins hother, hselected⟩

/-- A walk that begins with the least number selects an instance, if there is one. -/
theorem Best.selected {credit : String → Int} {result : Selection}
    (best : Best instances credit ⟨Int64.minValue, none⟩ result) (hlist : instances ≠ [])
    (above : ∀ ins ∈ instances, -2 ^ 63 < credit ins.id + ins.weight.toNat) :
    ∃ ins ∈ instances, result.selected = some ins ∧
      result.maxWeight.toInt = credit ins.id + ins.weight.toNat := by
  obtain ⟨hall, -, hresult⟩ := best
  rcases hresult with hstart | hbest
  · obtain ⟨ins, hins⟩ := List.exists_mem_of_ne_nil _ hlist
    have hle := hall ins hins
    have habove := above ins hins
    have hmin : result.maxWeight.toInt = -2 ^ 63 := by
      rw [hstart]
      rfl
    omega
  · exact hbest

/-- Where every sum fits into 64 bits, the walk raises every entry by its weight and ends with an
instance whose sum is the largest. -/
theorem select_best (overflowChecks : Bool) (distinct : (instances.map Instance.id).Nodup)
    {credit : String → Int} (carries : ∀ ins ∈ instances, Carries robins credit ins)
    (fits : ∀ ins ∈ instances, -2 ^ 63 ≤ credit ins.id + ins.weight.toNat ∧
      credit ins.id + ins.weight.toNat < 2 ^ 63) (start : Selection) :
    ∃ after result, select overflowChecks now instances robins start = .ok (after, result) ∧
      (∀ ins ∈ instances, Raised now after credit ins) ∧
      (∀ id, id ∉ instances.map Instance.id → after id = robins id) ∧
      Best instances credit start result := by
  induction instances generalizing robins start with
  | nil => exact ⟨robins, start, rfl, by simp, by simp, by simp, Int.le_refl _, .inl rfl⟩
  | cons ins instances ih =>
      rw [List.map_cons, List.nodup_cons] at distinct
      rw [List.forall_mem_cons] at carries fits
      obtain ⟨⟨robin, hrobin, hweight, hcredit⟩, carries⟩ := carries
      obtain ⟨hfits, fits⟩ := fits
      have hsum : robin.increasedWeight = credit ins.id + ins.weight.toNat := by
        rw [WeightedRoundRobin.increasedWeight, hcredit, hweight]
      have hraised : robin.increaseCurWeight.curWeight.toInt =
          credit ins.id + ins.weight.toNat := by
        rw [WeightedRoundRobin.increaseCurWeight, ← hsum]
        exact Int64.toInt_ofInt_of_le (by omega) (by omega)
      have hne : ∀ other ∈ instances, other.id ≠ ins.id := fun other hother heq =>
        distinct.1 (heq ▸ List.mem_map_of_mem hother)
      have hrest : ∀ other ∈ instances, Carries (Function.update robins ins.id
          (some (robin.increaseCurWeight.updateLastFetch now))) credit other := by
        intro other hother
        unfold Carries
        rw [Function.update_of_ne (hne other hother)]
        exact carries other hother
      obtain ⟨after, result, hselect, hafter, hothers, hbest⟩ := ih distinct.2 hrest fits
          (if start.maxWeight < robin.increaseCurWeight.curWeight then
            ⟨robin.increaseCurWeight.curWeight, some ins⟩ else start)
      refine ⟨after, result, ?_, ?_, ?_, best_cons hraised hbest⟩
      · have hsmall : ¬ (overflowChecks && decide (2 ^ 63 ≤ robin.increasedWeight)) = true := by
          rw [hsum]
          simp only [Bool.and_eq_true, decide_eq_true_eq]
          omega
        simp only [select, hrobin, if_neg hsmall]
        exact hselect
      · refine List.forall_mem_cons.mpr ⟨?_, hafter⟩
        refine ⟨robin.increaseCurWeight.updateLastFetch now, ?_, hweight, hraised, rfl⟩
        rw [hothers ins.id distinct.1, Function.update_self]
      · intro id hid
        rw [List.map_cons, List.mem_cons, not_or] at hid
        rw [hothers id hid.2, Function.update_of_ne hid.1]

end Loops

/-! ## The participants -/

def ids (instances : ServiceInstances) : Finset String :=
  (instances.instances.map Instance.id).toFinset

def weightOf (instances : ServiceInstances) (id : String) : Nat :=
  ((instances.instances.find? fun ins => ins.id == id).map fun ins => ins.weight.toNat).getD 0

/-- Distinct ids, and the sum of the weights as the total, which 32 bits hold. -/
structure Weighted (instances : ServiceInstances) : Prop where
  distinct : (instances.instances.map Instance.id).Nodup
  total : (instances.instances.map fun ins => ins.weight.toNat).sum = instances.getTotalWeight
  pos : 0 < instances.getTotalWeight
  small : instances.getTotalWeight < 2 ^ 32

/-- The credits after these turns from nothing. -/
abbrev credits (instances : ServiceInstances) (turns : List String) : String → Int :=
  Lib.run (turn (ids instances) (weightOf instances)) (fun _ => 0) turns

/-- Each of these turns from nothing went to a largest credit. -/
abbrev Smooth (instances : ServiceInstances) (turns : List String) : Prop :=
  Lib.Along (turn (ids instances) (weightOf instances))
    (Largest (ids instances) (weightOf instances)) (fun _ => 0) turns

theorem mem_ids {instances : ServiceInstances} {ins : Instance} (h : ins ∈ instances.instances) :
    ins.id ∈ ids instances :=
  List.mem_toFinset.mpr (List.mem_map_of_mem h)

section Participants

variable {instances : ServiceInstances} (weighted : Weighted instances)
include weighted

theorem weightOf_of_mem {ins : Instance} (h : ins ∈ instances.instances) :
    weightOf instances ins.id = ins.weight.toNat := by
  have hfind : instances.instances.find? (fun other => other.id == ins.id) = some ins := by
    obtain ⟨before, after, hsplit⟩ := List.append_of_mem h
    have hdistinct := weighted.distinct
    rw [hsplit, List.map_append, List.nodup_append] at hdistinct
    rw [hsplit, List.find?_append, List.find?_eq_none.mpr]
    · simp
    · intro other hother
      have hne := hdistinct.2.2 other.id (List.mem_map_of_mem hother) ins.id (by simp)
      simpa using hne
  rw [weightOf, hfind]
  rfl

theorem sum_ids (credit : String → Int) :
    ∑ id ∈ ids instances, credit id =
      (instances.instances.map fun ins => credit ins.id).sum := by
  rw [ids, List.sum_toFinset _ weighted.distinct, List.map_map]
  rfl

theorem total_ids : total (ids instances) (weightOf instances) = instances.getTotalWeight := by
  rw [total, ids, List.sum_toFinset _ weighted.distinct, List.map_map, ← weighted.total]
  congr 1
  exact List.map_congr_left fun ins hins => weightOf_of_mem weighted hins

theorem total_pos : 0 < total (ids instances) (weightOf instances) :=
  (total_ids weighted).symm ▸ weighted.pos

theorem weight_le_total {ins : Instance} (h : ins ∈ instances.instances) :
    ins.weight.toNat ≤ instances.getTotalWeight := by
  rw [← total_ids weighted, ← weightOf_of_mem weighted h]
  exact Finset.single_le_sum (fun _ _ => Nat.zero_le _) (mem_ids h)

theorem ne_nil : instances.instances ≠ [] := by
  intro hnil
  have htotal := weighted.total
  have hpos := weighted.pos
  rw [hnil] at htotal
  simp only [List.map_nil, List.sum_nil] at htotal
  omega

/-- Credits of a run from nothing leave room in 64 bits for a weight more and a total less. -/
theorem credit_bounds {turns : List String} (along : Smooth instances turns) {ins : Instance}
    (h : ins ∈ instances.instances) :
    -2 ^ 32 < credits instances turns ins.id ∧
      credits instances turns ins.id + ins.weight.toNat < 2 ^ 63 := by
  have hpos := total_pos weighted
  have habove : -(total (ids instances) (weightOf instances) : Int) <
      credits instances turns ins.id :=
    (balanced_run hpos (balanced_zero hpos) along).above ins.id (mem_ids h)
  have hle : 2 * credits instances turns ins.id ≤
      (total (ids instances) (weightOf instances) - 1) *
        total (ids instances) (weightOf instances) := run_le hpos along (mem_ids h)
  have hweight := weight_le_total weighted h
  have hsmall := weighted.small
  rw [total_ids weighted] at habove hle
  have hsquare : (instances.getTotalWeight - 1 : Int) * instances.getTotalWeight ≤
      (2 ^ 32 - 2) * (2 ^ 32 - 1) :=
    mul_le_mul (by omega) (by omega) (by omega) (by omega)
  constructor
  · omega
  · omega

end Participants

/-! ## One call is one turn -/

/-- What a call on the list finds: no entry has expired, and each carries its credit. -/
def Carried (balancer : WeightedRoundRobinBalancer) (instances : ServiceInstances) (now : Nat)
    (credit : String → Int) : Prop :=
  Unexpired balancer ⟨now, instances⟩ ∧
    ∀ ins ∈ instances.instances, Carries (brought balancer ⟨now, instances⟩) credit ins

theorem chooseInstance_turn (overflowChecks : Bool) {balancer : WeightedRoundRobinBalancer}
    (sound : Sound balancer) {instances : ServiceInstances} (weighted : Weighted instances)
    {credit : String → Int} {now : Nat} (carried : Carried balancer instances now credit)
    (bounds : ∀ ins ∈ instances.instances,
      -2 ^ 32 < credit ins.id ∧ credit ins.id + ins.weight.toNat < 2 ^ 63) :
    ∃ ins ∈ instances.instances, ∃ after,
      chooseInstance overflowChecks balancer ⟨now, instances⟩ =
        (balancer.setRobins instances.getCacheKey ⟨after, false⟩, .ok ins) ∧
      Largest (ids instances) (weightOf instances) credit ins.id ∧
      ∀ other ∈ instances.instances, ∃ robin, after other.id = some robin ∧
        robin.weight = other.weight ∧ robin.lastFetch = now ∧
        robin.curWeight.toInt =
          turn (ids instances) (weightOf instances) credit ins.id other.id := by
  have hsmall := weighted.small
  have hprepare : balancer.prepare ⟨now, instances⟩ =
      .ok ⟨brought balancer ⟨now, instances⟩, false⟩ := by
    rcases prepare_cases sound ⟨now, instances⟩ with ⟨-, h⟩ | ⟨h, -⟩
    · exact h
    · exact absurd carried.1 h
  have hempty : Call.isEmpty ⟨now, instances⟩ = false := by
    have hpos := weighted.pos
    simp only [Call.isEmpty, Bool.or_eq_false_iff, List.isEmpty_eq_false_iff, beq_eq_false_iff_ne]
    exact ⟨ne_nil weighted, by omega⟩
  have hfits : ∀ ins ∈ instances.instances, -2 ^ 63 ≤ credit ins.id + ins.weight.toNat ∧
      credit ins.id + ins.weight.toNat < 2 ^ 63 := by
    intro ins hins
    have hbound := bounds ins hins
    omega
  obtain ⟨raised, result, hselect, hraised, -, hbest⟩ :=
    @select_best now _ _ overflowChecks weighted.distinct _ carried.2 hfits
      ⟨Int64.minValue, none⟩
  have habove : ∀ ins ∈ instances.instances, -2 ^ 63 < credit ins.id + ins.weight.toNat := by
    intro ins hins
    have hbound := bounds ins hins
    omega
  obtain ⟨ins, hins, hselected, hmax⟩ := hbest.selected (ne_nil weighted) habove
  refine ⟨ins, hins, Function.update raised ins.id ((raised ins.id).map fun robin =>
    robin.decreaseCurWeight (UInt32.ofNat instances.getTotalWeight)), ?_, ?_, ?_⟩
  · rw [chooseInstance_of_prepared overflowChecks sound hempty hprepare]
    simp only [pick, hselect, hselected]
  · refine ⟨mem_ids hins, ?_⟩
    intro id hid
    obtain ⟨other, hother, rfl⟩ := List.mem_map.mp (List.mem_toFinset.mp hid)
    rw [weightOf_of_mem weighted hother, weightOf_of_mem weighted hins, ← hmax]
    exact hbest.1 other hother
  · intro other hother
    obtain ⟨robin, hrobin, hweight, hsum, hfetch⟩ := hraised other hother
    rw [turn, total_ids weighted, weightOf_of_mem weighted hother]
    by_cases hid : other.id = ins.id
    · have hbound := bounds other hother
      refine ⟨robin.decreaseCurWeight (UInt32.ofNat instances.getTotalWeight), ?_, hweight,
        hfetch, ?_⟩
      · rw [hid, Function.update_self, ← hid, hrobin]
        rfl
      · have htotal : (UInt32.ofNat instances.getTotalWeight).toNat = instances.getTotalWeight :=
          UInt32.toNat_ofNat_of_lt' hsmall
        rw [if_pos hid, ← hsum, WeightedRoundRobin.decreaseCurWeight, htotal]
        exact Int64.toInt_ofInt_of_le (by omega) (by omega)
    · refine ⟨robin, ?_, hweight, hfetch, ?_⟩
      · rw [Function.update_of_ne hid, hrobin]
      · rw [if_neg hid, hsum]
        omega

theorem carried_of_fresh {balancer : WeightedRoundRobinBalancer} {instances : ServiceInstances}
    (weighted : Weighted instances)
    (fresh : balancer.roundRobinCache instances.getCacheKey = none) (now : Nat) :
    Carried balancer instances now fun _ => 0 := by
  have hentries : entries balancer ⟨now, instances⟩ = fun _ => none := by
    simp only [entries, fresh, Option.map_none, Option.getD_none]
  constructor
  · intro ins _ robin hrobin
    rw [hentries] at hrobin
    cases hrobin
  · intro ins hins
    refine ⟨.new now ins.weight, ?_, rfl, rfl⟩
    rw [brought, hentries, upToDate_of_mem weighted.distinct hins]
    simp [WeightedRoundRobin.followWeight, WeightedRoundRobin.new]

/-- What a call leaves behind the next one finds, unless it comes after the expiry. -/
theorem carried_setRobins {balancer : WeightedRoundRobinBalancer} {instances : ServiceInstances}
    (weighted : Weighted instances) {credit : String → Int} {last now : Nat}
    (gap : (now - last) / 1000000000 ≤ 60) {after : RoundRobins}
    (left : ∀ ins ∈ instances.instances, ∃ robin, after ins.id = some robin ∧
      robin.weight = ins.weight ∧ robin.lastFetch = last ∧
      robin.curWeight.toInt = credit ins.id) :
    Carried (balancer.setRobins instances.getCacheKey ⟨after, false⟩) instances now credit := by
  have hentries : entries (balancer.setRobins instances.getCacheKey ⟨after, false⟩)
      ⟨now, instances⟩ = after := by
    simp only [entries, setRobins, Function.update_self, Option.map_some, Option.getD_some]
  constructor
  · intro ins hins robin hrobin
    obtain ⟨found, hfound, -, hfetch, -⟩ := left ins hins
    rw [hentries, hfound] at hrobin
    rw [← Option.some.inj hrobin, WeightedRoundRobin.isExpire, hfetch]
    simpa using gap
  · intro ins hins
    obtain ⟨robin, hrobin, hweight, -, hcredit⟩ := left ins hins
    refine ⟨robin, ?_, hweight, hcredit⟩
    rw [brought, hentries, upToDate_of_mem weighted.distinct hins, hrobin, Option.getD_some,
      WeightedRoundRobin.followWeight, if_neg (by simp [hweight])]

/-! ## Runs -/

def outcomes (overflowChecks : Bool) : WeightedRoundRobinBalancer → List Call → List Outcome
  | _, [] => []
  | balancer, call :: calls =>
      outcome overflowChecks balancer call ::
        outcomes overflowChecks (choose overflowChecks balancer call) calls

def selects (ins : Instance) : Outcome → Bool
  | .ok selected => selected.id == ins.id
  | .err _ => false
  | .failed _ => false

def callsAt (instances : ServiceInstances) (nows : List Nat) : List Call :=
  nows.map fun now => ⟨now, instances⟩

def currentWeight (balancer : WeightedRoundRobinBalancer) (instances : ServiceInstances)
    (ins : Instance) : Int :=
  (((balancer.roundRobinCache instances.getCacheKey).bind fun robins =>
    robins.roundRobins ins.id).map fun robin => robin.curWeight.toInt).getD 0

/-- The moments of successive calls, none more than the expiry after the one before it. -/
def WithinExpiry (nows : List Nat) : Prop :=
  nows.IsChain fun last now => (now - last) / 1000000000 ≤ 60

theorem currentWeight_setRobins {balancer : WeightedRoundRobinBalancer}
    {instances : ServiceInstances} {after : RoundRobins} {ins : Instance}
    {robin : WeightedRoundRobin} (h : after ins.id = some robin) :
    currentWeight (balancer.setRobins instances.getCacheKey ⟨after, false⟩) instances ins =
      robin.curWeight.toInt := by
  simp [currentWeight, setRobins, h]

theorem count_selects (ins : Instance) (chosen : List Instance) :
    (chosen.map Outcome.ok).countP (selects ins) = (chosen.map Instance.id).count ins.id := by
  rw [List.countP_map, List.count_eq_countP, List.countP_map]
  rfl

section Runs

variable {instances : ServiceInstances} (weighted : Weighted instances)
include weighted

/-- The calls choose by turns, and the current weights are the credits. -/
theorem run_turns (overflowChecks : Bool) {nows : List Nat}
    {balancer : WeightedRoundRobinBalancer} {turns : List String} (sound : Sound balancer)
    (along : Smooth instances turns)
    (carried : ∀ now ∈ nows.head?, Carried balancer instances now (credits instances turns))
    (gaps : WithinExpiry nows)
    (shown : ∀ ins ∈ instances.instances,
      currentWeight balancer instances ins = credits instances turns ins.id) :
    ∃ chosen : List Instance, (∀ ins ∈ chosen, ins ∈ instances.instances) ∧
      outcomes overflowChecks balancer (callsAt instances nows) = chosen.map Outcome.ok ∧
      Smooth instances (turns ++ chosen.map Instance.id) ∧
      ∀ ins ∈ instances.instances,
        currentWeight (Lib.run (choose overflowChecks) balancer (callsAt instances nows))
          instances ins =
        credits instances (turns ++ chosen.map Instance.id) ins.id := by
  induction nows generalizing balancer turns with
  | nil => exact ⟨[], by simp, rfl, by simpa using along, by simpa [callsAt] using shown⟩
  | cons now nows ih =>
      obtain ⟨ins, hins, after, hcall, hlargest, hafter⟩ :=
        chooseInstance_turn overflowChecks sound weighted (carried now rfl)
          fun ins hins => credit_bounds weighted along hins
      have hchoose : choose overflowChecks balancer ⟨now, instances⟩ =
          balancer.setRobins instances.getCacheKey ⟨after, false⟩ := by rw [choose, hcall]
      have hsound : Sound (choose overflowChecks balancer ⟨now, instances⟩) :=
        hchoose ▸ sound_setRobins sound _ after
      have hnext : Smooth instances (turns ++ [ins.id]) :=
        Lib.along_append.mpr ⟨along, hlargest, trivial⟩
      have hcredit : credits instances (turns ++ [ins.id]) =
          turn (ids instances) (weightOf instances) (credits instances turns) ins.id := by
        rw [credits, Lib.run_append]
        rfl
      have hcarried : ∀ later ∈ nows.head?, Carried
          (choose overflowChecks balancer ⟨now, instances⟩) instances later
          (credits instances (turns ++ [ins.id])) := by
        intro later hlater
        cases nows with
        | nil => cases hlater
        | cons second nows =>
            obtain rfl := Option.some.inj hlater
            rw [hchoose, hcredit]
            exact carried_setRobins weighted (List.isChain_cons_cons.mp gaps).1 hafter
      have hshown : ∀ other ∈ instances.instances,
          currentWeight (choose overflowChecks balancer ⟨now, instances⟩) instances other =
            credits instances (turns ++ [ins.id]) other.id := by
        intro other hother
        obtain ⟨robin, hrobin, -, -, hweight⟩ := hafter other hother
        rw [hchoose, currentWeight_setRobins hrobin, hcredit]
        exact hweight
      obtain ⟨chosen, hmem, houtcomes, halong, hweights⟩ :=
        ih hsound hnext hcarried gaps.tail hshown
      rw [List.append_assoc] at halong hweights
      refine ⟨ins :: chosen, List.forall_mem_cons.mpr ⟨hins, hmem⟩, ?_, halong, hweights⟩
      rw [callsAt, List.map_cons, outcomes, List.map_cons]
      congr 1
      rw [outcome, hcall]

theorem run_fresh (overflowChecks : Bool) {balancer : WeightedRoundRobinBalancer}
    (sound : Sound balancer)
    (fresh : balancer.roundRobinCache instances.getCacheKey = none) {nows : List Nat}
    (gaps : WithinExpiry nows) :
    ∃ chosen : List Instance, (∀ ins ∈ chosen, ins ∈ instances.instances) ∧
      outcomes overflowChecks balancer (callsAt instances nows) = chosen.map Outcome.ok ∧
      Smooth instances (chosen.map Instance.id) ∧
      ∀ ins ∈ instances.instances,
        currentWeight (Lib.run (choose overflowChecks) balancer (callsAt instances nows))
          instances ins =
        credits instances (chosen.map Instance.id) ins.id := by
  have along : Smooth instances [] := trivial
  have shown : ∀ ins ∈ instances.instances,
      currentWeight balancer instances ins = credits instances [] ins.id := by
    intro ins _
    simp [currentWeight, fresh]
  exact run_turns weighted overflowChecks sound along
    (fun now _ => carried_of_fresh weighted fresh now) gaps shown

end Runs

theorem outcomes_append (overflowChecks : Bool) (balancer : WeightedRoundRobinBalancer)
    (first second : List Call) :
    outcomes overflowChecks balancer (first ++ second) =
      outcomes overflowChecks balancer first ++
        outcomes overflowChecks (Lib.run (choose overflowChecks) balancer first) second := by
  induction first generalizing balancer with
  | nil => rfl
  | cons call first ih => rw [List.cons_append, outcomes, outcomes, ih]; rfl

theorem length_outcomes (overflowChecks : Bool) (balancer : WeightedRoundRobinBalancer)
    (calls : List Call) : (outcomes overflowChecks balancer calls).length = calls.length := by
  induction calls generalizing balancer with
  | nil => rfl
  | cons call calls ih => rw [outcomes, List.length_cons, List.length_cons, ih]

/-- From fresh state every call on the list chooses. After each of them the current weights sum to
zero and none has fallen by the total; in every round of as many calls as the total each instance
is chosen as often as its weight says, and then all current weights are zero. -/
theorem fair (overflowChecks : Bool) {balancer : WeightedRoundRobinBalancer}
    (sound : Sound balancer) {instances : ServiceInstances} (weighted : Weighted instances)
    (fresh : balancer.roundRobinCache instances.getCacheKey = none) {nows : List Nat}
    (gaps : WithinExpiry nows) :
    (∀ outcome ∈ outcomes overflowChecks balancer (callsAt instances nows),
      ∃ ins ∈ instances.instances, outcome = .ok ins) ∧
    (∀ part, part <+: nows →
      let balancer := Lib.run (choose overflowChecks) balancer (callsAt instances part)
      (instances.instances.map (currentWeight balancer instances)).sum = 0 ∧
        ∀ ins ∈ instances.instances,
          -(instances.getTotalWeight : Int) < currentWeight balancer instances ins) ∧
    ∀ before round, before ++ round <+: nows → instances.getTotalWeight ∣ before.length →
      round.length = instances.getTotalWeight →
      let start := Lib.run (choose overflowChecks) balancer (callsAt instances before)
      ∀ ins ∈ instances.instances,
        (outcomes overflowChecks start (callsAt instances round)).countP (selects ins) =
          ins.weight.toNat ∧
        currentWeight (Lib.run (choose overflowChecks) start (callsAt instances round))
          instances ins = 0 := by
  have hpos := total_pos weighted
  refine ⟨?_, ?_, ?_⟩
  · intro outcome houtcome
    obtain ⟨chosen, hmem, houtcomes, -⟩ := run_fresh weighted overflowChecks sound fresh gaps
    rw [houtcomes] at houtcome
    obtain ⟨ins, hins, rfl⟩ := List.mem_map.mp houtcome
    exact ⟨ins, hmem ins hins, rfl⟩
  · intro part hpart
    obtain ⟨later, rfl⟩ := hpart
    obtain ⟨chosen, -, -, along, hweights⟩ :=
      run_fresh weighted overflowChecks sound fresh gaps.left_of_append
    have hbalanced := balanced_run hpos (balanced_zero hpos) along
    constructor
    · rw [List.map_congr_left hweights, ← sum_ids weighted]
      exact hbalanced.sum
    · intro ins hins
      rw [hweights ins hins, ← total_ids weighted]
      exact hbalanced.above ins.id (mem_ids hins)
  · intro before round hpart hbefore hround start ins hins
    obtain ⟨later, rfl⟩ := hpart
    obtain ⟨chosen, -, houtcomes, along, hweights⟩ :=
      run_fresh weighted overflowChecks sound fresh gaps.left_of_append
    rw [callsAt, List.map_append, outcomes_append] at houtcomes
    obtain ⟨first, second, rfl, hfirst, hsecond⟩ := List.append_eq_map_iff.mp houtcomes
    have hfirstLength : (first.map Instance.id).length = before.length := by
      have h := congrArg List.length hfirst
      rw [length_outcomes, List.length_map, List.length_map] at h
      rw [List.length_map, h]
    have hsecondLength : (second.map Instance.id).length = round.length := by
      have h := congrArg List.length hsecond
      rw [length_outcomes, List.length_map, List.length_map] at h
      rw [List.length_map, h]
    rw [List.map_append] at along hweights
    have htotal := total_ids weighted
    constructor
    · have hchosen : outcomes overflowChecks start (callsAt instances round) =
          second.map Outcome.ok := hsecond.symm
      rw [hchosen, count_selects, ← weightOf_of_mem weighted hins]
      exact count_of_round hpos along (by rw [htotal, hfirstLength]; exact hbefore)
        (by rw [htotal, hsecondLength]; exact hround) ins.id (mem_ids hins)
    · have hweight := hweights ins hins
      rw [callsAt, List.map_append, Lib.run_append] at hweight
      apply hweight.trans
      obtain ⟨rounds, hrounds⟩ := hbefore
      have hlength : (first.map Instance.id ++ second.map Instance.id).length =
          (rounds + 1) * total (ids instances) (weightOf instances) := by
        rw [List.length_append, hfirstLength, hsecondLength, htotal, hrounds, hround]
        ring
      exact run_of_rounds hpos along hlength ins.id (mem_ids hins)

def instanceOf (id : String) (weight : UInt32) : Instance :=
  ⟨id, "default", "orders", "127.0.0.1", 8080, "", "", "", true, false, weight, 0, .empty,
    default, ""⟩

def twoInstances : ServiceInstances :=
  .new ⟨"", "default", "orders", .empty, "rev-1"⟩ [instanceOf "a" 1, instanceOf "b" 2]

theorem fair_to_two :
    (outcomes true new (callsAt twoInstances [0, 60000000000, 120000000000])).countP
        (selects (instanceOf "a" 1)) = 1 ∧
      (outcomes true new (callsAt twoInstances [0, 60000000000, 120000000000])).countP
        (selects (instanceOf "b" 2)) = 2 := by
  have gaps : WithinExpiry [0, 60000000000, 120000000000] := by
    unfold WithinExpiry
    decide
  have weighted : Weighted twoInstances := ⟨by decide, rfl, by decide, by decide⟩
  have hround := (fair true sound_new weighted rfl gaps).2.2 []
    [0, 60000000000, 120000000000] (List.prefix_refl _) (Nat.dvd_zero _) rfl
  exact ⟨(hround (instanceOf "a" 1) (by simp [twoInstances, ServiceInstances.new])).1,
    (hround (instanceOf "b" 2) (by simp [twoInstances, ServiceInstances.new])).1⟩

end PoleClient.LoadBalance.WeightedRoundRobinBalancer
