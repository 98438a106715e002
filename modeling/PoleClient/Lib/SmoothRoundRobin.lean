import Mathlib.Algebra.BigOperators.Fin
import Mathlib.Algebra.Order.BigOperators.Group.Finset
import Mathlib.Algebra.BigOperators.Ring.Finset
import Mathlib.Tactic.Linarith
import Mathlib.Tactic.Ring
import PoleClient.Lib.Run

/-! # Smooth weighted round robin

Every turn credits each participant with its weight and takes the total of the
weights from one whose credit is then the largest. Where nobody has any credit
at first, the credits sum to zero and none falls by a whole total; in every
round of as many turns as the total, each participant has its weight's number
of them.
-/

namespace Lib.SmoothRoundRobin

variable {ι : Type} (s : Finset ι) (w : ι → Nat)

def total : Nat := ∑ i ∈ s, w i

def Largest (credit : ι → Int) (j : ι) : Prop :=
  j ∈ s ∧ ∀ i ∈ s, credit i + w i ≤ credit j + w j

structure Balanced (credit : ι → Int) : Prop where
  sum : ∑ i ∈ s, credit i = 0
  above : ∀ i ∈ s, -(total s w : Int) < credit i
  idle : ∀ i ∈ s, w i = 0 → credit i = 0

variable {s w} {credit : ι → Int} {j : ι}

theorem sum_weights : ∑ i ∈ s, (w i : Int) = total s w := by
  unfold total
  push_cast
  rfl

theorem balanced_zero (pos : 0 < total s w) : Balanced s w fun _ => 0 where
  sum := Finset.sum_const_zero
  above := fun _ _ => by omega
  idle := fun _ _ _ => rfl

/-! ## One turn -/

/-- The largest credit of a turn is positive, since the credits then sum to the total. -/
theorem Largest.pos (largest : Largest s w credit j) (balanced : Balanced s w credit)
    (pos : 0 < total s w) : 0 < credit j + w j := by
  by_contra hnot
  have hsum : ∑ i ∈ s, (credit i + (w i : Int)) = total s w := by
    rw [Finset.sum_add_distrib, balanced.sum, zero_add, sum_weights]
  have hle : ∑ i ∈ s, (credit i + (w i : Int)) ≤ 0 := by
    apply Finset.sum_nonpos
    intro i hi
    have hi := largest.2 i hi
    omega
  omega

theorem Largest.weight_pos (largest : Largest s w credit j) (balanced : Balanced s w credit)
    (pos : 0 < total s w) : 0 < w j := by
  have hpos := largest.pos balanced pos
  by_contra hnot
  have hweight : w j = 0 := by omega
  have hidle := balanced.idle j largest.1 hweight
  omega

variable [DecidableEq ι]

variable (s w) in
def turn (credit : ι → Int) (j : ι) : ι → Int :=
  fun i => credit i + w i - if i = j then (total s w : Int) else 0

theorem sum_turn (h : j ∈ s) : ∑ i ∈ s, turn s w credit j i = ∑ i ∈ s, credit i := by
  have htaken : ∑ i ∈ s, (if i = j then (total s w : Int) else 0) = total s w := by
    rw [Finset.sum_ite_eq' s j, if_pos h]
  unfold turn
  rw [Finset.sum_sub_distrib, Finset.sum_add_distrib, sum_weights, htaken]
  ring

theorem balanced_turn (pos : 0 < total s w) (balanced : Balanced s w credit)
    (largest : Largest s w credit j) : Balanced s w (turn s w credit j) where
  sum := (sum_turn largest.1).trans balanced.sum
  above := by
    intro i hi
    unfold turn
    by_cases hij : i = j
    · subst hij
      have hpos := largest.pos balanced pos
      rw [if_pos rfl]
      omega
    · have habove := balanced.above i hi
      rw [if_neg hij]
      omega
  idle := by
    intro i hi hweight
    have hne : i ≠ j := by
      intro hij
      have hpos := largest.weight_pos balanced pos
      rw [← hij] at hpos
      omega
    have hidle := balanced.idle i hi hweight
    unfold turn
    rw [if_neg hne]
    omega

/-! ## Runs -/

theorem balanced_run (pos : 0 < total s w) {turns : List ι} (balanced : Balanced s w credit)
    (along : Along (turn s w) (Largest s w) credit turns) :
    Balanced s w (run (turn s w) credit turns) :=
  run_invariant (fun _ _ => balanced_turn pos) balanced along

/-- A credit after a run: what was there, the weight for each turn, less the own turns. -/
theorem run_turn (credit : ι → Int) (turns : List ι) (i : ι) :
    run (turn s w) credit turns i =
      credit i + turns.length * w i - turns.count i * total s w := by
  induction turns generalizing credit with
  | nil => simp
  | cons j turns ih =>
      rw [run_cons, ih, turn, List.length_cons, List.count_cons]
      by_cases hij : i = j
      · simp only [hij, if_true, beq_self_eq_true]
        push_cast
        ring
      · have hji : (j == i) = false := by simpa using fun h : j = i => hij h.symm
        simp only [hij, if_false, hji]
        push_cast
        ring

theorem mem_of_along {turns : List ι} (along : Along (turn s w) (Largest s w) credit turns) :
    ∀ i ∈ turns, i ∈ s := by
  induction turns generalizing credit with
  | nil => exact fun _ h => nomatch h
  | cons j turns ih =>
      intro i hi
      rcases List.mem_cons.mp hi with rfl | hi
      · exact along.1.1
      · exact ih along.2 i hi

theorem sum_count {turns : List ι} (mem : ∀ i ∈ turns, i ∈ s) :
    ∑ i ∈ s, turns.count i = turns.length := by
  have hsum := Multiset.sum_count_eq_card (s := s) (m := (turns : Multiset ι))
    (by simpa using mem)
  simpa using hsum

/-! ## Rounds -/

/-- After whole rounds everybody has had as many turns as its weights add up to. The credits bound
every count from above, and the counts add up to all turns. -/
theorem count_of_rounds (pos : 0 < total s w) {turns : List ι} {rounds : Nat}
    (along : Along (turn s w) (Largest s w) (fun _ => 0) turns)
    (hlength : turns.length = rounds * total s w) :
    ∀ i ∈ s, turns.count i = rounds * w i := by
  have hle : ∀ i ∈ s, turns.count i ≤ rounds * w i := by
    intro i hi
    have habove := (balanced_run pos (balanced_zero pos) along).above i hi
    rw [run_turn, hlength] at habove
    push_cast at habove
    have hlt : (total s w : Int) * (turns.count i) < total s w * (rounds * w i + 1) := by
      linarith
    have hcount := lt_of_mul_lt_mul_left hlt (by omega)
    have hcount : turns.count i < rounds * w i + 1 := by exact_mod_cast hcount
    omega
  have hsum : ∑ i ∈ s, turns.count i = ∑ i ∈ s, rounds * w i := by
    rw [sum_count (mem_of_along along), hlength, total, Finset.mul_sum]
  exact (Finset.sum_eq_sum_iff_of_le hle).mp hsum

theorem run_of_rounds (pos : 0 < total s w) {turns : List ι} {rounds : Nat}
    (along : Along (turn s w) (Largest s w) (fun _ => 0) turns)
    (hlength : turns.length = rounds * total s w) :
    ∀ i ∈ s, run (turn s w) (fun _ => 0) turns i = 0 := by
  intro i hi
  rw [run_turn, count_of_rounds pos along hlength i hi, hlength]
  push_cast
  ring

theorem count_of_round (pos : 0 < total s w) {before round : List ι}
    (along : Along (turn s w) (Largest s w) (fun _ => 0) (before ++ round))
    (hbefore : total s w ∣ before.length) (hround : round.length = total s w) :
    ∀ i ∈ s, round.count i = w i := by
  intro i hi
  obtain ⟨rounds, hrounds⟩ := hbefore
  have hbefore : before.length = rounds * total s w := by rw [hrounds, Nat.mul_comm]
  have hturns : (before ++ round).length = (rounds + 1) * total s w := by
    rw [List.length_append, hbefore, hround, Nat.add_mul, Nat.one_mul]
  have hfirst := count_of_rounds pos (along_append.mp along).1 hbefore i hi
  have hall := count_of_rounds pos along hturns i hi
  rw [List.count_append, hfirst, Nat.add_mul, Nat.one_mul] at hall
  omega

/-! ## How large a credit gets -/

/-- Since the last round everybody has earned less than a round's weights. -/
theorem run_le_weight (pos : 0 < total s w) {turns : List ι}
    (along : Along (turn s w) (Largest s w) (fun _ => 0) turns) {i : ι} (hi : i ∈ s) :
    run (turn s w) (fun _ => 0) turns i ≤ (total s w - 1) * w i := by
  let rounds := turns.length / total s w
  let since := turns.length % total s w
  have hlength : turns.length = rounds * total s w + since := by
    rw [Nat.mul_comm]
    exact (Nat.div_add_mod _ _).symm
  have hsince : since < total s w := Nat.mod_lt _ pos
  obtain ⟨before, after, hturns, hbefore⟩ : ∃ before after, turns = before ++ after ∧
      before.length = rounds * total s w :=
    ⟨turns.take (rounds * total s w), turns.drop (rounds * total s w),
      (List.take_append_drop _ _).symm, by rw [List.length_take]; omega⟩
  have hcount : rounds * w i ≤ turns.count i := by
    have hfirst := count_of_rounds pos (along_append.mp (hturns ▸ along)).1 hbefore i hi
    rw [hturns, List.count_append, hfirst]
    omega
  have hearned : (since : Int) * w i ≤ (total s w - 1) * w i :=
    mul_le_mul_of_nonneg_right (by omega) (by omega)
  have hspent : ((rounds * w i : Nat) : Int) * total s w ≤ turns.count i * total s w :=
    mul_le_mul_of_nonneg_right (by exact_mod_cast hcount) (by omega)
  rw [run_turn, hlength]
  push_cast at hspent ⊢
  linarith

/-- What one has, the others lack, and nobody lacks a whole total. -/
theorem Balanced.le_rest (balanced : Balanced s w credit) {i : ι} (hi : i ∈ s) :
    credit i ≤ (total s w - 1) * (total s w - w i) := by
  have hlack : ∀ k ∈ s, -((total s w - 1 : Int) * w k) ≤ credit k := by
    intro k hk
    by_cases hweight : w k = 0
    · rw [balanced.idle k hk hweight, hweight]
      simp
    · have habove := balanced.above k hk
      have hone : (total s w - 1 : Int) * 1 ≤ (total s w - 1) * w k := by
        apply mul_le_mul_of_nonneg_left (by omega)
        have hle : w k ≤ total s w := Finset.single_le_sum (fun _ _ => Nat.zero_le _) hk
        omega
      linarith
  have hothers : ∑ k ∈ s.erase i, -((total s w - 1 : Int) * w k) ≤ ∑ k ∈ s.erase i, credit k :=
    Finset.sum_le_sum fun k hk => hlack k (Finset.mem_of_mem_erase hk)
  have hcredits := Finset.add_sum_erase s credit hi
  have hweights : (w i : Int) + ∑ k ∈ s.erase i, (w k : Int) = total s w := by
    rw [Finset.add_sum_erase s (fun k => (w k : Int)) hi, sum_weights]
  rw [balanced.sum] at hcredits
  rw [Finset.sum_neg_distrib, ← Finset.mul_sum] at hothers
  have hrest : ∑ k ∈ s.erase i, (w k : Int) = total s w - w i := by linarith
  rw [hrest] at hothers
  linarith

theorem run_le (pos : 0 < total s w) {turns : List ι}
    (along : Along (turn s w) (Largest s w) (fun _ => 0) turns) {i : ι} (hi : i ∈ s) :
    2 * run (turn s w) (fun _ => 0) turns i ≤ (total s w - 1) * total s w := by
  have hearned := run_le_weight pos along hi
  have hrest := (balanced_run pos (balanced_zero pos) along).le_rest hi
  linarith

end Lib.SmoothRoundRobin
