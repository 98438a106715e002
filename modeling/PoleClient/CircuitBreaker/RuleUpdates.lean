import PoleClient.CircuitBreaker.CompositeTrace
import PoleClient.Lib.Threads

/-! # Rule updates between concurrent calls

Rules and states have a mutex each. A report copies the rules and then makes or
updates states; an update replaces the rules and then clears the states; a check
takes the states alone. Each section is one step, in any order of any number of
calls. A section reads the clock once.
-/

namespace PoleClient.CircuitBreaker

open Lib

/-! ## The sections -/

namespace CompositeCircuitBreaker

/-- The second section of `report_stat`, with the rules that apply by the copy. -/
def reportWith (arith : CounterArith) (now : Nat) (breaker : CompositeCircuitBreaker)
    (resource : Resource) (retStatus : RetStatus) (rules : List CircuitBreakerRule) :
    CompositeCircuitBreaker :=
  let states := (breaker.states (resourceKey resource)).getD (rules.map RuleState.new)
  { breaker with
    states := Function.update breaker.states (resourceKey resource)
      (some (states.map fun state => state.reportStatus arith now retStatus)) }

/-- The second section of `update_rules_inner`. -/
def clearStates (breaker : CompositeCircuitBreaker) : CompositeCircuitBreaker :=
  { breaker with states := fun _ => none }

/-- Without other calls in between, the sections are the whole report. -/
theorem reportStat_eq_sections (arith : CounterArith) (now : Nat)
    (breaker : CompositeCircuitBreaker) (resource : Resource) (retStatus : RetStatus) :
    breaker.reportStat arith now resource retStatus =
      breaker.reportWith arith now resource retStatus (applicableRules resource breaker.rules) :=
  rfl

theorem updateRules_eq_sections (breaker : CompositeCircuitBreaker)
    (rules : List CircuitBreakerRule) :
    breaker.updateRules rules =
      if breaker.rules = rules then breaker else clearStates { breaker with rules } :=
  rfl

end CompositeCircuitBreaker

inductive CallPoint where
  | report (resource : Resource) (retStatus : RetStatus)
  | reportWith (resource : Resource) (retStatus : RetStatus) (rules : List CircuitBreakerRule)
  | check (resource : Resource)
  | update (rules : List CircuitBreakerRule)
  | clear
  | finished

def callProgram (arith : CounterArith) (breaker : CompositeCircuitBreaker) (point : CallPoint)
    (now : Nat) : Threads.Effect CompositeCircuitBreaker CallPoint Unit :=
  match point with
  | .report resource retStatus =>
      ⟨breaker, .reportWith resource retStatus (applicableRules resource breaker.rules), none⟩
  | .reportWith resource retStatus rules =>
      ⟨breaker.reportWith arith now resource retStatus rules, .finished, none⟩
  | .check resource => ⟨(breaker.checkResource now resource).1, .finished, none⟩
  | .update rules =>
      if breaker.rules = rules then ⟨breaker, .finished, none⟩
      else ⟨{ breaker with rules }, .clear, none⟩
  | .clear => ⟨breaker.clearStates, .finished, none⟩
  | .finished => ⟨breaker, .finished, none⟩

/-! ## Runs -/

inductive BreakerCall where
  | reportStat (resource : Resource) (retStatus : RetStatus)
  | checkResource (resource : Resource)
  | updateRules (rules : List CircuitBreakerRule)

def BreakerCall.point : BreakerCall → CallPoint
  | reportStat resource retStatus => .report resource retStatus
  | checkResource resource => .check resource
  | updateRules rules => .update rules

inductive BreakerMove where
  | call (call : BreakerCall)
  | advance (index : Nat) (now : Nat)

def BreakerMove.move : BreakerMove → Threads.Move CallPoint Nat
  | call begun => .start begun.point
  | advance index now => .advance index now

abbrev BreakerState : Type := Threads CompositeCircuitBreaker CallPoint

def BreakerState.start : BreakerState := ⟨.new, []⟩

def breakerStep (arith : CounterArith) (s : BreakerState) (move : BreakerMove) : BreakerState :=
  Threads.moveStep (callProgram arith) s move.move

/-! ## States of the installed rules -/

/-- The state list of every resource in the map is made from the rules that apply to it. -/
def UpToDate (breaker : CompositeCircuitBreaker) : Prop :=
  ∀ resource states, breaker.states (resourceKey resource) = some states →
    states.map RuleState.rule = applicableRules resource breaker.rules

def AllFinished (s : BreakerState) : Prop := ∀ point ∈ s.threads, point = .finished

/-- Some update has replaced the rules and has yet to clear the states. -/
def Clearing (s : BreakerState) : Prop := .clear ∈ s.threads

/-- The section of a report that finds no states, and no clearing before it, has a copy of the
rules that gives every resource with its key the rules that apply to it now. -/
def CopyCurrent (s : BreakerState) : BreakerMove → Prop
  | .call _ => True
  | .advance index _ =>
      ∀ resource retStatus rules, s.threads[index]? = some (.reportWith resource retStatus rules) →
        s.shared.states (resourceKey resource) = none → ¬ Clearing s →
          ∀ other, resourceKey other = resourceKey resource →
            applicableRules other s.shared.rules = rules

/-! ## What a section does to the states -/

theorem checkStates_rules (now : Nat) (halfOpenState : Option String) (states : List RuleState) :
    (CompositeCircuitBreaker.checkStates now halfOpenState states).1.map RuleState.rule =
      states.map RuleState.rule := by
  induction states generalizing halfOpenState with
  | nil => cases halfOpenState <;> rfl
  | cons state states ih =>
      rw [checkStates_cons]
      simp only
      split
      · rw [List.map_cons, List.map_cons, RuleState.refreshStatus_rule]
      · rw [List.map_cons, List.map_cons, RuleState.refreshStatus_rule, ih]

theorem reportStatus_rules (arith : CounterArith) (now : Nat) (retStatus : RetStatus)
    (states : List RuleState) :
    (states.map fun state => state.reportStatus arith now retStatus).map RuleState.rule =
      states.map RuleState.rule := by
  rw [List.map_map]
  exact List.map_congr_left fun state _ => RuleState.reportStatus_rule arith now state retStatus

/-- A new state list under a key is up to date exactly if its rules apply to every resource with
that key. -/
theorem upToDate_update_iff {breaker : CompositeCircuitBreaker} (h : UpToDate breaker)
    (resource : Resource) (states : List RuleState) :
    UpToDate { breaker with
        states := Function.update breaker.states (resourceKey resource) (some states) } ↔
      ∀ other, resourceKey other = resourceKey resource →
        applicableRules other breaker.rules = states.map RuleState.rule := by
  constructor
  · intro hafter other hkey
    refine (hafter other states ?_).symm
    simp only
    rw [hkey, Function.update_self]
  · intro hrules other found hfound
    simp only at hfound ⊢
    by_cases hkey : resourceKey other = resourceKey resource
    · rw [hkey, Function.update_self] at hfound
      rw [← Option.some.inj hfound, hrules other hkey]
    · rw [Function.update_of_ne hkey] at hfound
      exact h other found hfound

theorem upToDate_update {breaker : CompositeCircuitBreaker} (h : UpToDate breaker)
    {resource : Resource} {states after : List RuleState}
    (hstates : breaker.states (resourceKey resource) = some states)
    (hrules : after.map RuleState.rule = states.map RuleState.rule) :
    UpToDate { breaker with
      states := Function.update breaker.states (resourceKey resource) (some after) } := by
  refine (upToDate_update_iff h resource after).mpr fun other hkey => ?_
  rw [hrules, h other states (hkey ▸ hstates)]

theorem upToDate_checkResource {breaker : CompositeCircuitBreaker} (h : UpToDate breaker)
    (now : Nat) (resource : Resource) : UpToDate (breaker.checkResource now resource).1 := by
  unfold CompositeCircuitBreaker.checkResource
  cases hstates : breaker.states (resourceKey resource) with
  | none => exact h
  | some states => exact upToDate_update h hstates (checkStates_rules now none states)

theorem upToDate_clearStates (breaker : CompositeCircuitBreaker) : UpToDate breaker.clearStates :=
  fun _ _ h => by cases h

theorem map_new_rules (rules : List CircuitBreakerRule) :
    (rules.map RuleState.new).map RuleState.rule = rules := by
  rw [List.map_map]
  exact List.map_id rules

/-- A report keeps the states up to date exactly if it finds some, or its copy is current for
every resource with its key. -/
theorem upToDate_reportWith_iff {breaker : CompositeCircuitBreaker} (h : UpToDate breaker)
    (arith : CounterArith) (now : Nat) (resource : Resource) (retStatus : RetStatus)
    (rules : List CircuitBreakerRule) :
    UpToDate (breaker.reportWith arith now resource retStatus rules) ↔
      (breaker.states (resourceKey resource) = none →
        ∀ other, resourceKey other = resourceKey resource →
          applicableRules other breaker.rules = rules) := by
  unfold CompositeCircuitBreaker.reportWith
  cases hstates : breaker.states (resourceKey resource) with
  | none =>
      simp only [Option.getD_none, true_implies]
      rw [upToDate_update_iff h, reportStatus_rules, map_new_rules]
  | some states =>
      constructor
      · intro _ hnone
        cases hnone
      · intro _
        exact upToDate_update h hstates (reportStatus_rules arith now retStatus states)

/-! ## Steps and runs -/

theorem clear_mem_set_iff {points : List CallPoint} {index : Nat} {old new : CallPoint}
    (hold : points[index]? = some old) (hne : old ≠ .clear) :
    .clear ∈ points.set index new ↔ .clear ∈ points ∨ new = .clear := by
  constructor
  · intro h
    rcases List.mem_or_eq_of_mem_set h with hmem | rfl
    · exact .inl hmem
    · exact .inr rfl
  · rintro (hmem | rfl)
    · rcases Threads.eq_or_mem_set hold hmem new with heq | hset
      · exact absurd heq.symm hne
      · exact hset
    · exact List.mem_set (List.getElem?_eq_some_iff.mp hold).choose _

/-- The states are those of the installed rules, or are about to be cleared. -/
def Current (s : BreakerState) : Prop := Clearing s ∨ UpToDate s.shared

section Steps

variable {arith : CounterArith} {s : BreakerState} {index : Nat} {point : CallPoint}

theorem breakerStep_some (hpoint : s.threads[index]? = some point) (now : Nat) :
    breakerStep arith s (.advance index now) =
      ⟨(callProgram arith s.shared point now).shared,
        s.threads.set index (callProgram arith s.shared point now).thread⟩ :=
  Threads.moveStep_some hpoint now

/-- Only its second section ends the clearing of an update. -/
theorem clearing_step (hpoint : s.threads[index]? = some point) (hne : point ≠ .clear)
    (h : Clearing s) (now : Nat) : Clearing (breakerStep arith s (.advance index now)) := by
  rw [breakerStep_some hpoint]
  exact (clear_mem_set_iff hpoint hne).mpr (.inl h)

theorem current_step_of_kept (h : Current s) (hpoint : s.threads[index]? = some point)
    (hne : point ≠ .clear) {now : Nat}
    (kept : UpToDate s.shared → UpToDate (callProgram arith s.shared point now).shared) :
    Current (breakerStep arith s (.advance index now)) := by
  rcases h with hclear | hupToDate
  · exact .inl (clearing_step hpoint hne hclear now)
  · right
    rw [breakerStep_some hpoint]
    exact kept hupToDate

/-- No section but that of a report with its copy can make the states stale. -/
theorem current_step_of_other (h : Current s) (hpoint : s.threads[index]? = some point)
    (other : ∀ resource retStatus rules, point ≠ .reportWith resource retStatus rules)
    (now : Nat) : Current (breakerStep arith s (.advance index now)) := by
  cases point with
  | report resource retStatus => exact current_step_of_kept h hpoint nofun id
  | reportWith resource retStatus rules => exact absurd rfl (other resource retStatus rules)
  | check resource =>
      exact current_step_of_kept h hpoint nofun fun hupToDate =>
        upToDate_checkResource hupToDate now resource
  | update rules =>
      by_cases hsame : s.shared.rules = rules
      · refine current_step_of_kept h hpoint nofun fun hupToDate => ?_
        rw [callProgram, if_pos hsame]
        exact hupToDate
      · left
        rw [breakerStep_some hpoint]
        refine (clear_mem_set_iff hpoint nofun).mpr (.inr ?_)
        simp only [callProgram, if_neg hsame]
  | clear =>
      right
      rw [breakerStep_some hpoint]
      exact upToDate_clearStates s.shared
  | finished => exact current_step_of_kept h hpoint nofun id

theorem current_step_of_reportWith (h : Current s) {resource : Resource} {retStatus : RetStatus}
    {rules : List CircuitBreakerRule}
    (hpoint : s.threads[index]? = some (.reportWith resource retStatus rules)) (now : Nat) :
    Current (breakerStep arith s (.advance index now)) ↔
      CopyCurrent s (.advance index now) := by
  constructor
  · intro hafter resource' retStatus' rules' hthread hnone hclear
    rw [hpoint] at hthread
    obtain ⟨rfl, rfl, rfl⟩ : resource = resource' ∧ retStatus = retStatus' ∧ rules = rules' := by
      simpa using hthread
    have hupToDate := h.resolve_left hclear
    rw [breakerStep_some hpoint] at hafter
    rcases hafter with hclearing | hkept
    · rcases (clear_mem_set_iff hpoint nofun).mp hclearing with hbefore | hfinished
      · exact absurd hbefore hclear
      · cases hfinished
    · exact (upToDate_reportWith_iff hupToDate arith now resource retStatus rules).mp hkept hnone
  · intro hcopy
    by_cases hclear : Clearing s
    · exact .inl (clearing_step hpoint nofun hclear now)
    · right
      rw [breakerStep_some hpoint]
      exact (upToDate_reportWith_iff (h.resolve_left hclear) arith now resource retStatus rules).mpr
        fun hnone => hcopy resource retStatus rules hpoint hnone hclear

end Steps

theorem current_step_iff (arith : CounterArith) {s : BreakerState} (h : Current s)
    (move : BreakerMove) : Current (breakerStep arith s move) ↔ CopyCurrent s move := by
  cases move with
  | call begun =>
      refine iff_of_true ?_ trivial
      exact h.imp_left fun hclear => List.mem_append_left _ hclear
  | advance index now =>
      by_cases hcopy : ∃ resource retStatus rules,
          s.threads[index]? = some (.reportWith resource retStatus rules)
      · obtain ⟨resource, retStatus, rules, hpoint⟩ := hcopy
        exact current_step_of_reportWith h hpoint now
      · refine iff_of_true ?_ fun resource retStatus rules hthread =>
          absurd ⟨resource, retStatus, rules, hthread⟩ hcopy
        cases hpoint : s.threads[index]? with
        | none => rwa [breakerStep, BreakerMove.move, Threads.moveStep_none hpoint]
        | some point =>
            refine current_step_of_other h hpoint ?_ now
            rintro resource retStatus rules rfl
            exact hcopy ⟨resource, retStatus, rules, hpoint⟩

theorem current_start : Current .start := .inr fun _ _ h => by cases h

/-- At every point of a run the states are those of the installed rules, or are about to be
cleared, exactly if no report adds states from an outdated copy when no clearing is to come. -/
theorem current_along_iff (arith : CounterArith) (moves : List BreakerMove) :
    (∀ part, part <+: moves → Current (run (breakerStep arith) .start part)) ↔
      Along (breakerStep arith) CopyCurrent .start moves :=
  @forall_prefix_iff _ _ (breakerStep arith) CopyCurrent (fun _ => True) Current
    (fun _ _ _ => trivial) (fun _ move _ h => current_step_iff arith h move) _ moves trivial
    current_start

/-- Once all calls have finished, every state list is made from the rules that the final rule
list has for its resource. -/
theorem rules_reach_states (arith : CounterArith) {moves : List BreakerMove}
    (copies : Along (breakerStep arith) CopyCurrent .start moves)
    (finished : AllFinished (run (breakerStep arith) .start moves)) :
    UpToDate (run (breakerStep arith) .start moves).shared := by
  rcases (current_along_iff arith moves).mpr copies moves (List.prefix_refl _) with hclear | h
  · cases finished _ hclear
  · exact h

/-! ## A report around an update -/

def everyRule : CircuitBreakerRule := ⟨"every", true, 0, none, [], ""⟩

def ordersResource : Resource := .serviceResource ⟨⟨"prod", "orders"⟩, none⟩

/-- The report copies the rules before the update replaces them, and adds its states after the
update has cleared them; or it begins after the update. -/
def reportAround : List BreakerMove :=
  [.call (.reportStat ordersResource .retFail), .call (.updateRules [everyRule]),
    .advance 0 0, .advance 1 0, .advance 1 0, .advance 0 0]

def reportAfter : List BreakerMove :=
  [.call (.updateRules [everyRule]), .advance 0 0, .advance 0 0,
    .call (.reportStat ordersResource .retFail), .advance 1 0, .advance 1 0]

theorem reportAfter_reaches_states :
    UpToDate (run (breakerStep .u32) .start reportAfter).shared := by
  apply rules_reach_states
  · refine ⟨trivial, nofun, nofun, trivial, nofun,
      fun resource retStatus rules h _ _ other _ => ?_, trivial⟩
    obtain rfl : applicableRules ordersResource [everyRule] = rules := by
      have hpoint := Option.some.inj h
      injection hpoint
    rfl
  · intro point hpoint
    change point ∈ [CallPoint.finished, CallPoint.finished] at hpoint
    simpa using hpoint

/-- The states of the report are made from the rules before the update, and stay. -/
theorem reportAround_stale : ¬ ∀ arith moves,
    AllFinished (run (breakerStep arith) .start moves) →
      UpToDate (run (breakerStep arith) .start moves).shared := by
  intro h
  have hupToDate := h .u32 reportAround fun point hpoint => by
    change point ∈ [CallPoint.finished, CallPoint.finished] at hpoint
    simpa using hpoint
  cases hupToDate ordersResource [] rfl

end PoleClient.CircuitBreaker
