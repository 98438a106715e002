import PoleClient.CircuitBreaker.Trace
import PoleClient.Lib.Run

/-! # The counters of a rule state

The same machine with 32-bit counters that wrap, with 32-bit counters whose
overflow panics, and with unbounded counters. The three agree as long as a
closed breaker has counted few reports; no other counter can overflow first.
-/

namespace PoleClient.CircuitBreaker

open Lib

namespace RuleState

/-! ## Overflow -/

/-- A report makes an increment whose result is no 32-bit number. -/
def overflows (now : Nat) (state : RuleState) (retStatus : RetStatus) : Bool :=
  let state := state.refreshStatus now
  if state.status = .opened then false
  else if state.status = .halfOpen then
    !isErrorStatus retStatus && decide (2 ^ 32 ≤ state.consecutiveSuccesses + 1)
  else
    decide (2 ^ 32 ≤ state.requestCount + 1) ||
      isErrorStatus retStatus && decide (2 ^ 32 ≤ state.consecutiveErrors + 1)

/-- The machine with overflow checks; `none` is a panic. -/
def stepChecked : Option RuleState → Call → Option RuleState
  | none, _ => none
  | some state, call =>
      if call.event.reported.any (state.overflows call.now) then none
      else some (state.step .u32 call)

/-- A report that finds the breaker closed is one of the first `2 ^ 32 - 1` that are counted. -/
def CountFits (state : RuleState) (call : Call) : Prop :=
  ∀ retStatus, call.event = .report retStatus → (state.refreshStatus call.now).status = .close →
    state.requestCount < 2 ^ 32 - 1

/-! ## What the counters are bounded by -/

/-- Errors are counted with the requests, successes up to the threshold. -/
structure Bounded (state : RuleState) : Prop where
  statuses : state.status = .close ∨ state.status = .halfOpen ∨ state.status = .opened
  errors : state.consecutiveErrors ≤ state.requestCount
  successes : state.status = .halfOpen →
    state.consecutiveSuccesses < recoverSuccessThreshold state.rule

theorem recoverSuccessThreshold_pos (rule : CircuitBreakerRule) :
    0 < recoverSuccessThreshold rule := by
  unfold recoverSuccessThreshold
  cases recoverCondition rule with
  | none => exact Nat.one_pos
  | some condition => exact Nat.lt_of_lt_of_le Nat.one_pos (Nat.le_max_right _ 1)

theorem recoverSuccessThreshold_lt (rule : CircuitBreakerRule) :
    recoverSuccessThreshold rule < 2 ^ 32 := by
  unfold recoverSuccessThreshold
  cases recoverCondition rule with
  | none => decide
  | some condition =>
      have hword := condition.consecutiveSuccess.toNat_lt
      show max condition.consecutiveSuccess.toNat 1 < 2 ^ 32
      omega

theorem bounded_new (rule : CircuitBreakerRule) : Bounded (new rule) where
  statuses := .inl rfl
  errors := Nat.le_refl 0
  successes h := by cases h

theorem bounded_refreshStatus {state : RuleState} (bounded : Bounded state) (now : Nat) :
    Bounded (state.refreshStatus now) := by
  unfold refreshStatus
  split
  · exact bounded
  · split
    · split
      · exact {
          statuses := .inr (.inl rfl)
          errors := bounded.errors
          successes := fun _ => recoverSuccessThreshold_pos state.rule }
      · exact bounded
    · exact bounded

theorem requestCount_refreshStatus (state : RuleState) (now : Nat) :
    (state.refreshStatus now).requestCount = state.requestCount := by
  unfold refreshStatus
  repeat' split
  all_goals rfl

theorem bounded_openAt {state : RuleState} (h : state.consecutiveErrors ≤ state.requestCount)
    (now : Nat) : Bounded (state.openAt now) where
  statuses := .inr (.inr rfl)
  errors := h
  successes hhalf := by cases hhalf

theorem bounded_reportHalfOpen {state : RuleState} (bounded : Bounded state)
    (h : state.status = .halfOpen) (now : Nat) (retStatus : RetStatus) :
    Bounded (state.reportHalfOpen .exact now retStatus) := by
  rw [reportHalfOpen]
  by_cases herror : isErrorStatus retStatus = true
  · rw [if_pos herror]
    exact bounded_openAt bounded.errors now
  · rw [if_neg herror, CounterArith.exact_add]
    by_cases hclose : state.consecutiveSuccesses + 1 ≥ recoverSuccessThreshold state.rule
    · simp only [if_pos hclose]
      exact bounded_new state.rule
    · simp only [if_neg hclose]
      exact {
        statuses := .inr (.inl h)
        errors := bounded.errors
        successes := fun _ => Nat.lt_of_not_ge hclose }

theorem errors_countReport {state : RuleState} (h : state.consecutiveErrors ≤ state.requestCount)
    (retStatus : RetStatus) :
    (state.countReport .exact retStatus).consecutiveErrors ≤
      (state.countReport .exact retStatus).requestCount := by
  simp only [countReport, CounterArith.exact_add]
  split
  · omega
  · exact Nat.zero_le _

theorem bounded_reportClosed {state : RuleState} (bounded : Bounded state)
    (h : state.status = .close) (now : Nat) (retStatus : RetStatus) :
    Bounded (state.reportClosed .exact now retStatus) := by
  have herrors := errors_countReport bounded.errors retStatus
  rw [reportClosed]
  by_cases hopen : (state.countReport .exact retStatus).shouldOpen = true
  · simp only [if_pos hopen]
    exact bounded_openAt herrors now
  · simp only [if_neg hopen]
    exact {
      statuses := .inl h
      errors := herrors
      successes := fun hhalf => by
        rw [show (state.countReport .exact retStatus).status = .close from h] at hhalf
        cases hhalf }

theorem bounded_step {state : RuleState} (bounded : Bounded state) (call : Call) :
    Bounded (state.step .exact call) := by
  have refreshed := bounded_refreshStatus bounded call.now
  unfold step
  cases call.event with
  | check => exact refreshed
  | report retStatus =>
      rcases refreshed.statuses with hclose | hhalf | hopened
      · simp only [reportStatus, hclose, reduceCtorEq, if_false]
        exact bounded_reportClosed refreshed hclose call.now retStatus
      · simp only [reportStatus, hhalf, reduceCtorEq, if_false, if_true]
        exact bounded_reportHalfOpen refreshed hhalf call.now retStatus
      · simp only [reportStatus, hopened, if_true]
        exact refreshed

/-! ## One operation -/

/-- The exact machine's state overflows on a report exactly if it has counted too many. -/
theorem overflows_iff {state : RuleState} (bounded : Bounded state) (call : Call) :
    call.event.reported.any (state.overflows call.now) = false ↔ CountFits state call := by
  have refreshed := bounded_refreshStatus bounded call.now
  have hcount := requestCount_refreshStatus state call.now
  unfold CountFits
  cases hevent : call.event with
  | check => simp [Event.reported]
  | report retStatus =>
      simp only [Event.reported, Option.any_some, Event.report.injEq, forall_eq']
      rcases refreshed.statuses with hclose | hhalf | hopened
      · have herrors := refreshed.errors
        simp only [overflows, hclose, reduceCtorEq, if_false, forall_const, Bool.or_eq_false_iff,
          Bool.and_eq_false_iff, decide_eq_false_iff_not, hcount]
        rw [hcount] at herrors
        omega
      · have hsuccesses := refreshed.successes hhalf
        have hthreshold := recoverSuccessThreshold_lt (state.refreshStatus call.now).rule
        have hword : ¬ 2 ^ 32 ≤ (state.refreshStatus call.now).consecutiveSuccesses + 1 := by
          omega
        simp only [overflows, hhalf, reduceCtorEq, if_false, if_true, decide_eq_false hword,
          Bool.and_false, false_implies]
      · simp only [overflows, hopened, if_true, reduceCtorEq, false_implies]

theorem reportHalfOpen_u32 {state : RuleState} {retStatus : RetStatus}
    (h : isErrorStatus retStatus = false → state.consecutiveSuccesses + 1 < 2 ^ 32)
    (now : Nat) :
    state.reportHalfOpen .u32 now retStatus = state.reportHalfOpen .exact now retStatus := by
  rw [reportHalfOpen, reportHalfOpen]
  cases herror : isErrorStatus retStatus with
  | true => rfl
  | false =>
      rw [CounterArith.exact_add, CounterArith.u32_add_of_lt (h herror)]

theorem countReport_u32 {state : RuleState} {retStatus : RetStatus}
    (hcount : state.requestCount + 1 < 2 ^ 32)
    (herrors : isErrorStatus retStatus = true → state.consecutiveErrors + 1 < 2 ^ 32) :
    state.countReport .u32 retStatus = state.countReport .exact retStatus := by
  rw [countReport, countReport]
  cases herror : isErrorStatus retStatus with
  | true =>
      rw [CounterArith.exact_add, CounterArith.u32_add_of_lt hcount, CounterArith.exact_add,
        CounterArith.u32_add_of_lt (herrors herror)]
  | false => rw [CounterArith.exact_add, CounterArith.u32_add_of_lt hcount]; rfl

/-- Without an overflow the words are the numbers. -/
theorem step_u32 {state : RuleState} {call : Call}
    (h : call.event.reported.any (state.overflows call.now) = false) :
    state.step .u32 call = state.step .exact call := by
  unfold step
  cases hevent : call.event with
  | check => rfl
  | report retStatus =>
      simp only [hevent, Event.reported, Option.any_some, overflows] at h
      simp only [reportStatus]
      by_cases hopened : (state.refreshStatus call.now).status = .opened
      · rw [if_pos hopened, if_pos hopened]
      · rw [if_neg hopened] at h
        rw [if_neg hopened, if_neg hopened]
        by_cases hhalf : (state.refreshStatus call.now).status = .halfOpen
        · rw [if_pos hhalf] at h
          rw [if_pos hhalf, if_pos hhalf]
          apply reportHalfOpen_u32
          intro herror
          rw [herror, Bool.not_false, Bool.true_and, decide_eq_false_iff_not] at h
          omega
        · rw [if_neg hhalf, Bool.or_eq_false_iff, decide_eq_false_iff_not] at h
          rw [if_neg hhalf, if_neg hhalf, reportClosed, reportClosed, countReport_u32]
          · omega
          · intro herror
            have herrors := h.2
            rw [herror, Bool.true_and, decide_eq_false_iff_not] at herrors
            omega

/-! ## Whole runs -/

theorem run_stepChecked_none (calls : List Call) : run stepChecked none calls = none := by
  induction calls with
  | nil => rfl
  | cons call calls ih => exact ih

theorem run_stepChecked_iff {state : RuleState} (bounded : Bounded state) (calls : List Call) :
    (run stepChecked (some state) calls).isSome ↔ Along (step .exact) CountFits state calls := by
  induction calls generalizing state with
  | nil => exact iff_of_true rfl trivial
  | cons call calls ih =>
      rw [run_cons, Along, ← overflows_iff bounded call, stepChecked]
      cases hoverflow : call.event.reported.any (state.overflows call.now) with
      | true => simp [run_stepChecked_none]
      | false =>
          rw [if_neg Bool.false_ne_true, step_u32 hoverflow, ih (bounded_step bounded call)]
          simp

/-- As long as the counts fit, the wrapping machine runs like the exact one. -/
theorem run_u32 {state : RuleState} (bounded : Bounded state) {calls : List Call}
    (fits : Along (step .exact) CountFits state calls) :
    run (step .u32) state calls = run (step .exact) state calls := by
  induction calls generalizing state with
  | nil => rfl
  | cons call calls ih =>
      rw [run_cons, run_cons, step_u32 ((overflows_iff bounded call).mpr fits.1)]
      exact ih (bounded_step bounded call) fits.2

/-- In every run of one rule state: the 32-bit counters decide as unbounded ones at every point
and at every time, and no increment overflows, exactly if no report is counted beyond
`2 ^ 32 - 1`. -/
theorem counters_exact_iff (rule : CircuitBreakerRule) (calls : List Call) :
    ((∀ part, part <+: calls → ∀ now,
        ((run (step .u32) (new rule) part).currentStatus now).2 =
          ((run (step .exact) (new rule) part).currentStatus now).2) ∧
      (run stepChecked (some (new rule)) calls).isSome) ↔
      Along (step .exact) CountFits (new rule) calls := by
  rw [run_stepChecked_iff (bounded_new rule)]
  constructor
  · exact fun h => h.2
  · intro fits
    constructor
    · rintro part ⟨rest, rfl⟩ now
      rw [run_u32 (bounded_new rule) (along_append.mp fits).1]
    · exact fits

/-! ## A breaker that stays closed too long -/

def counted (rule : CircuitBreakerRule) (count : Nat) : RuleState :=
  { new rule with requestCount := count }

theorem shouldOpen_counted (rule : CircuitBreakerRule) (count : Nat) :
    (counted rule count).shouldOpen = false := by
  rw [shouldOpen, Bool.and_eq_false_iff]
  right
  rw [List.any_eq_false]
  intro trigger _ htrips
  have herrors : (counted rule count).consecutiveErrors = 0 := rfl
  rw [herrors] at htrips
  simp only [Bool.and_eq_true, decide_eq_true_eq] at htrips
  omega

theorem step_success (arith : CounterArith) (rule : CircuitBreakerRule) (now count : Nat) :
    (counted rule count).step arith ⟨now, .report .retSuccess⟩ =
      counted rule (arith.add count 1) := by
  have hclosed : (counted rule count).reportClosed arith now .retSuccess =
      if (counted rule (arith.add count 1)).shouldOpen then
        (counted rule (arith.add count 1)).openAt now
      else counted rule (arith.add count 1) := rfl
  rw [shouldOpen_counted, if_neg Bool.false_ne_true] at hclosed
  exact hclosed

theorem run_successes (arith : CounterArith) (rule : CircuitBreakerRule) (now reports count : Nat) :
    run (step arith) (counted rule count)
        (List.replicate reports ⟨now, .report .retSuccess⟩) =
      counted rule ((fun word => arith.add word 1)^[reports] count) := by
  induction reports generalizing count with
  | zero => rfl
  | succ reports ih =>
      rw [List.replicate_succ, run_cons, step_success, ih, Function.iterate_succ_apply]

theorem run_successes_error (arith : CounterArith) (rule : CircuitBreakerRule) (reports : Nat) :
    run (step arith) (new rule)
        (List.replicate reports ⟨0, .report .retSuccess⟩ ++ [⟨0, .report .retFail⟩]) =
      (counted rule ((fun word => arith.add word 1)^[reports] 0)).step arith
        ⟨0, .report .retFail⟩ := by
  rw [run_append, show new rule = counted rule 0 from rfl, run_successes]
  rfl

def firstErrorRule : CircuitBreakerRule where
  name := "first-error"
  enable := true
  priority := 0
  ruleMatcher := none
  blockConfigs := [⟨some ⟨[⟨.consecutiveError, 1, 1⟩]⟩, some ⟨60, 2⟩⟩]
  rest := ""

/-- After `2 ^ 32 - 1` successes the error wraps the count to zero, below the minimum of one
request; the unbounded count opens, and a checked addition panics. -/
theorem wrapped_count_stays_closed :
    let calls : List Call := List.replicate (2 ^ 32 - 1) ⟨0, .report .retSuccess⟩ ++
      [⟨0, .report .retFail⟩]
    (run (step .u32) (new firstErrorRule) calls).status = .close ∧
      (run (step .exact) (new firstErrorRule) calls).status = .opened ∧
      run stepChecked (some (new firstErrorRule)) calls = none := by
  intro calls
  constructor
  · have hcount : (fun word => CounterArith.u32.add word 1)^[2 ^ 32 - 1] 0 = 2 ^ 32 - 1 := by
      rw [CounterArith.u32_add_iterate_of_lt (by decide), Nat.mul_one, Nat.zero_add]
    rw [run_successes_error, hcount]
    rfl
  have hcount : (fun word => CounterArith.exact.add word 1)^[2 ^ 32 - 1] 0 = 2 ^ 32 - 1 := by
    rw [CounterArith.exact_add_iterate, Nat.mul_one, Nat.zero_add]
  constructor
  · rw [run_successes_error, hcount]
    rfl
  · have hsome := (run_stepChecked_iff (bounded_new firstErrorRule) calls).mp
    cases hchecked : run stepChecked (some (new firstErrorRule)) calls with
    | none => rfl
    | some state =>
        rw [hchecked] at hsome
        have hfits := (along_append.mp (hsome rfl)).2.1 .retFail rfl
        rw [show new firstErrorRule = counted firstErrorRule 0 from rfl, run_successes,
          hcount] at hfits
        exact absurd (hfits rfl) (Nat.lt_irrefl _)

end RuleState

end PoleClient.CircuitBreaker
