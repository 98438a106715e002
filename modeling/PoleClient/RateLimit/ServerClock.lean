import Mathlib.Logic.Function.Basic
import PoleClient.Lib.Run

/-! # The clock of a session

A session asks the server for its time when it is connected, and again before a
request when that was long enough ago. The interval is checked before and after the
lock is taken. The offset to the server's clock counts from the middle of the call.
The local clock does not go back.
-/

namespace PoleClient.RateLimit

open Lib

/-! ## Adjustments -/

/-- `TIME_ADJUST_INTERVAL` in milliseconds. -/
def timeAdjustInterval : Int := 30000

/-- A call of `time_adjust`, with the answer of the server, if there is one. -/
structure Adjustment where
  startedAt : Int
  finishedAt : Int
  serverTimestamp : Option Int

/-- The offset that an answer is taken for. -/
def clockOffset (startedAt finishedAt serverTimestamp : Int) : Int :=
  serverTimestamp - (startedAt + (finishedAt - startedAt).tdiv 2)

/-- Where a caller of `adjust_time_if_due` stands. -/
inductive ClockStage where
  | idle
  | waiting
  | asking (startedAt : Int)
  | answered (startedAt : Int) (serverTimestamp : Option Int)

/-- The caller that asks the server, or has its answer, holds the lock. -/
def ClockStage.startedAt : ClockStage → Option Int
  | .asking startedAt | .answered startedAt _ => some startedAt
  | .idle | .waiting => none

/-- The clock of a session with its callers; `log` has the calls that came to an end. -/
structure SessionClock where
  now : Int
  clockOffset : Int
  lastTimeAdjust : Int
  timeAdjustLock : Option Nat
  stage : Nat → ClockStage
  log : List Adjustment

namespace SessionClock

/-- A session is connected once the server has told its time. -/
def connect (server : Int → Int) (startedAt servedAt finishedAt : Int) : SessionClock where
  now := finishedAt
  clockOffset := RateLimit.clockOffset startedAt finishedAt (server servedAt)
  lastTimeAdjust := finishedAt
  timeAdjustLock := none
  stage := fun _ => .idle
  log := [⟨startedAt, finishedAt, some (server servedAt)⟩]

def serverTimestamp (s : SessionClock) : Int := s.now + s.clockOffset

inductive Action where
  | tick (elapsed : Nat)
  /-- The first check of the interval. -/
  | call (caller : Nat)
  /-- The lock is taken, and the interval is checked again. -/
  | lock (caller : Nat)
  /-- The server answers, or the call fails. -/
  | answer (caller : Nat) (fails : Bool)
  | finish (caller : Nat)
  /-- The future of the caller is dropped, and the lock with it. -/
  | drop (caller : Nat)

def setStage (s : SessionClock) (caller : Nat) (stage : ClockStage) : SessionClock :=
  { s with stage := Function.update s.stage caller stage }

/-- Nothing is asked for before the interval has passed. -/
def due (s : SessionClock) : Bool := timeAdjustInterval ≤ s.now - s.lastTimeAdjust

def lock (s : SessionClock) (caller : Nat) : SessionClock :=
  match s.stage caller with
  | .waiting =>
      if s.timeAdjustLock.isSome then s
      else if s.due then
        { s.setStage caller (.asking s.now) with timeAdjustLock := some caller }
      else s.setStage caller .idle
  | _ => s

def answer (server : Int → Int) (s : SessionClock) (caller : Nat) (fails : Bool) : SessionClock :=
  match s.stage caller with
  | .asking startedAt =>
      s.setStage caller (.answered startedAt (if fails then none else some (server s.now)))
  | _ => s

def finish (s : SessionClock) (caller : Nat) : SessionClock :=
  match s.stage caller with
  | .answered startedAt serverTimestamp =>
      { s.setStage caller .idle with
        clockOffset := (serverTimestamp.map
          (RateLimit.clockOffset startedAt s.now)).getD s.clockOffset
        lastTimeAdjust := s.now
        timeAdjustLock := none
        log := s.log ++ [⟨startedAt, s.now, serverTimestamp⟩] }
  | _ => s

def drop (s : SessionClock) (caller : Nat) : SessionClock :=
  { s.setStage caller .idle with
    timeAdjustLock := if s.timeAdjustLock = some caller then none else s.timeAdjustLock }

def step (server : Int → Int) (s : SessionClock) : Action → SessionClock
  | .tick elapsed => { s with now := s.now + elapsed }
  | .call caller =>
      match s.stage caller with
      | .idle => if s.due then s.setStage caller .waiting else s
      | _ => s
  | .lock caller => s.lock caller
  | .answer caller fails => s.answer server caller fails
  | .finish caller => s.finish caller
  | .drop caller => s.drop caller

/-! ## One adjustment at a time -/

/-- The server answered the call at some time between its ends. -/
def Adjustment.Served (server : Int → Int) (adjustment : Adjustment) : Prop :=
  ∀ serverTimestamp ∈ adjustment.serverTimestamp, ∃ servedAt,
    adjustment.startedAt ≤ servedAt ∧ servedAt ≤ adjustment.finishedAt ∧
      serverTimestamp = server servedAt

def lastAnswered (log : List Adjustment) : Option Adjustment :=
  (log.filter fun adjustment => adjustment.serverTimestamp.isSome).getLast?

structure Kept (server : Int → Int) (s : SessionClock) : Prop where
  past : s.lastTimeAdjust ≤ s.now
  holder : ∀ caller startedAt, (s.stage caller).startedAt = some startedAt →
    s.timeAdjustLock = some caller ∧ s.lastTimeAdjust + timeAdjustInterval ≤ startedAt ∧
      startedAt ≤ s.now
  answers : ∀ caller startedAt serverTimestamp,
    s.stage caller = .answered startedAt (some serverTimestamp) → ∃ servedAt,
      startedAt ≤ servedAt ∧ servedAt ≤ s.now ∧ serverTimestamp = server servedAt
  finished : ∀ adjustment ∈ s.log, adjustment.startedAt ≤ adjustment.finishedAt ∧
    adjustment.finishedAt ≤ s.lastTimeAdjust ∧ Adjustment.Served server adjustment
  spaced : s.log.Pairwise fun first second =>
    first.finishedAt + timeAdjustInterval ≤ second.startedAt
  offset : ∃ adjustment serverTimestamp, lastAnswered s.log = some adjustment ∧
    adjustment.serverTimestamp = some serverTimestamp ∧
      s.clockOffset =
        RateLimit.clockOffset adjustment.startedAt adjustment.finishedAt serverTimestamp

variable {server : Int → Int} {s : SessionClock}

theorem kept_connect {startedAt servedAt finishedAt : Int} (started : startedAt ≤ servedAt)
    (finished : servedAt ≤ finishedAt) :
    Kept server (connect server startedAt servedAt finishedAt) where
  past := Int.le_refl _
  holder := fun _ _ h => by cases h
  answers := fun _ _ _ h => by cases h
  finished := by
    intro adjustment hadjustment
    rw [List.mem_singleton.mp hadjustment]
    refine ⟨Int.le_trans started finished, Int.le_refl _, ?_⟩
    intro serverTimestamp h
    exact ⟨servedAt, started, finished, (Option.mem_some_iff.mp h).symm⟩
  spaced := List.pairwise_singleton _ _
  offset := ⟨_, _, rfl, rfl, rfl⟩

theorem setStage_self (s : SessionClock) (caller : Nat) (stage : ClockStage) :
    (s.setStage caller stage).stage caller = stage := Function.update_self ..

theorem setStage_of_ne (s : SessionClock) {caller other : Nat} (h : other ≠ caller)
    (stage : ClockStage) : (s.setStage caller stage).stage other = s.stage other :=
  Function.update_of_ne h ..

/-- A caller that does not hold the lock may go anywhere where it does not need it. -/
theorem kept_setStage (kept : Kept server s) (caller : Nat) {stage : ClockStage}
    (free : stage.startedAt = none) : Kept server (s.setStage caller stage) where
  past := kept.past
  holder := by
    intro other startedAt h
    by_cases hother : other = caller
    · rw [hother, setStage_self, free] at h
      cases h
    · rw [setStage_of_ne s hother] at h
      exact kept.holder other startedAt h
  answers := by
    intro other startedAt serverTimestamp h
    by_cases hother : other = caller
    · rw [hother, setStage_self] at h
      rw [h] at free
      cases free
    · rw [setStage_of_ne s hother] at h
      exact kept.answers other startedAt serverTimestamp h
  finished := kept.finished
  spaced := kept.spaced
  offset := kept.offset

theorem kept_tick (kept : Kept server s) (elapsed : Nat) :
    Kept server { s with now := s.now + elapsed } where
  past := by
    have hpast := kept.past
    simp only
    omega
  holder := by
    intro caller startedAt h
    obtain ⟨hlock, hdue, hstarted⟩ := kept.holder caller startedAt h
    refine ⟨hlock, hdue, ?_⟩
    simp only
    omega
  answers := by
    intro caller startedAt serverTimestamp h
    obtain ⟨servedAt, hstarted, hserved, heq⟩ := kept.answers caller startedAt serverTimestamp h
    refine ⟨servedAt, hstarted, ?_, heq⟩
    simp only
    omega
  finished := kept.finished
  spaced := kept.spaced
  offset := kept.offset

/-- The caller that takes the lock finds it free, so that nobody else has asked. -/
theorem kept_lock (kept : Kept server s) (caller : Nat) : Kept server (s.lock caller) := by
  unfold lock
  split
  · split
    · exact kept
    · rename_i hfree
      split
      · rename_i hdue
        have hdue : timeAdjustInterval ≤ s.now - s.lastTimeAdjust := of_decide_eq_true hdue
        constructor
        · exact kept.past
        · intro other startedAt h
          by_cases hother : other = caller
          · rw [hother] at h ⊢
            simp only [setStage_self] at h
            cases h
            refine ⟨rfl, ?_, Int.le_refl _⟩
            simp only [setStage]
            omega
          · simp only [setStage_of_ne s hother] at h
            rw [(kept.holder other startedAt h).1] at hfree
            exact absurd rfl hfree
        · intro other startedAt serverTimestamp h
          by_cases hother : other = caller
          · rw [hother] at h
            simp only [setStage_self] at h
            cases h
          · simp only [setStage_of_ne s hother] at h
            exact kept.answers other startedAt serverTimestamp h
        · exact kept.finished
        · exact kept.spaced
        · exact kept.offset
      · exact kept_setStage kept caller rfl
  · exact kept

theorem kept_answer (kept : Kept server s) (caller : Nat) (fails : Bool) :
    Kept server (s.answer server caller fails) := by
  unfold answer
  split
  · rename_i startedAt hstage
    obtain ⟨hlock, hdue, hstarted⟩ := kept.holder caller startedAt (by rw [hstage]; rfl)
    constructor
    · exact kept.past
    · intro other otherStart h
      by_cases hother : other = caller
      · rw [hother] at h ⊢
        rw [setStage_self] at h
        cases h
        exact ⟨hlock, hdue, hstarted⟩
      · rw [setStage_of_ne s hother] at h
        exact kept.holder other otherStart h
    · intro other otherStart serverTimestamp h
      by_cases hother : other = caller
      · rw [hother, setStage_self] at h
        cases fails with
        | true => cases h
        | false =>
            cases h
            exact ⟨s.now, hstarted, Int.le_refl _, rfl⟩
      · rw [setStage_of_ne s hother] at h
        exact kept.answers other otherStart serverTimestamp h
    · exact kept.finished
    · exact kept.spaced
    · exact kept.offset
  · exact kept

theorem Kept.alone (kept : Kept server s) {caller other : Nat} {startedAt otherStart : Int}
    (h : (s.stage caller).startedAt = some startedAt)
    (hother : (s.stage other).startedAt = some otherStart) : other = caller := by
  have hlock := (kept.holder caller startedAt h).1
  rw [(kept.holder other otherStart hother).1] at hlock
  exact Option.some.inj hlock

theorem lastAnswered_append (log : List Adjustment) (adjustment : Adjustment) :
    lastAnswered (log ++ [adjustment]) =
      if adjustment.serverTimestamp.isSome then some adjustment else lastAnswered log := by
  unfold lastAnswered
  cases h : adjustment.serverTimestamp with
  | none => simp [List.filter_append, h]
  | some serverTimestamp => simp [List.filter_append, h]

theorem kept_finish (kept : Kept server s) (caller : Nat) : Kept server (s.finish caller) := by
  unfold finish
  split
  · rename_i startedAt answer hstage
    have hheld : (s.stage caller).startedAt = some startedAt := by
      rw [hstage]
      rfl
    obtain ⟨-, hdue, hstarted⟩ := kept.holder caller startedAt hheld
    have hpast := kept.past
    have hidle : ∀ other otherStart,
        ((s.setStage caller .idle).stage other).startedAt ≠ some otherStart := by
      intro other otherStart h
      by_cases hother : other = caller
      · rw [hother, setStage_self] at h
        cases h
      · rw [setStage_of_ne s hother] at h
        exact hother (kept.alone hheld h)
    constructor
    · exact Int.le_refl _
    · intro other otherStart h
      exact absurd h (hidle other otherStart)
    · intro other otherStart serverTimestamp h
      refine absurd ?_ (hidle other otherStart)
      have hstage : (s.setStage caller .idle).stage other =
          .answered otherStart (some serverTimestamp) := h
      rw [hstage]
      rfl
    · intro adjustment hadjustment
      rcases List.mem_append.mp hadjustment with hold | hnew
      · obtain ⟨hordered, hbefore, hserved⟩ := kept.finished adjustment hold
        exact ⟨hordered, Int.le_trans hbefore hpast, hserved⟩
      · rw [List.mem_singleton.mp hnew]
        refine ⟨hstarted, Int.le_refl _, ?_⟩
        intro serverTimestamp (h : answer = some serverTimestamp)
        apply kept.answers caller startedAt serverTimestamp
        rw [hstage, h]
    · apply List.pairwise_append.mpr
      refine ⟨kept.spaced, List.pairwise_singleton _ _, ?_⟩
      intro first hfirst second hsecond
      rw [List.mem_singleton.mp hsecond]
      have hbefore := (kept.finished first hfirst).2.1
      simp only
      omega
    · simp only [lastAnswered_append]
      cases answer with
      | none => exact kept.offset
      | some serverTimestamp => exact ⟨_, serverTimestamp, rfl, rfl, rfl⟩
  · exact kept

theorem kept_drop (kept : Kept server s) (caller : Nat) : Kept server (s.drop caller) := by
  have hidle := @kept_setStage server s kept caller .idle rfl
  constructor
  · exact kept.past
  · intro other startedAt h
    obtain ⟨hlock, hrest⟩ := hidle.holder other startedAt h
    refine ⟨?_, hrest⟩
    have hother : other ≠ caller := by
      intro hsame
      simp only [hsame, drop, setStage_self] at h
      cases h
    have hkept : s.timeAdjustLock = some other := hlock
    simp only [drop, hkept, Option.some.injEq, if_neg hother]
  · exact hidle.answers
  · exact kept.finished
  · exact kept.spaced
  · exact kept.offset

theorem kept_step (kept : Kept server s) (action : Action) :
    Kept server (s.step server action) := by
  cases action with
  | tick elapsed => exact kept_tick kept elapsed
  | call caller =>
      simp only [step]
      split
      · split
        · exact kept_setStage kept caller rfl
        · exact kept
      · exact kept
  | lock caller => exact kept_lock kept caller
  | answer caller fails => exact kept_answer kept caller fails
  | finish caller => exact kept_finish kept caller
  | drop caller => exact kept_drop kept caller

theorem kept_run {startedAt servedAt finishedAt : Int} (started : startedAt ≤ servedAt)
    (finished : servedAt ≤ finishedAt) (actions : List Action) :
    Kept server (run (step server) (connect server startedAt servedAt finishedAt) actions) := by
  have hstep : ∀ t a, Kept server t → True → Kept server (t.step server a) :=
    fun t a kept _ => kept_step kept a
  exact run_invariant hstep (kept_connect started finished) (along_of_forall fun _ _ _ => trivial)

/-- In every run of a session's callers, one of them asks the server at a time, and each call
begins at least the interval after every earlier one that was answered or failed. -/
theorem adjustments_spaced {startedAt servedAt finishedAt : Int} (started : startedAt ≤ servedAt)
    (finished : servedAt ≤ finishedAt) (actions : List Action) :
    let s := run (step server) (connect server startedAt servedAt finishedAt) actions
    (s.log.Pairwise fun first second =>
      first.finishedAt + timeAdjustInterval ≤ second.startedAt) ∧
    (∀ caller begun, (s.stage caller).startedAt = some begun →
      (∀ adjustment ∈ s.log, adjustment.finishedAt + timeAdjustInterval ≤ begun) ∧
      ∀ other later, (s.stage other).startedAt = some later → other = caller) := by
  intro s
  have kept : Kept server s := kept_run started finished actions
  refine ⟨kept.spaced, ?_⟩
  intro caller begun h
  refine ⟨?_, fun other later hother => kept.alone h hother⟩
  intro adjustment hadjustment
  have hdue := (kept.holder caller begun h).2.1
  have hbefore := (kept.finished adjustment hadjustment).2.1
  omega

def aheadServer (time : Int) : Int := time + 100

def twoCallers : List Action :=
  [.tick 30000, .call 1, .call 2, .lock 1, .answer 1 false, .tick 4, .finish 1, .lock 2]

/-- An interval later the second caller asks, and nobody else. -/
theorem twoCallers_spaced :
    let s := run (step aheadServer) (connect aheadServer 0 5 10)
      (twoCallers ++ [.tick 30000, .call 2, .lock 2])
    (s.log.Pairwise fun first second =>
      first.finishedAt + timeAdjustInterval ≤ second.startedAt) ∧
    (s.stage 2).startedAt = some 60014 ∧
    (∀ adjustment ∈ s.log, adjustment.finishedAt + timeAdjustInterval ≤ 60014) ∧
    ∀ other later, (s.stage other).startedAt = some later → other = 2 := by
  intro s
  have hasks : (s.stage 2).startedAt = some 60014 := by decide +kernel
  obtain ⟨hspaced, halone⟩ := @adjustments_spaced aheadServer 0 5 10 (by decide) (by decide)
    (twoCallers ++ [.tick 30000, .call 2, .lock 2])
  exact ⟨hspaced, hasks, halone 2 60014 hasks⟩

/-- The server's clock is ahead of the local one by `lead`, to within `jitter`. -/
def Tracks (server : Int → Int) (lead jitter : Int) : Prop :=
  ∀ time, time + lead - jitter ≤ server time ∧ server time ≤ time + lead + jitter

/-- In every run, a timestamp that a session sends is off by half the time that the last answered
call took and by twice the unsteadiness of the clocks, at most. -/
theorem timestamps_accurate {lead jitter : Int} (tracks : Tracks server lead jitter)
    {startedAt servedAt finishedAt : Int} (started : startedAt ≤ servedAt)
    (finished : servedAt ≤ finishedAt) (actions : List Action) :
    let s := run (step server) (connect server startedAt servedAt finishedAt) actions
    ∃ adjustment, lastAnswered s.log = some adjustment ∧
      2 * (s.serverTimestamp - server s.now).natAbs ≤
        adjustment.finishedAt - adjustment.startedAt + 1 + 4 * jitter := by
  intro s
  have kept : Kept server s := kept_run started finished actions
  obtain ⟨adjustment, serverTimestamp, hlast, hanswer, hoffset⟩ := kept.offset
  refine ⟨adjustment, hlast, ?_⟩
  have hmem : adjustment ∈ s.log := (List.mem_filter.mp (List.mem_of_getLast? hlast)).1
  obtain ⟨hordered, -, hserved⟩ := kept.finished adjustment hmem
  obtain ⟨servedTime, hbegun, hended, rfl⟩ := hserved serverTimestamp hanswer
  have hthen := tracks servedTime
  have hnow := tracks s.now
  have hhalf : (adjustment.finishedAt - adjustment.startedAt).tdiv 2 =
      (adjustment.finishedAt - adjustment.startedAt) / 2 :=
    Int.tdiv_eq_ediv_of_nonneg (by omega)
  unfold serverTimestamp
  rw [hoffset, RateLimit.clockOffset, hhalf]
  omega

theorem twoCallers_accurate :
    ∃ adjustment, lastAnswered (run (step aheadServer) (connect aheadServer 0 5 10)
        twoCallers).log = some adjustment ∧
      2 * ((run (step aheadServer) (connect aheadServer 0 5 10) twoCallers).serverTimestamp -
          aheadServer (run (step aheadServer) (connect aheadServer 0 5 10) twoCallers).now).natAbs ≤
        adjustment.finishedAt - adjustment.startedAt + 1 + 4 * 0 := by
  have tracks : Tracks aheadServer 100 0 := by
    intro time
    unfold aheadServer
    omega
  exact timestamps_accurate tracks (by decide) (by decide) twoCallers

end SessionClock

end PoleClient.RateLimit
