import PoleClient.FaultDetect.Reload

/-! # Convergence of the probe tasks

When all events and snapshots have finished, the tasks that run are those that
were started after the last stop. They are the tasks of the latest plans and
instances if and only if that stop left just these to be started, which it does
whenever no two reloads overlap.
-/

namespace PoleClient.FaultDetect

open Lib Cache

/-! ## What is wanted -/

def AllFinished (s : ReloadState) : Prop :=
  ∀ thread ∈ s.threads, thread = .finished

/-- The tasks of the targets built from the maps as they are. -/
def latestTasks (s : ReloadState) : List ProbeTask :=
  tasksOf (targetsOf s.shared.plans s.shared.instances)

/-- Whenever all have finished, the running tasks are those of the latest targets. -/
def Converges (moves : List ReloadMove) : Prop :=
  ∀ part, part <+: moves → AllFinished (run reloadStep .start part) →
    (run reloadStep .start part).shared.handles.Perm (latestTasks (run reloadStep .start part))

/-! ## The condition -/

def Stops (s : ReloadState) (move : ReloadMove) (targets : List FaultDetectTarget) : Prop :=
  ∃ index, move = .advance index ∧ s.threads[index]? = some (.stop targets)

def NotStop (s : ReloadState) (move : ReloadMove) : Prop :=
  ∀ targets, ¬ Stops s move targets

def pendingTasks (s : ReloadState) : List ProbeTask :=
  s.threads.flatMap ReloadThread.pending

/-- What is left to be started at the stop are the tasks of the maps as they are. -/
def LeavesLatest (s : ReloadState) (targets : List FaultDetectTarget) : Prop :=
  (pendingTasks s ++ tasksOf targets).Perm (latestTasks s)

/-- The last stop before all have finished leaves the latest tasks to be started. -/
def LastStopLatest (moves : List ReloadMove) : Prop :=
  ∀ first move later, first ++ move :: later <+: moves →
    ∀ targets, Stops (run reloadStep .start first) move targets →
    Along reloadStep NotStop (run reloadStep .start (first ++ [move])) later →
    AllFinished (run reloadStep .start (first ++ move :: later)) →
    LeavesLatest (run reloadStep .start first) targets

/-! ## After the last stop -/

def Late (s : ReloadState) : Prop :=
  ∀ thread ∈ s.threads, ¬ thread.Early

theorem late_of_finished {s : ReloadState} (h : AllFinished s) : Late s := by
  intro thread hthread hearly
  rw [h thread hthread] at hearly
  exact hearly

theorem pendingTasks_of_finished {s : ReloadState} (h : AllFinished s) : pendingTasks s = [] := by
  unfold pendingTasks
  rw [List.flatMap_eq_nil_iff]
  intro thread hthread
  rw [h thread hthread]
  rfl

/-- The maps are the same, and the running tasks with those to be started. -/
structure Settling (s next : ReloadState) : Prop where
  late : Late s
  plans : next.shared.plans = s.shared.plans
  instances : next.shared.instances = s.shared.instances
  tasks : (next.shared.handles ++ pendingTasks next).Perm (s.shared.handles ++ pendingTasks s)

theorem Settling.latestTasks {s next : ReloadState} (h : Settling s next) :
    latestTasks next = latestTasks s := by
  unfold FaultDetect.latestTasks
  rw [h.plans, h.instances]

/-- A move that is no stop, and leaves only threads without one, settles. -/
theorem settling_step {s : ReloadState} {move : ReloadMove} (notStop : NotStop s move)
    (late : Late (reloadStep s move)) : Settling s (reloadStep s move) := by
  cases move with
  | call begun =>
      have hthreads : (reloadStep s (.call begun)).threads = s.threads ++ [begun.thread] := rfl
      have hlast : begun.thread = .finished := by
        rcases thread_cases begun with hfinished | hwaiting
        · exact hfinished
        · refine absurd (Waiting.early hwaiting) (late begun.thread ?_)
          rw [hthreads]
          exact List.mem_append_right _ List.mem_cons_self
      have hpending : pendingTasks (reloadStep s (.call begun)) = pendingTasks s := by
        unfold pendingTasks
        rw [hthreads, hlast, List.flatMap_append]
        simp [ReloadThread.pending]
      refine ⟨fun thread hthread => late thread ?_, rfl, rfl, ?_⟩
      · rw [hthreads]
        exact List.mem_append_left _ hthread
      · rw [hpending]
        rfl
  | advance index =>
      cases hthread : s.threads[index]? with
      | none =>
          have hstep : reloadStep s (.advance index) = s := Threads.moveStep_none hthread ()
          rw [hstep] at late ⊢
          exact ⟨late, rfl, rfl, .refl _⟩
      | some thread =>
          have hstep : reloadStep s (.advance index) =
              ⟨(reloadProgram s.shared thread ()).shared,
                s.threads.set index (reloadProgram s.shared thread ()).thread⟩ :=
            Threads.moveStep_some hthread ()
          have hbound := (List.getElem?_eq_some_iff.mp hthread).choose
          have hnotStop : ∀ targets, thread ≠ .stop targets := by
            rintro targets rfl
            exact notStop targets ⟨index, rfl, hthread⟩
          have hlate : ¬ thread.Early := by
            intro hearly
            have hafter := @early_program s.shared _ hearly hnotStop
            refine absurd hafter (late _ ?_)
            rw [hstep]
            exact List.mem_set hbound _
          have hall : Late s := by
            intro other hother hearly
            rcases Threads.eq_or_mem_set hthread hother (reloadProgram s.shared thread ()).thread
              with rfl | hmem
            · exact hlate hearly
            · refine late other ?_ hearly
              rw [hstep]
              exact hmem
          have hperm := Threads.flatMap_set_perm ReloadThread.pending hthread .finished
          rw [hstep]
          cases thread with
          | start targets =>
              refine ⟨hall, rfl, rfl, ?_⟩
              simp only [reloadProgram, pendingTasks, List.append_assoc]
              exact List.Perm.append_left _ hperm
          | finished => exact ⟨hall, rfl, rfl, List.Perm.append_left _ hperm⟩
          | _ => exact absurd trivial hlate

theorem settling_run {s : ReloadState} {moves : List ReloadMove}
    (notStop : Along reloadStep NotStop s moves) (finished : AllFinished (run reloadStep s moves)) :
    Settling s (run reloadStep s moves) := by
  induction moves generalizing s with
  | nil => exact ⟨late_of_finished finished, rfl, rfl, .refl _⟩
  | cons move moves ih =>
      have hrest := ih notStop.2 finished
      have hstep := settling_step notStop.1 hrest.late
      exact ⟨hstep.late, hrest.plans.trans hstep.plans, hrest.instances.trans hstep.instances,
        hrest.tasks.trans hstep.tasks⟩

theorem handles_of_settling {s next : ReloadState} (settling : Settling s next)
    (finished : AllFinished next) :
    next.shared.handles.Perm (s.shared.handles ++ pendingTasks s) := by
  have htasks := settling.tasks
  rwa [pendingTasks_of_finished finished, List.append_nil] at htasks

/-- A stop leaves the tasks of its own targets to be started, with those left before. -/
theorem stop_step {s : ReloadState} {move : ReloadMove} {targets : List FaultDetectTarget}
    (stops : Stops s move targets) :
    (reloadStep s move).shared.handles = [] ∧ latestTasks (reloadStep s move) = latestTasks s ∧
      (pendingTasks (reloadStep s move)).Perm (pendingTasks s ++ tasksOf targets) := by
  obtain ⟨index, rfl, hthread⟩ := stops
  have hstep : reloadStep s (.advance index) =
      ⟨{ s.shared with handles := [] },
        s.threads.set index (if targets.isEmpty then .finished else .start targets)⟩ :=
    Threads.moveStep_some hthread ()
  rw [hstep]
  refine ⟨rfl, rfl, ?_⟩
  have hperm := Threads.flatMap_set_perm ReloadThread.pending hthread
    (if targets.isEmpty then .finished else .start targets)
  have hpending : ReloadThread.pending (if targets.isEmpty then .finished else .start targets) =
      tasksOf targets := by
    cases targets with
    | nil => rfl
    | cons target targets => rfl
  rw [hpending] at hperm
  exact hperm.trans List.perm_append_comm

/-! ## Convergence -/

theorem last_stop (s : ReloadState) (moves : List ReloadMove) :
    Along reloadStep NotStop s moves ∨
      ∃ first move later targets, moves = first ++ move :: later ∧
        Stops (run reloadStep s first) move targets ∧
        Along reloadStep NotStop (run reloadStep s (first ++ [move])) later := by
  induction moves generalizing s with
  | nil => exact .inl trivial
  | cons move moves ih =>
      rcases ih (reloadStep s move) with hrest | ⟨first, last, later, targets, rfl, hstops, hlater⟩
      · by_cases hstop : ∃ targets, Stops s move targets
        · obtain ⟨targets, hstops⟩ := hstop
          exact .inr ⟨[], move, moves, targets, rfl, hstops, hrest⟩
        · refine .inl ⟨fun targets hstops => hstop ⟨targets, hstops⟩, hrest⟩
      · exact .inr ⟨move :: first, last, later, targets, rfl, hstops, hlater⟩

/-- After a last stop the running tasks are the latest if and only if it leaves them. -/
theorem latest_iff_leaves {s : ReloadState} {move : ReloadMove}
    {targets : List FaultDetectTarget} (stops : Stops s move targets) {later : List ReloadMove}
    (notStop : Along reloadStep NotStop (reloadStep s move) later)
    (finished : AllFinished (run reloadStep (reloadStep s move) later)) :
    (run reloadStep (reloadStep s move) later).shared.handles.Perm
        (latestTasks (run reloadStep (reloadStep s move) later)) ↔ LeavesLatest s targets := by
  obtain ⟨hhandles, hlatest, hpending⟩ := stop_step stops
  have hsettling := settling_run notStop finished
  have hend := handles_of_settling hsettling finished
  rw [hhandles, List.nil_append] at hend
  have hleft := hend.trans hpending
  rw [hsettling.latestTasks, hlatest]
  unfold LeavesLatest
  exact ⟨fun h => hleft.symm.trans h, fun h => hleft.trans h⟩

/-! ## Reloads one at a time -/

/-- No reload copies the plans while another one has yet to start its targets. -/
def OneReload (s : ReloadState) (move : ReloadMove) : Prop :=
  ∀ index, move = .advance index → s.threads[index]? = some .readPlans →
    ∀ other ∈ s.threads, ¬ other.Reloading

def Fresh (self : ProbeState) : ReloadThread → Prop
  | .readInstances plans => plans = self.plans
  | .stop targets => targets = targetsOf self.plans self.instances
  | _ => True

/-- At most one thread is reloading, and what the threads have copied is fresh unless one has yet
to reload. -/
structure Serial (s : ReloadState) : Prop where
  one : Threads.AtMostOne ReloadThread.Reloading s.threads
  fresh : (∃ thread ∈ s.threads, thread.Waiting) ∨ ∀ thread ∈ s.threads, Fresh s.shared thread

theorem serial_start : Serial .start where
  one := fun _ _ _ _ h => (nomatch h)
  fresh := .inr fun _ h => (nomatch h)

theorem fresh_of_not_reloading (self : ProbeState) {thread : ReloadThread}
    (h : ¬ thread.Reloading) : Fresh self thread := by
  cases thread with
  | readInstances plans => exact absurd trivial h
  | stop targets => exact absurd trivial h
  | _ => trivial

theorem not_reloading_of_waiting {thread : ReloadThread} (h : thread.Waiting) :
    ¬ thread.Reloading := by
  cases thread with
  | updating updates => exact id
  | readPlans => exact id
  | _ => exact absurd h id

theorem serial_call {s : ReloadState} (inv : Serial s) (begun : ReloadCall) :
    Serial (reloadStep s (.call begun)) := by
  have hthreads : (reloadStep s (.call begun)).threads = s.threads ++ [begun.thread] := rfl
  rcases thread_cases begun with hfinished | hwaiting
  · have hquiet : ¬ begun.thread.Reloading := by
      rw [hfinished]
      exact id
    refine ⟨Threads.atMostOne_append inv.one hquiet, ?_⟩
    rcases inv.fresh with ⟨thread, hmem, hwaiting⟩ | hfresh
    · exact .inl ⟨thread, List.mem_append_left _ hmem, hwaiting⟩
    · right
      intro thread hmem
      rcases List.mem_append.mp hmem with hold | hnew
      · exact hfresh thread hold
      · rw [List.mem_singleton.mp hnew]
        exact fresh_of_not_reloading _ hquiet
  · refine ⟨Threads.atMostOne_append inv.one (not_reloading_of_waiting hwaiting), .inl ?_⟩
    exact ⟨begun.thread, List.mem_append_right _ List.mem_cons_self, hwaiting⟩

theorem fresh_advance (handles : List ProbeTask) {s : ReloadState} {index : Nat}
    {old new : ReloadThread}
    (fresh : (∃ thread ∈ s.threads, thread.Waiting) ∨ ∀ thread ∈ s.threads, Fresh s.shared thread)
    (hold : s.threads[index]? = some old) (notWaiting : ¬ old.Waiting)
    (hnew : Fresh s.shared old → Fresh s.shared new) :
    (∃ thread ∈ s.threads.set index new, thread.Waiting) ∨
      ∀ thread ∈ s.threads.set index new, Fresh { s.shared with handles := handles } thread := by
  have hsame : ∀ thread, Fresh { s.shared with handles := handles } thread ↔
      Fresh s.shared thread := by
    intro thread
    cases thread <;> exact Iff.rfl
  rcases fresh with ⟨thread, hmem, hwaiting⟩ | hfresh
  · rcases Threads.eq_or_mem_set hold hmem new with rfl | hset
    · exact absurd hwaiting notWaiting
    · exact .inl ⟨thread, hset, hwaiting⟩
  · refine .inr fun thread hmem => (hsame thread).mpr ?_
    rcases List.mem_or_eq_of_mem_set hmem with hmem | rfl
    · exact hfresh thread hmem
    · exact hnew (hfresh old (List.mem_of_getElem? hold))

theorem serial_step {s : ReloadState} {move : ReloadMove} (inv : Serial s)
    (one : OneReload s move) : Serial (reloadStep s move) := by
  cases move with
  | call begun => exact serial_call inv begun
  | advance index =>
      cases hthread : s.threads[index]? with
      | none =>
          have hstep : reloadStep s (.advance index) = s := Threads.moveStep_none hthread ()
          rwa [hstep]
      | some thread =>
          have hstep : reloadStep s (.advance index) =
              ⟨(reloadProgram s.shared thread ()).shared,
                s.threads.set index (reloadProgram s.shared thread ()).thread⟩ :=
            Threads.moveStep_some hthread ()
          have hbound := (List.getElem?_eq_some_iff.mp hthread).choose
          rw [hstep]
          cases thread with
          | updating updates =>
              have hwaiting : (reloadProgram s.shared (.updating updates) ()).thread.Waiting := by
                cases updates with
                | nil => trivial
                | cons update updates => exact remaining_waiting updates
              refine ⟨Threads.atMostOne_set inv.one hthread fun h => ?_, .inl ?_⟩
              · exact absurd h (not_reloading_of_waiting hwaiting)
              · exact ⟨_, List.mem_set hbound _, hwaiting⟩
          | readPlans =>
              have hnone := one index rfl hthread
              refine ⟨Threads.atMostOne_set inv.one hthread fun _ => .inr hnone, .inr ?_⟩
              intro other hother
              rcases List.mem_or_eq_of_mem_set hother with hold | rfl
              · exact fresh_of_not_reloading _ (hnone other hold)
              · rfl
          | readInstances plans =>
              refine ⟨Threads.atMostOne_set inv.one hthread fun _ => .inl trivial, ?_⟩
              apply fresh_advance s.shared.handles inv.fresh hthread id
              rintro rfl
              rfl
          | stop targets =>
              refine ⟨Threads.atMostOne_set inv.one hthread fun _ => .inl trivial, ?_⟩
              refine fresh_advance [] inv.fresh hthread id fun _ => ?_
              simp only [reloadProgram]
              split <;> trivial
          | start targets =>
              refine ⟨Threads.atMostOne_set inv.one hthread fun _ => .inl trivial, ?_⟩
              exact fresh_advance _ inv.fresh hthread id fun _ => trivial
          | finished =>
              refine ⟨Threads.atMostOne_set inv.one hthread fun h => .inl h, ?_⟩
              exact fresh_advance s.shared.handles inv.fresh hthread id fun _ => trivial

/-- A stop that no other follows leaves the latest tasks. -/
theorem leavesLatest_of_serial {s : ReloadState} {move : ReloadMove}
    {targets : List FaultDetectTarget} (inv : Serial s) (stops : Stops s move targets)
    (late : Late (reloadStep s move)) : LeavesLatest s targets := by
  obtain ⟨index, rfl, hthread⟩ := stops
  have hstep : reloadStep s (.advance index) =
      ⟨{ s.shared with handles := [] },
        s.threads.set index (if targets.isEmpty then .finished else .start targets)⟩ :=
    Threads.moveStep_some hthread ()
  have hfresh : targets = targetsOf s.shared.plans s.shared.instances := by
    rcases inv.fresh with ⟨other, hother, hwaiting⟩ | hall
    · rcases Threads.eq_or_mem_set hthread hother
        (if targets.isEmpty then .finished else .start targets) with rfl | hset
      · exact absurd hwaiting id
      · refine absurd (Waiting.early hwaiting) (late other ?_)
        rw [hstep]
        exact hset
    · exact hall _ (List.mem_of_getElem? hthread)
  have hpending : pendingTasks s = [] := by
    unfold pendingTasks
    rw [List.flatMap_eq_nil_iff]
    intro other hother
    cases other with
    | start pending =>
        obtain ⟨place, hplace⟩ := List.mem_iff_getElem?.mp hother
        have hsame := inv.one index place _ _ hthread hplace trivial trivial
        rw [hsame, hplace] at hthread
        cases hthread
    | _ => rfl
  unfold LeavesLatest latestTasks
  rw [hpending, ← hfresh]
  exact .refl _

/-- The running tasks converge to the latest if and only if the last stop before all have finished
leaves the latest tasks to be started; and they do when no reload begins during another one. -/
theorem converges_iff (moves : List ReloadMove) :
    (Converges moves ↔ LastStopLatest moves) ∧
      (Along reloadStep OneReload .start moves → Converges moves) := by
  have hiff : Converges moves ↔ LastStopLatest moves := by
    constructor
    · intro hconverges first move later hpart targets hstops hlater hfinished
      have hend := hconverges _ hpart hfinished
      rw [run_append, run_cons, run_nil] at hlater
      rw [run_append, run_cons] at hend hfinished
      exact (latest_iff_leaves hstops hlater hfinished).mp hend
    · intro hlast part hpart hfinished
      rcases last_stop .start part with hnone | ⟨first, move, later, targets, rfl, hstops, hlater⟩
      · have hsettling := settling_run hnone hfinished
        have hend := handles_of_settling hsettling hfinished
        rw [hsettling.latestTasks]
        exact hend
      · have hleaves := hlast first move later hpart targets hstops hlater hfinished
        rw [run_append, run_cons, run_nil] at hlater
        rw [run_append, run_cons] at hfinished ⊢
        exact (latest_iff_leaves hstops hlater hfinished).mpr hleaves
  refine ⟨hiff, fun hone => hiff.mpr ?_⟩
  intro first move later hpart targets hstops hlater hfinished
  have hfirst : first <+: moves := (List.prefix_append first _).trans hpart
  have hserial : Serial (run reloadStep .start first) := by
    obtain ⟨rest, rfl⟩ := hfirst
    exact @run_invariant _ _ reloadStep OneReload Serial (fun _ _ inv one => serial_step inv one) _
      first serial_start (along_append.mp hone).1
  rw [run_append, run_cons, run_nil] at hlater
  rw [run_append, run_cons] at hfinished
  exact leavesLatest_of_serial hserial hstops (settling_run hlater hfinished).late

/-! ## Two reloads that overlap -/

def ordersKey (type : EventType) : ResourceEventKey :=
  ⟨"prod", type, fun name => if name = "service" then some "orders" else none⟩

def ordersInstance : Instance :=
  ⟨"i1", "prod", "orders", "10.0.0.1", 8080, "", "", "", true, false, 100, 0, .empty, default, ""⟩

def ordersSnapshot : ServiceInstancesCacheItem :=
  ⟨true, ⟨"s1", "prod", "orders", .empty, "r1"⟩, [ordersInstance], [ordersInstance], 100, "r1"⟩

def tcpProbe : FaultDetectSubRule := ⟨false, .tcp, 30, 10, 0, none, some ⟨"ping", ["pong"]⟩, none⟩

def probeRule : FaultDetectRule := ⟨"probe", 0, some ⟨"prod", "orders"⟩, [tcpProbe]⟩

def ruleEvent : ServerEvent FaultDetectRule :=
  ⟨ordersKey (.governance .faultDetectRule),
    .governance .faultDetectRule ⟨true, "r1", [probeRule]⟩⟩

def instanceEvent : ServerEvent FaultDetectRule :=
  ⟨ordersKey .«instance», .«instance» ordersSnapshot⟩

/-- The two events of a new service, each of whose steps is followed by the same step of the
other: the write, the two copies, the stop, and the start. -/
def overlappingReloads : List ReloadMove :=
  [.call (.event .update ruleEvent), .call (.event .update instanceEvent),
    .advance 0, .advance 1, .advance 0, .advance 1, .advance 0, .advance 1,
    .advance 0, .advance 1, .advance 0, .advance 1]

/-- Both reloads stop before either of them starts: the one probe runs twice. -/
theorem both_reloads_start : ¬ Converges overlappingReloads := by
  intro hconverges
  have hfinished : AllFinished (run reloadStep .start overlappingReloads) := by
    intro thread hthread
    change thread ∈ [ReloadThread.finished, ReloadThread.finished] at hthread
    simpa using hthread
  have hlength := (hconverges _ (List.prefix_refl _) hfinished).length_eq
  revert hlength
  decide

end PoleClient.FaultDetect
