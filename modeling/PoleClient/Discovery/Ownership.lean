import Mathlib.Data.List.Nodup
import PoleClient.Discovery.Heartbeat

/-! # Who owns a heartbeat

Each live task should be the one that its instance registered last, and the map
should hold its handle. A call that finds a foreign or an older handle under its
joined text breaks this, and nothing else does.
-/

namespace PoleClient.Discovery

open Lib

/-! ## What is wanted -/

def tasksOf (s : ProviderState) (identity : InstanceIdentity) : List HeartbeatTask :=
  s.live.filter fun task => task.beatReq.identity = identity

/-- The map holds the handle of the task, so that a deregistration can abort it. -/
def Recorded (s : ProviderState) (task : HeartbeatTask) : Prop :=
  s.beatTasks task.beatReq.beatKey = some task.handle

/-- After the call no instance has two tasks, and those of other instances run on as recorded. -/
structure Exclusive (s : ProviderState) (call : ProviderCall) : Prop where
  single : ∀ identity, (tasksOf (step s call) identity).length ≤ 1
  others : ∀ identity, identity ≠ call.identity →
    tasksOf (step s call) identity = tasksOf s identity ∧
      ∀ task ∈ tasksOf s identity, Recorded s task → Recorded (step s call) task

/-- No task is recorded under the text of a registration that starts one, and none of another
instance under the text of a deregistration. -/
def KeyFree (s : ProviderState) (call : ProviderCall) : Prop :=
  (call.Starts → s.beatTasks call.beatReq.beatKey = none) ∧
    (call.IsDeregister → ∀ task ∈ s.live,
      s.beatTasks call.beatReq.beatKey = some task.handle →
      task.beatReq.identity = call.identity)

/-! ## The invariant -/

/-- The map holds exactly the live tasks, each under its text. -/
structure Owned (s : ProviderState) : Prop where
  fresh : ∀ task ∈ s.live, task.handle < s.spawned
  distinct : (s.live.map HeartbeatTask.handle).Nodup
  recorded : ∀ task ∈ s.live, Recorded s task
  alive : ∀ key handle, s.beatTasks key = some handle →
    ∃ task ∈ s.live, task.handle = handle ∧ task.beatReq.beatKey = key

theorem owned_new : Owned .new where
  fresh := fun _ h => (nomatch h)
  distinct := List.nodup_nil
  recorded := fun _ h => (nomatch h)
  alive := fun _ _ h => (nomatch h)

theorem beatKey_of_identity {first second : InstanceHeartbeatRequest}
    (h : first.identity = second.identity) : first.beatKey = second.beatKey := by
  unfold InstanceHeartbeatRequest.identity at h
  unfold InstanceHeartbeatRequest.beatKey
  injection h with hnamespace hservice hip hport hvpc
  rw [hnamespace, hservice, hip, hport, hvpc]

theorem Owned.eq_of_handle {s : ProviderState} (inv : Owned s) {task other : HeartbeatTask}
    (htask : task ∈ s.live) (hother : other ∈ s.live) (h : task.handle = other.handle) :
    task = other :=
  List.inj_on_of_nodup_map inv.distinct htask hother h

theorem Owned.eq_of_beatKey {s : ProviderState} (inv : Owned s) {task other : HeartbeatTask}
    (htask : task ∈ s.live) (hother : other ∈ s.live)
    (h : task.beatReq.beatKey = other.beatReq.beatKey) : task = other := by
  have hfirst := inv.recorded task htask
  have hsecond := inv.recorded other hother
  unfold Recorded at hfirst hsecond
  rw [h] at hfirst
  exact inv.eq_of_handle htask hother (Option.some.inj (hfirst.symm.trans hsecond))

theorem length_le_one {α : Type} {l : List α} (nodup : l.Nodup)
    (same : ∀ a ∈ l, ∀ b ∈ l, a = b) : l.length ≤ 1 := by
  cases l with
  | nil => exact Nat.zero_le 1
  | cons a rest =>
      cases rest with
      | nil => exact Nat.le_refl 1
      | cons b rest =>
          have heq : a = b :=
            same a List.mem_cons_self b (List.mem_cons_of_mem a List.mem_cons_self)
          exact absurd (heq ▸ List.mem_cons_self) (List.nodup_cons.mp nodup).1

theorem mem_tasksOf {s : ProviderState} {identity : InstanceIdentity} {task : HeartbeatTask} :
    task ∈ tasksOf s identity ↔ task ∈ s.live ∧ task.beatReq.identity = identity := by
  simp [tasksOf]

theorem Owned.single {s : ProviderState} (inv : Owned s) (identity : InstanceIdentity) :
    (tasksOf s identity).length ≤ 1 := by
  apply length_le_one
  · exact inv.distinct.of_map.filter _
  · intro task htask other hother
    rw [mem_tasksOf] at htask hother
    have hkeys := beatKey_of_identity (htask.2.trans hother.2.symm)
    exact inv.eq_of_beatKey htask.1 hother.1 hkeys

theorem Owned.none_of_key {s : ProviderState} (inv : Owned s) {beatReq : InstanceHeartbeatRequest}
    (h : s.beatTasks beatReq.beatKey = none) : tasksOf s beatReq.identity = [] := by
  rw [List.eq_nil_iff_forall_not_mem]
  intro task htask
  rw [mem_tasksOf] at htask
  have hrecorded := inv.recorded task htask.1
  unfold Recorded at hrecorded
  rw [beatKey_of_identity htask.2, h] at hrecorded
  cases hrecorded

/-! ## One call -/

theorem mem_abort {s : ProviderState} {handle : JoinHandle} {task : HeartbeatTask} :
    task ∈ (s.abort handle).live ↔ task ∈ s.live ∧ task.handle ≠ handle := by
  simp [ProviderState.abort]

/-- Spawning under a free text keeps the map exact. -/
theorem owned_spawn {s : ProviderState} (inv : Owned s) (ttl : UInt32)
    {beatReq : InstanceHeartbeatRequest} (free : s.beatTasks beatReq.beatKey = none) :
    Owned ((s.spawn ttl beatReq).setBeatTask beatReq.beatKey (some s.spawned)) where
  fresh := by
    intro task htask
    rcases List.mem_cons.mp htask with rfl | hold
    · exact Nat.lt_succ_self s.spawned
    · exact Nat.lt_succ_of_lt (inv.fresh task hold)
  distinct := by
    refine List.nodup_cons.mpr ⟨fun hmem => ?_, inv.distinct⟩
    obtain ⟨task, htask, hhandle⟩ := List.mem_map.mp hmem
    exact absurd hhandle (Nat.ne_of_lt (inv.fresh task htask))
  recorded := by
    intro task htask
    unfold Recorded ProviderState.setBeatTask
    rcases List.mem_cons.mp htask with rfl | hold
    · exact if_pos rfl
    · have hrecorded := inv.recorded task hold
      have hne : task.beatReq.beatKey ≠ beatReq.beatKey := by
        intro heq
        unfold Recorded at hrecorded
        rw [heq, free] at hrecorded
        cases hrecorded
      exact (if_neg hne).trans hrecorded
  alive := by
    intro key handle h
    unfold ProviderState.setBeatTask at h
    simp only at h
    split at h
    · rename_i hkey
      exact ⟨_, List.mem_cons_self, Option.some.inj h, hkey.symm⟩
    · obtain ⟨task, htask, hhandle, hkey⟩ := inv.alive key handle h
      exact ⟨task, List.mem_cons_of_mem _ htask, hhandle, hkey⟩

/-- Aborting what is recorded under a text keeps the map the one of the live tasks. -/
theorem owned_abort {s : ProviderState} (inv : Owned s) {key : String} {handle : JoinHandle}
    (h : s.beatTasks key = some handle) : Owned ((s.setBeatTask key none).abort handle) where
  fresh := fun task htask => inv.fresh task (mem_abort.mp htask).1
  distinct := inv.distinct.sublist (List.filter_sublist.map HeartbeatTask.handle)
  recorded := by
    intro task htask
    obtain ⟨hold, hne⟩ := mem_abort.mp htask
    have hrecorded := inv.recorded task hold
    have hkey : task.beatReq.beatKey ≠ key := by
      intro heq
      unfold Recorded at hrecorded
      rw [heq, h] at hrecorded
      exact hne (Option.some.inj hrecorded).symm
    exact (if_neg hkey).trans hrecorded
  alive := by
    intro other otherHandle hother
    have hne : other ≠ key := by
      rintro rfl
      simp [ProviderState.setBeatTask, ProviderState.abort] at hother
    have hbefore : s.beatTasks other = some otherHandle := (if_neg hne).symm.trans hother
    obtain ⟨task, htask, hhandle, hkey⟩ := inv.alive other otherHandle hbefore
    refine ⟨task, mem_abort.mpr ⟨htask, ?_⟩, hhandle, hkey⟩
    -- The aborted handle belongs to a task under the other text.
    intro heq
    obtain ⟨aborted, haborted, hsame, htext⟩ := inv.alive key handle h
    have hequal := inv.eq_of_handle htask haborted (heq.trans hsame.symm)
    exact hne (hkey.symm.trans ((congrArg (·.beatReq.beatKey) hequal).trans htext))

theorem owned_step {s : ProviderState} (inv : Owned s) {call : ProviderCall}
    (free : KeyFree s call) : Owned (step s call) := by
  rcases step_cases s call with ⟨hstarts, ttl, hstep⟩ | ⟨-, hstep, -⟩ |
    ⟨hderegister, handle, hhandle, hstep⟩
  · rw [hstep]
    exact owned_spawn inv ttl (free.1 hstarts)
  · rw [hstep]
    exact inv
  · rw [hstep]
    exact owned_abort inv hhandle

/-- Starting under a free text touches no other instance. -/
theorem exclusive_spawn {s : ProviderState} (inv : Owned s) {call : ProviderCall} {ttl : UInt32}
    (hstep : step s call =
      (s.spawn ttl call.beatReq).setBeatTask call.beatReq.beatKey (some s.spawned))
    (free : s.beatTasks call.beatReq.beatKey = none) : Exclusive s call where
  single := fun identity => by
    rw [hstep]
    exact (owned_spawn inv ttl free).single identity
  others := by
    intro identity hother
    rw [hstep]
    constructor
    · have hne : ¬ call.beatReq.identity = identity := fun h => hother h.symm
      simp [tasksOf, ProviderState.spawn, ProviderState.setBeatTask, hne]
    · intro task htask _
      exact (owned_spawn inv ttl free).recorded task
        (List.mem_cons_of_mem _ (mem_tasksOf.mp htask).1)

/-- Nor does stopping one's own. -/
theorem exclusive_abort {s : ProviderState} (inv : Owned s) {call : ProviderCall}
    {handle : JoinHandle} (h : s.beatTasks call.beatReq.beatKey = some handle)
    (hstep : step s call = (s.setBeatTask call.beatReq.beatKey none).abort handle)
    (own : ∀ task ∈ s.live, s.beatTasks call.beatReq.beatKey = some task.handle →
      task.beatReq.identity = call.identity) : Exclusive s call where
  single := fun identity => by
    rw [hstep]
    exact (owned_abort inv h).single identity
  others := by
    intro identity hother
    have hforeign : ∀ task ∈ tasksOf s identity, task.handle ≠ handle := by
      intro task htask heq
      obtain ⟨hlive, hidentity⟩ := mem_tasksOf.mp htask
      exact hother (hidentity.symm.trans (own task hlive (heq ▸ h)))
    rw [hstep]
    constructor
    · simp only [tasksOf, ProviderState.abort, ProviderState.setBeatTask]
      rw [List.filter_comm, List.filter_eq_self]
      intro task htask
      simpa using hforeign task htask
    · intro task htask _
      exact (owned_abort inv h).recorded task
        (mem_abort.mpr ⟨(mem_tasksOf.mp htask).1, hforeign task htask⟩)

theorem exclusive_iff {s : ProviderState} (inv : Owned s) (call : ProviderCall) :
    Exclusive s call ↔ KeyFree s call := by
  rcases step_cases s call with ⟨hstarts, ttl, hstep⟩ | ⟨hquiet, hstep, hnone⟩ |
    ⟨hderegister, handle, hhandle, hstep⟩
  · have hnot : ¬ call.IsDeregister := by
      cases call with
      | register req rsp => exact id
      | deregister req rsp => exact absurd hstarts id
    constructor
    · intro hexclusive
      refine ⟨fun _ => ?_, fun h => absurd h hnot⟩
      cases hkey : s.beatTasks call.beatReq.beatKey with
      | none => rfl
      | some handle =>
          obtain ⟨task, htask, rfl, htext⟩ := inv.alive _ _ hkey
          by_cases hown : task.beatReq.identity = call.identity
          · -- The instance now has the old task and the new one.
            have hsingle := hexclusive.single call.identity
            rw [hstep] at hsingle
            have hmem : task ∈ tasksOf s call.identity := mem_tasksOf.mpr ⟨htask, hown⟩
            have hlength := List.length_pos_of_mem hmem
            simp only [tasksOf, ProviderState.spawn, ProviderState.setBeatTask] at hsingle hlength
            rw [List.filter_cons_of_pos (by simp [ProviderCall.identity]),
              List.length_cons] at hsingle
            omega
          · -- The handle of the other instance's task is no longer in the map.
            have hkept := (hexclusive.others _ hown).2 task (mem_tasksOf.mpr ⟨htask, rfl⟩)
              (inv.recorded task htask)
            rw [hstep] at hkept
            unfold Recorded ProviderState.setBeatTask at hkept
            simp only [htext, if_true] at hkept
            have hfresh := inv.fresh task htask
            exact absurd (Option.some.inj hkept).symm (Nat.ne_of_lt hfresh)
    · exact fun free => exclusive_spawn inv hstep (free.1 hstarts)
  · constructor
    · intro _
      refine ⟨fun h => absurd h hquiet, fun hderegister task htask hkey => ?_⟩
      rw [hnone hderegister] at hkey
      cases hkey
    · intro _
      refine ⟨fun identity => ?_, fun identity _ => ?_⟩
      · rw [hstep]
        exact inv.single identity
      · rw [hstep]
        exact ⟨rfl, fun _ _ => id⟩
  · have hnot : ¬ call.Starts := by
      cases call with
      | register req rsp => exact absurd hderegister id
      | deregister req rsp => exact id
    constructor
    · intro hexclusive
      refine ⟨fun h => absurd h hnot, fun _ task htask hkey => ?_⟩
      apply Classical.byContradiction
      intro hother
      have hsame := (hexclusive.others _ hother).1
      have hmem : task ∈ tasksOf (step s call) task.beatReq.identity := by
        rw [hsame]
        exact mem_tasksOf.mpr ⟨htask, rfl⟩
      rw [hstep] at hmem
      have hne := (mem_abort.mp (mem_tasksOf.mp hmem).1).2
      exact hne (Option.some.inj (hkey.symm.trans hhandle))
    · exact fun free => exclusive_abort inv hhandle hstep (free.2 hderegister)

/-! ## Deregistered instances -/

theorem tasksOf_deregister {s : ProviderState} (inv : Owned s) {call : ProviderCall}
    (hderegister : call.IsDeregister) : tasksOf (step s call) call.identity = [] := by
  rcases step_cases s call with ⟨hstarts, -⟩ | ⟨-, hstep, hnone⟩ | ⟨-, handle, hhandle, hstep⟩
  · cases call with
    | register req rsp => exact absurd hderegister id
    | deregister req rsp => exact absurd hstarts id
  · rw [hstep]
    exact inv.none_of_key (hnone hderegister)
  · rw [hstep]
    have hkey : ((s.setBeatTask call.beatReq.beatKey none).abort handle).beatTasks
        call.beatReq.beatKey = none := if_pos rfl
    exact (owned_abort inv hhandle).none_of_key hkey

theorem tasksOf_step {s : ProviderState} {identity : InstanceIdentity} {call : ProviderCall}
    (none : tasksOf s identity = []) (h : ¬ (call.Starts ∧ call.identity = identity)) :
    tasksOf (step s call) identity = [] := by
  rcases step_cases s call with ⟨hstarts, ttl, hstep⟩ | ⟨-, hstep, -⟩ | ⟨-, handle, -, hstep⟩
  · have hne : ¬ call.beatReq.identity = identity := fun heq => h ⟨hstarts, heq⟩
    rw [hstep]
    unfold tasksOf ProviderState.spawn ProviderState.setBeatTask
    rw [List.filter_cons_of_neg (by simpa using hne)]
    exact none
  · rw [hstep]
    exact none
  · rw [hstep, List.eq_nil_iff_forall_not_mem]
    intro task htask
    obtain ⟨hlive, hidentity⟩ := mem_tasksOf.mp htask
    have hmem : task ∈ tasksOf s identity := mem_tasksOf.mpr ⟨(mem_abort.mp hlive).1, hidentity⟩
    rw [none] at hmem
    cases hmem

theorem tasksOf_run {s : ProviderState} {identity : InstanceIdentity} {calls : List ProviderCall}
    (none : tasksOf s identity = [])
    (h : ∀ call ∈ calls, ¬ (call.Starts ∧ call.identity = identity)) :
    tasksOf (run step s calls) identity = [] := by
  induction calls generalizing s with
  | nil => exact none
  | cons call calls ih =>
      exact ih (tasksOf_step none (h call List.mem_cons_self))
        fun later hlater => h later (List.mem_cons_of_mem call hlater)

/-! ## Every sequence of calls -/

/-- What is wanted of a sequence of calls from the start. -/
structure HeartbeatsOwned (calls : List ProviderCall) : Prop where
  single : ∀ part, part <+: calls → ∀ identity,
    (tasksOf (run step .new part) identity).length ≤ 1
  stopped : ∀ first call later, first ++ call :: later <+: calls → call.IsDeregister →
    (∀ other ∈ later, ¬ (other.Starts ∧ other.identity = call.identity)) →
    tasksOf (run step .new (first ++ call :: later)) call.identity = []
  others : ∀ first call, first ++ [call] <+: calls → ∀ identity, identity ≠ call.identity →
    tasksOf (run step .new (first ++ [call])) identity = tasksOf (run step .new first) identity ∧
      ∀ task ∈ tasksOf (run step .new first) identity, Recorded (run step .new first) task →
        Recorded (run step .new (first ++ [call])) task

/-- The heartbeats are owned all along if and only if every registration that starts one finds
nothing recorded under its joined text, and every deregistration finds nothing of another instance
there. -/
theorem heartbeats_owned_iff (calls : List ProviderCall) :
    HeartbeatsOwned calls ↔ Along step KeyFree .new calls := by
  have hexact : Along step Exclusive .new calls ↔ Along step KeyFree .new calls :=
    along_iff_along (fun _ _ inv free => owned_step inv free)
      (fun _ call inv => exclusive_iff inv call) owned_new
  constructor
  · intro howned
    rw [← hexact, along_iff]
    intro first call hpart
    have hlast : run step .new (first ++ [call]) = step (run step .new first) call :=
      run_append step .new first [call]
    refine ⟨fun identity => ?_, fun identity hother => ?_⟩
    · have hsingle := howned.single _ hpart identity
      rwa [hlast] at hsingle
    · have hothers := howned.others first call hpart identity hother
      rwa [hlast] at hothers
  · intro hfree
    have hinv : ∀ part, part <+: calls → Owned (run step .new part) := by
      rintro part ⟨rest, rfl⟩
      exact @run_invariant _ _ step KeyFree Owned (fun _ _ inv free => owned_step inv free) _ part
        owned_new (along_append.mp hfree).1
    refine ⟨fun part hpart => (hinv part hpart).single, ?_, ?_⟩
    · intro first call later hpart hderegister hquiet
      have hfirst : first <+: calls := (List.prefix_append first _).trans hpart
      rw [run_append, run_cons]
      exact tasksOf_run (tasksOf_deregister (hinv first hfirst) hderegister) hquiet
    · intro first call hpart
      have hexclusive := along_iff.mp (hexact.mpr hfree) first call hpart
      rw [run_append]
      exact hexclusive.others

/-! ## Repeated and colliding registrations -/

def beatingRegister (namespaceName service : String) : ProviderCall :=
  .register ⟨"", 1, none, namespaceName, service, "10.0.0.1", 80, "", 5, true⟩ (.ok ⟨"", false⟩)

def quietDeregister (namespaceName service : String) : ProviderCall :=
  .deregister ⟨"", 1, namespaceName, service, "10.0.0.1", 80, ""⟩ (.ok ())

def repeatedCalls : List ProviderCall :=
  [beatingRegister "prod" "orders", beatingRegister "prod" "orders",
    quietDeregister "prod" "orders"]

def collidingCalls : List ProviderCall :=
  [beatingRegister "prod_eu" "orders", quietDeregister "prod" "eu_orders"]

/-- A second registration leaves the first task to run after the deregistration, and a
deregistration stops the task of an instance whose parts join to the same text. -/
theorem heartbeat_left_and_stopped :
    ((tasksOf (run step .new (repeatedCalls.take 2))
        ⟨"prod", "orders", "10.0.0.1", 80, ""⟩).length = 2 ∧
      (tasksOf (run step .new repeatedCalls)
        ⟨"prod", "orders", "10.0.0.1", 80, ""⟩).length = 1 ∧
      ¬ HeartbeatsOwned repeatedCalls) ∧
    ((tasksOf (run step .new (collidingCalls.take 1))
        ⟨"prod_eu", "orders", "10.0.0.1", 80, ""⟩).length = 1 ∧
      tasksOf (run step .new collidingCalls) ⟨"prod_eu", "orders", "10.0.0.1", 80, ""⟩ = [] ∧
      ¬ HeartbeatsOwned collidingCalls) := by
  refine ⟨⟨by decide, by decide, fun h => ?_⟩, ⟨by decide, by decide, fun h => ?_⟩⟩
  · have hsingle := h.single (repeatedCalls.take 2) (List.take_prefix 2 repeatedCalls)
      ⟨"prod", "orders", "10.0.0.1", 80, ""⟩
    revert hsingle
    decide
  · have hothers := h.others (collidingCalls.take 1) (quietDeregister "prod" "eu_orders")
      List.prefix_rfl ⟨"prod_eu", "orders", "10.0.0.1", 80, ""⟩ (by decide)
    have hsame := hothers.1
    revert hsame
    decide

end PoleClient.Discovery
