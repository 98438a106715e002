import PoleClient.FaultDetect.Reload
import PoleClient.Lib.Latest

/-! # Probes and the events they come from

Rule and instance events that are applied one after the other. The plans and the
instances of a service meet under the key of their events, the plans and the
service that the instances name by its identity; a probe needs both.
-/

namespace PoleClient.FaultDetect

open Lib Cache

/-! ## Events one after the other -/

structure FaultDetectEvent where
  action : Action
  event : ServerEvent FaultDetectRule

namespace ProbeState

def stop (self : ProbeState) : ProbeState := { self with handles := [] }

def startTargets (self : ProbeState) (targets : List FaultDetectTarget) : ProbeState :=
  { self with handles := self.handles ++ tasksOf targets }

def reloadTargets (self : ProbeState) : ProbeState :=
  let targets := targetsOf self.plans self.instances
  if targets.isEmpty then self.stop else self.stop.startTargets targets

def applyEvent (self : ProbeState) (ev : FaultDetectEvent) : ProbeState :=
  match eventUpdate ev.action ev.event with
  | none => self
  | some update => (self.apply update).reloadTargets

@[simp] theorem reloadTargets_plans (self : ProbeState) :
    self.reloadTargets.plans = self.plans := by
  unfold reloadTargets
  simp only
  split <;> rfl

@[simp] theorem reloadTargets_instances (self : ProbeState) :
    self.reloadTargets.instances = self.instances := by
  unfold reloadTargets
  simp only
  split <;> rfl

theorem reloadTargets_handles (self : ProbeState) :
    self.reloadTargets.handles = tasksOf (targetsOf self.plans self.instances) := by
  unfold reloadTargets
  simp only
  cases targetsOf self.plans self.instances with
  | nil => rfl
  | cons target targets => rfl

end ProbeState

/-! ## An event alone among the threads -/

theorem advance_last (shared : ProbeState) (threads : List ReloadThread) (thread : ReloadThread) :
    reloadStep ⟨shared, threads ++ [thread]⟩ (.advance threads.length) =
      ⟨(reloadProgram shared thread ()).shared,
        threads ++ [(reloadProgram shared thread ()).thread]⟩ := by
  have hthread : (threads ++ [thread])[threads.length]? = some thread :=
    List.getElem?_concat_length
  refine (@Threads.moveStep_some _ _ _ _ reloadProgram ⟨shared, threads ++ [thread]⟩ _ thread
    hthread ()).trans ?_
  rw [List.set_append_right _ _ (Nat.le_refl _), Nat.sub_self, List.set_cons_zero]

/-- The steps of an event that no other thread takes a step between are the event as a whole. -/
theorem run_alone (s : ReloadState) (ev : FaultDetectEvent) :
    run reloadStep s (.call (.event ev.action ev.event) ::
        List.replicate 5 (.advance s.threads.length)) =
      ⟨s.shared.applyEvent ev, s.threads ++ [.finished]⟩ := by
  rcases s with ⟨shared, threads⟩
  have hbegun : reloadStep ⟨shared, threads⟩ (.call (.event ev.action ev.event)) =
      ⟨shared, threads ++ [(ReloadCall.event ev.action ev.event).thread]⟩ := rfl
  simp only [List.replicate, run_cons, run_nil, hbegun, advance_last]
  cases hupdate : eventUpdate ev.action ev.event with
  | none =>
      have hthread : (ReloadCall.event ev.action ev.event).thread = .finished := by
        simp [ReloadCall.thread, ReloadCall.updates, hupdate]
      have happly : shared.applyEvent ev = shared := by
        simp [ProbeState.applyEvent, hupdate]
      rw [hthread, happly]
      rfl
  | some update =>
      have hthread : (ReloadCall.event ev.action ev.event).thread = .updating [update] := by
        simp [ReloadCall.thread, ReloadCall.updates, hupdate, remaining]
      have happly : shared.applyEvent ev = (shared.apply update).reloadTargets := by
        simp [ProbeState.applyEvent, hupdate]
      rw [hthread, happly]
      simp only [remaining, reloadProgram]
      unfold ProbeState.reloadTargets
      simp only
      cases targetsOf (shared.apply update).plans (shared.apply update).instances with
      | nil => rfl
      | cons target targets => rfl

/-! ## What the events leave in the maps -/

def ruleWrite (ev : FaultDetectEvent) : Option (String × Option (List FaultDetectRule)) :=
  match ev.event.value with
  | .governance .faultDetectRule item =>
      some (faultDetectServiceKey ev.event, if ev.action = .delete then none else some item.value)
  | _ => none

def instanceWrite (ev : FaultDetectEvent) : Option (String × Option ServiceInstancesCacheItem) :=
  match ev.event.value with
  | .«instance» item =>
      some (faultDetectServiceKey ev.event, if ev.action = .delete then none else some item)
  | _ => none

theorem applyEvent_plans (self : ProbeState) (ev : FaultDetectEvent) :
    (self.applyEvent ev).plans = self.plans.store buildFaultDetectPlans ruleWrite ev := by
  rcases ev with ⟨action, key, value⟩
  unfold ProbeState.applyEvent eventUpdate Table.store ruleWrite
  cases value with
  | governance type item =>
      cases type <;> cases action <;> first | rfl | exact ProbeState.reloadTargets_plans _
  | «instance» item => cases action <;> exact ProbeState.reloadTargets_plans _
  | _ => cases action <;> rfl

theorem applyEvent_instances (self : ProbeState) (ev : FaultDetectEvent) :
    (self.applyEvent ev).instances = self.instances.store snapshotOf instanceWrite ev := by
  rcases ev with ⟨action, key, value⟩
  unfold ProbeState.applyEvent eventUpdate Table.store instanceWrite
  cases value with
  | governance type item =>
      cases type <;> cases action <;> first | rfl | exact ProbeState.reloadTargets_instances _
  | «instance» item => cases action <;> exact ProbeState.reloadTargets_instances _
  | _ => cases action <;> rfl

theorem run_plans (self : ProbeState) (events : List FaultDetectEvent) :
    (run ProbeState.applyEvent self events).plans =
      run (Table.store buildFaultDetectPlans ruleWrite) self.plans events :=
  run_part applyEvent_plans self events

theorem run_instances (self : ProbeState) (events : List FaultDetectEvent) :
    (run ProbeState.applyEvent self events).instances =
      run (Table.store snapshotOf instanceWrite) self.instances events :=
  run_part applyEvent_instances self events

/-! ## Probes -/

def probes (self : ProbeState) : List (String × ProbeTask) :=
  self.instances.rows.flatMap fun entry =>
    (tasksOf (buildFaultDetectTargets entry.2 ((self.plans.lookup entry.1).getD []))).map
      fun task => (entry.1, task)

theorem map_probes (self : ProbeState) :
    (probes self).map Prod.snd = tasksOf (targetsOf self.plans self.instances) := by
  unfold probes targetsOf tasksOf
  rw [List.map_flatMap, List.flatMap_assoc]
  apply List.flatMap_congr
  intro entry _
  rw [List.map_map]
  exact List.map_id _

def Probing (self : ProbeState) : Prop :=
  self.handles = (probes self).map Prod.snd

theorem probing_step (self : ProbeState) (ev : FaultDetectEvent) (probing : Probing self) :
    Probing (self.applyEvent ev) := by
  unfold ProbeState.applyEvent
  cases eventUpdate ev.action ev.event with
  | none => exact probing
  | some update =>
      unfold Probing
      rw [map_probes]
      simp [ProbeState.reloadTargets_handles]

/-- What a probe needs of the rules and of the instances. -/
structure Justifies (rules : List FaultDetectRule) (item : ServiceInstancesCacheItem)
    (task : ProbeTask) : Prop where
  plan : task.plan ∈ buildFaultDetectPlans rules
  namespaceName : task.plan.namespaceName = item.getServiceInfo.namespaceName
  service : task.plan.service = item.getServiceInfo.name
  host : ∃ ins ∈ item.listInstances false, ins.isAvailable = true ∧ ins.ip = task.host

theorem mem_tasksOf_available {plans : List FaultDetectPlan} {instances : List Instance}
    {task : ProbeTask} :
    task ∈ tasksOf ((instances.filter Instance.isAvailable).map fun ins => ⟨ins.ip, plans⟩) ↔
      task.plan ∈ plans ∧ ∃ ins ∈ instances, ins.isAvailable = true ∧ ins.ip = task.host := by
  unfold tasksOf
  rw [List.flatMap_map, List.mem_flatMap]
  constructor
  · rintro ⟨ins, hins, htask⟩
    rcases List.mem_map.mp htask with ⟨plan, hplan, rfl⟩
    rcases List.mem_filter.mp hins with ⟨hall, havailable⟩
    exact ⟨hplan, ins, hall, havailable, rfl⟩
  · rintro ⟨hplan, ins, hall, havailable, hhost⟩
    refine ⟨ins, List.mem_filter.mpr ⟨hall, havailable⟩, ?_⟩
    exact List.mem_map.mpr ⟨task.plan, hplan, by rw [hhost]⟩

theorem mem_tasks_iff {plans : List FaultDetectPlan} {instances : ServiceInstances}
    {task : ProbeTask} :
    task ∈ tasksOf (buildFaultDetectTargets instances plans) ↔
      task.plan ∈ plans ∧ task.plan.namespaceName = instances.service.namespaceName ∧
        task.plan.service = instances.service.name ∧
        ∃ ins ∈ instances.instances, ins.isAvailable = true ∧ ins.ip = task.host := by
  unfold buildFaultDetectTargets
  simp only
  generalize hmatching : plans.filter (fun plan =>
    plan.namespaceName = instances.service.namespaceName &&
      plan.service = instances.service.name) = matchingPlans
  have hmem : task.plan ∈ matchingPlans ↔ task.plan ∈ plans ∧
      task.plan.namespaceName = instances.service.namespaceName ∧
        task.plan.service = instances.service.name := by
    rw [← hmatching]
    simp
  split
  · rename_i hempty
    have hnot : task.plan ∉ matchingPlans := by
      rw [List.isEmpty_iff.mp hempty]
      exact List.not_mem_nil
    constructor
    · exact fun h => absurd h List.not_mem_nil
    · rintro ⟨hplan, hnamespace, hservice, -⟩
      exact absurd (hmem.mpr ⟨hplan, hnamespace, hservice⟩) hnot
  · rw [mem_tasksOf_available, hmem, and_assoc, and_assoc]

theorem mem_probes_iff {self : ProbeState} {key : String} {task : ProbeTask} :
    (key, task) ∈ probes self ↔ ∃ instances, self.instances.lookup key = some instances ∧
      task ∈ tasksOf (buildFaultDetectTargets instances ((self.plans.lookup key).getD [])) := by
  unfold probes
  rw [List.mem_flatMap]
  constructor
  · rintro ⟨⟨place, instances⟩, hentry, htask⟩
    rcases List.mem_map.mp htask with ⟨other, hother, heq⟩
    cases heq
    exact ⟨instances, AList.lookup_eq_some_iff.mpr hentry, hother⟩
  · rintro ⟨instances, hlookup, htask⟩
    exact ⟨(key, instances), AList.lookup_eq_some_iff.mp hlookup,
      List.mem_map.mpr ⟨task, htask, rfl⟩⟩

/-- A probe runs under a key for the latest rules and the latest instances there. -/
theorem mem_probes_run_iff {events : List FaultDetectEvent} {key : String} {task : ProbeTask} :
    (key, task) ∈ probes (run ProbeState.applyEvent .new events) ↔
      ∃ rules item, Latest ruleWrite events key (some rules) ∧
        Latest instanceWrite events key (some item) ∧ Justifies rules item task := by
  rw [mem_probes_iff, run_plans, run_instances]
  constructor
  · rintro ⟨instances, hlookup, htask⟩
    rcases mem_tasks_iff.mp htask with ⟨hplan, hnamespace, hservice, hhost⟩
    rcases Table.exists_latest snapshotOf instanceWrite hlookup with ⟨item, hitem, rfl⟩
    cases hrules : (run (Table.store buildFaultDetectPlans ruleWrite) ProbeState.new.plans
        events).lookup key with
    | none =>
        rw [hrules] at hplan
        exact absurd hplan List.not_mem_nil
    | some plans =>
        rw [hrules] at hplan
        rcases Table.exists_latest buildFaultDetectPlans ruleWrite hrules with
          ⟨rules, hlatest, rfl⟩
        exact ⟨rules, item, hlatest, hitem, hplan, hnamespace, hservice, hhost⟩
  · rintro ⟨rules, item, hrules, hitem, hplan, hnamespace, hservice, hhost⟩
    rw [Table.lookup_of_latest buildFaultDetectPlans ruleWrite hrules]
    refine ⟨snapshotOf item, Table.lookup_of_latest snapshotOf instanceWrite hitem _, ?_⟩
    exact mem_tasks_iff.mpr ⟨hplan, hnamespace, hservice, hhost⟩

theorem no_probe_of_deletion {events : List FaultDetectEvent} {key : String}
    (deleted : Latest ruleWrite events key none ∨ Latest instanceWrite events key none)
    (task : ProbeTask) : (key, task) ∉ probes (run ProbeState.applyEvent .new events) := by
  intro hprobe
  rw [mem_probes_iff, run_plans, run_instances] at hprobe
  rcases hprobe with ⟨instances, hlookup, htask⟩
  rcases deleted with hrules | hitem
  · rw [Table.lookup_of_latest buildFaultDetectPlans ruleWrite hrules] at htask
    exact absurd (mem_tasks_iff.mp htask).1 List.not_mem_nil
  · rw [Table.lookup_of_latest snapshotOf instanceWrite hitem] at hlookup
    cases hlookup

/-- After events one after the other the running tasks are probes, each under a key, where the
latest rules and the latest instances, neither deleted, justify it. -/
theorem probes_justified (events : List FaultDetectEvent) :
    (run ProbeState.applyEvent .new events).handles =
        (probes (run ProbeState.applyEvent .new events)).map Prod.snd ∧
      (∀ key task, (key, task) ∈ probes (run ProbeState.applyEvent .new events) ↔
        ∃ rules item, Latest ruleWrite events key (some rules) ∧
          Latest instanceWrite events key (some item) ∧ Justifies rules item task) ∧
      ∀ key, Latest ruleWrite events key none ∨ Latest instanceWrite events key none →
        ∀ task, (key, task) ∉ probes (run ProbeState.applyEvent .new events) :=
  ⟨run_preserves Probing probing_step events rfl, fun _ _ => mem_probes_run_iff,
    fun _ deleted => no_probe_of_deletion deleted⟩

end PoleClient.FaultDetect
