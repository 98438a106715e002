import PoleClient.Traffic.RuleDecision

/-! # What the lane router decides

The enabled lane rules of all groups are tried in a stable order of priorities.
The first whose traffic match accepts the request decides, with or without an
instance of its lane.
-/

namespace PoleClient

open Cache Lib

section LaneRouter

variable (library : RouterLibrary) (ctx : RoutingContext) (instances : ServiceInstances)

def Accepts (rule : LaneRule) : Prop :=
  ∃ trafficMatchRule, rule.trafficMatchRule = some trafficMatchRule ∧
    trafficMatchRuleMatch library.regex ctx.toRouteContext trafficMatchRule = true

def laneInstances (rule : LaneRule) : List Instance :=
  instances.instances.filter fun «instance» => «instance».isAvailable &&
    «instance».metadata (if rule.labelKey = "" then "lane" else rule.labelKey) ==
      some rule.defaultLabelValue

def laneDecision (rule : LaneRule) : ServiceInstances :=
  if laneInstances instances rule ≠ [] then .new instances.service (laneInstances instances rule)
  else
    match rule.matchMode with
    | .permissive => instances
    | .strict => .new instances.service []

variable {library ctx instances}

theorem firstLane_of_accepts {rule : LaneRule} (accepts : Accepts library ctx rule)
    (rules : List LaneRule) :
    firstLane library ctx instances (rule :: rules) = laneDecision instances rule := by
  obtain ⟨trafficMatchRule, hrule, hmatch⟩ := accepts
  have hkey : (if rule.labelKey.isEmpty then "lane" else rule.labelKey) =
      if rule.labelKey = "" then "lane" else rule.labelKey := by
    simp only [String.isEmpty_iff]
  have hfiltered : ((instances.instances.filter fun «instance» =>
      «instance».isAvailable).filter fun «instance» =>
        «instance».metadata (if rule.labelKey.isEmpty then "lane" else rule.labelKey) ==
          some rule.defaultLabelValue) = laneInstances instances rule := by
    rw [List.filter_filter, laneInstances, hkey]
    exact List.filter_congr fun ins _ => Bool.and_comm _ _
  rw [firstLane]
  simp only [hrule, hmatch, Bool.not_true, Bool.false_eq_true, if_false]
  rw [hfiltered, laneDecision]
  cases laneInstances instances rule with
  | nil => rfl
  | cons first rest => rfl

theorem firstLane_of_not_accepts {rule : LaneRule} (accepts : ¬ Accepts library ctx rule)
    (rules : List LaneRule) :
    firstLane library ctx instances (rule :: rules) = firstLane library ctx instances rules := by
  rw [firstLane]
  cases hrule : rule.trafficMatchRule with
  | none => rfl
  | some trafficMatchRule =>
      have hmatch :
          trafficMatchRuleMatch library.regex ctx.toRouteContext trafficMatchRule = false :=
        Bool.eq_false_iff.mpr fun h => accepts ⟨trafficMatchRule, hrule, h⟩
      simp only [hmatch, Bool.not_false, if_true]

theorem firstLane_append_of_not_accepts {before : List LaneRule}
    (h : ∀ other ∈ before, ¬ Accepts library ctx other) (rules : List LaneRule) :
    firstLane library ctx instances (before ++ rules) =
      firstLane library ctx instances rules := by
  induction before with
  | nil => rfl
  | cons other before ih =>
      rw [List.forall_mem_cons] at h
      rw [List.cons_append, firstLane_of_not_accepts h.1, ih h.2]

theorem firstLane_filter (rules : List LaneRule) :
    firstLane library ctx instances (rules.filter fun rule => rule.trafficMatchRule.isSome) =
      firstLane library ctx instances rules := by
  induction rules with
  | nil => rfl
  | cons rule rules ih =>
      cases hrule : rule.trafficMatchRule with
      | none =>
          rw [List.filter_cons_of_neg (by simp [hrule]), ih, firstLane_of_not_accepts]
          rintro ⟨trafficMatchRule, hsome, -⟩
          rw [hrule] at hsome
          cases hsome
      | some trafficMatchRule =>
          rw [List.filter_cons_of_pos (by simp [hrule])]
          by_cases accepts : Accepts library ctx rule
          · rw [firstLane_of_accepts accepts, firstLane_of_accepts accepts]
          · rw [firstLane_of_not_accepts accepts, firstLane_of_not_accepts accepts, ih]

def enabledRules (groups : List LaneGroup) : List LaneRule :=
  (groups.flatMap fun group => group.rules).filter fun rule => rule.enable

theorem filterInstancesByLaneGroups_eq {groups : List LaneGroup} {rules : List LaneRule}
    (stable : StablyOrdered (fun rule => rule.priority.toNat) (enabledRules groups) rules) :
    filterInstancesByLaneGroups library ctx instances groups =
      firstLane library ctx instances rules := by
  have hordered := (stablyOrdered_priority LaneRule.priority (enabledRules groups)).unique stable
  rw [← hordered]
  rfl

theorem LaneRouter.chooseInstances_eq {extensions : Extensions}
    (hextensions : ctx.extensions = some extensions) {answer : ServiceRule CachedRule}
    {groups : List LaneGroup}
    (hload : extensions.loadServiceRule 0 (serviceRuleKey ctx.routeInfo.callee .laneRule) =
      .ok answer)
    (hgroups : answer.rules = groups.map CachedRule.laneGroup) :
    LaneRouter.chooseInstances library ctx instances =
      .ok ⟨.next, filterInstancesByLaneGroups library ctx instances groups⟩ := by
  have hdowncast : ∀ group, CachedRule.downcastLaneGroup (.laneGroup group) = some group :=
    fun _ => rfl
  have hfetch : fetchLaneGroups library extensions ctx.routeInfo = .ok groups := by
    unfold fetchLaneGroups
    rw [hload]
    simp only [hgroups]
    exact downcastRules_map library "LaneGroup" hdowncast groups
  unfold LaneRouter.chooseInstances
  simp only [hextensions, hfetch, bind, Except.bind]
  cases groups with
  | nil => rfl
  | cons group groups => rfl

end LaneRouter

/-- The first enabled rule, in stable order of priority, whose traffic match accepts the request
decides alone. Without one nothing is filtered; and rules that are disabled or have no traffic match
could as well be left out. -/
theorem LaneRouter.lane_decides {library : RouterLibrary} {ctx : RoutingContext}
    {extensions : Extensions} (hextensions : ctx.extensions = some extensions)
    {answer : ServiceRule CachedRule} {groups : List LaneGroup}
    (hload : extensions.loadServiceRule 0 (serviceRuleKey ctx.routeInfo.callee .laneRule) =
      .ok answer)
    (hgroups : answer.rules = groups.map CachedRule.laneGroup) {rules : List LaneRule}
    (stable : StablyOrdered (fun rule => rule.priority.toNat) (enabledRules groups) rules)
    (instances : ServiceInstances) :
    (∀ before rule after, rules = before ++ rule :: after →
      (∀ other ∈ before, ¬ Accepts library ctx other) → Accepts library ctx rule →
      LaneRouter.chooseInstances library ctx instances =
        .ok ⟨.next, laneDecision instances rule⟩) ∧
    ((∀ rule ∈ rules, ¬ Accepts library ctx rule) →
      LaneRouter.chooseInstances library ctx instances = .ok ⟨.next, instances⟩) ∧
    ∀ others : List LaneGroup,
      (enabledRules others).filter (fun rule => rule.trafficMatchRule.isSome) =
        (enabledRules groups).filter (fun rule => rule.trafficMatchRule.isSome) →
      LaneRouter.chooseInstances library ctx instances =
        .ok ⟨.next, filterInstancesByLaneGroups library ctx instances others⟩ := by
  have hchoose := @LaneRouter.chooseInstances_eq library _ instances _ hextensions _ _ hload hgroups
  rw [filterInstancesByLaneGroups_eq stable] at hchoose
  refine ⟨?_, ?_, ?_⟩
  · intro before rule after hrules hbefore accepts
    rw [hchoose, hrules, firstLane_append_of_not_accepts hbefore, firstLane_of_accepts accepts]
  · intro hnone
    have hrest := @firstLane_append_of_not_accepts library ctx instances rules hnone []
    rw [List.append_nil] at hrest
    rw [hchoose, hrest]
    rfl
  · intro others hothers
    have hother := stablyOrdered_priority LaneRule.priority (enabledRules others)
    have hsame := hother.filter fun rule => rule.trafficMatchRule.isSome
    rw [hothers] at hsame
    rw [hchoose, filterInstancesByLaneGroups_eq hother, ← firstLane_filter,
      (stable.filter fun rule => rule.trafficMatchRule.isSome).unique hsame, firstLane_filter]

def laneRule (priority : UInt32) (lane : String) (matchMode : LaneMatchMode) : LaneRule :=
  ⟨true, priority, some ⟨[], .and, 100⟩, "", lane, matchMode⟩

def laneGroups : List LaneGroup :=
  [⟨[laneRule 2 "gray" .permissive]⟩, ⟨[laneRule 1 "blue" .strict]⟩]

def laneContext : RoutingContext where
  routeInfo := orderRequest
  extensions := some { orderExtensions with
    loadServiceRule := fun _ _ => .ok ⟨laneGroups.map CachedRule.laneGroup, "r1", true⟩ }

theorem laneGroups_decide :
    LaneRouter.chooseInstances orderLibrary laneContext orderInstances =
      .ok ⟨.next, .new orderInstances.service []⟩ := by
  have stable : StablyOrdered (fun rule => rule.priority.toNat) (enabledRules laneGroups)
      [laneRule 1 "blue" .strict, laneRule 2 "gray" .permissive] :=
    stablyOrdered_priority LaneRule.priority (enabledRules laneGroups)
  have hdecision := @LaneRouter.lane_decides orderLibrary laneContext _ rfl _ _ rfl rfl _ stable
    orderInstances
  exact hdecision.1 [] (laneRule 1 "blue" .strict) [laneRule 2 "gray" .permissive] rfl (by simp)
    ⟨⟨[], .and, 100⟩, rfl, rfl⟩

end PoleClient
