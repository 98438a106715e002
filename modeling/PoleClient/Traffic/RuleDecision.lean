import Mathlib.Data.List.Induction
import PoleClient.Lib.StableSort
import PoleClient.Traffic.RoutingSelection

/-! # What the rule router decides

The rules of the callee and then those of the caller are tried in a stable order
of priorities, and within a rule its destinations are. The first rule that hits
decides, and without one the failover policy does.
-/

namespace PoleClient

open Cache Lib

/-! ## Loaded rules -/

/-- What an outer rule carries: no custom rules without a payload, and else those it decodes to. -/
def Carries (library : RouterLibrary) (rule : RouteRule) (rules : List CustomRouteRule) : Prop :=
  (rule.routingConfig = none ∧ rules = []) ∨
    ∃ config route, rule.routingConfig = some config ∧
      library.decodeCustomRoute config = .ok route ∧ rules = route.rules

/-- The custom rules that a load brings: those of the enabled rules in the stable order of their
priorities. -/
structure Brings (library : RouterLibrary) (load : Except PoleError (ServiceRule CachedRule))
    (rules : List CustomRouteRule) : Prop where
  exists_ordered : ∃ (answer : ServiceRule CachedRule) (outer ordered : List RouteRule)
    (parts : List (List CustomRouteRule)), load = .ok answer ∧
      answer.rules = outer.map CachedRule.routeRule ∧
      StablyOrdered (fun rule => rule.priority.toNat) (outer.filter fun rule => rule.enable)
        ordered ∧
      List.Forall₂ (Carries library) ordered parts ∧ rules = parts.flatten

theorem downcastRules_map {α : Type} (library : RouterLibrary) (expected : String)
    {downcast : CachedRule → Option α} {wrap : α → CachedRule}
    (h : ∀ rule, downcast (wrap rule) = some rule) (rules : List α) :
    downcastRules library expected downcast (rules.map wrap) = .ok rules := by
  induction rules with
  | nil => rfl
  | cons rule rules ih =>
      unfold downcastRules at ih ⊢
      rw [List.map_cons, List.mapM_cons, ih]
      simp only [h]
      rfl

theorem stablyOrdered_priority {α : Type} (priority : α → UInt32) (rules : List α) :
    StablyOrdered (fun rule => (priority rule).toNat) rules
      (rules.insertionSort fun a b => priority a ≤ priority b) :=
  stablyOrdered_insertionSort (fun a b => priority a ≤ priority b)
    (fun _ _ => UInt32.le_iff_toNat_le) rules

theorem foldlM_decode {library : RouterLibrary} {ordered : List RouteRule}
    {parts : List (List CustomRouteRule)} (h : List.Forall₂ (Carries library) ordered parts)
    (routeRules : List CustomRouteRule) :
    ordered.foldlM (fun routeRules rule =>
      match rule.routingConfig with
      | none => Except.ok routeRules
      | some config =>
          match library.decodeCustomRoute config with
          | .error err =>
              .error (RouteFault.failed (.new .invalidRule
                ("decode custom route rule fail: " ++ err)))
          | .ok customRoute => .ok (routeRules ++ customRoute.rules)) routeRules =
      .ok (routeRules ++ parts.flatten) := by
  induction h generalizing routeRules with
  | nil => simp only [List.foldlM_nil, List.flatten_nil, List.append_nil]; rfl
  | cons hrule _ ih =>
      rw [List.foldlM_cons, List.flatten_cons, ← List.append_assoc]
      rcases hrule with ⟨hconfig, rfl⟩ | ⟨config, route, hconfig, hroute, rfl⟩
      · simp only [hconfig, List.append_nil]
        exact ih routeRules
      · simp only [hconfig, hroute]
        exact ih (routeRules ++ route.rules)

theorem decodeCustomRouteRules_eq {library : RouterLibrary} {outer ordered : List RouteRule}
    {parts : List (List CustomRouteRule)}
    (stable : StablyOrdered (fun rule => rule.priority.toNat)
      (outer.filter fun rule => rule.enable) ordered)
    (h : List.Forall₂ (Carries library) ordered parts) :
    decodeCustomRouteRules library outer = .ok parts.flatten := by
  have hordered : (outer.filter fun rule => rule.enable).insertionSort
      (fun left right => left.priority ≤ right.priority) = ordered :=
    (stablyOrdered_priority RouteRule.priority _).unique stable
  unfold decodeCustomRouteRules
  simp only [hordered]
  exact (foldlM_decode h []).trans rfl

theorem Brings.decoded {library : RouterLibrary}
    {load : Except PoleError (ServiceRule CachedRule)} {rules : List CustomRouteRule}
    (brings : Brings library load rules) :
    ∃ answer outer, load = .ok answer ∧
      downcastRules library "RouteRule" CachedRule.downcastRouteRule answer.rules = .ok outer ∧
      decodeCustomRouteRules library outer = .ok rules := by
  obtain ⟨answer, outer, ordered, parts, hload, houter, stable, hparts, rfl⟩ :=
    brings.exists_ordered
  refine ⟨answer, outer, hload, ?_, decodeCustomRouteRules_eq stable hparts⟩
  have hdowncast : ∀ rule, CachedRule.downcastRouteRule (.routeRule rule) = some rule :=
    fun _ => rfl
  rw [houter]
  exact downcastRules_map library "RouteRule" hdowncast outer

/-- Each side's rules, as the router asks for them. -/
structure Sides (library : RouterLibrary) (extensions : Extensions) (info : RoutingInfo)
    (calleeRules callerRules : List CustomRouteRule) : Prop where
  callee : Brings library
    (extensions.loadServiceRule 0 (serviceRuleKey info.callee .routerRule)) calleeRules
  caller : Brings library
    (extensions.loadServiceRule 1 (serviceRuleKey info.caller .routerRule)) callerRules

section Sides

variable {library : RouterLibrary} {extensions : Extensions} {info : RoutingInfo}
  {calleeRules callerRules : List CustomRouteRule}

theorem Sides.fetchRule_callee (sides : Sides library extensions info calleeRules callerRules) :
    fetchRule library extensions info .callee = .ok calleeRules := by
  obtain ⟨answer, outer, hload, houter, hrules⟩ := sides.callee.decoded
  simp only [fetchRule, hload, houter]
  exact hrules

theorem Sides.fetchRule_caller (sides : Sides library extensions info calleeRules callerRules) :
    fetchRule library extensions info .caller = .ok callerRules := by
  obtain ⟨answer, outer, hload, houter, hrules⟩ := sides.caller.decoded
  simp only [fetchRule, hload, houter]
  exact hrules

end Sides

/-! ## Hits -/

section Hits

variable (library : RouterLibrary) (ctx : RoutingContext) (instances : ServiceInstances)

/-- The conditions of a rule on the traffic: all its destinations are meant for the called service,
and the request has what the arguments ask for. -/
structure TrafficConditions (rule : CustomRouteRule) : Prop where
  callee : ∀ dest ∈ rule.destinations,
    (dest.service = ctx.routeInfo.callee.name ∨ dest.service = "*") ∧
      (dest.namespaceName = ctx.routeInfo.callee.namespaceName ∨ dest.namespaceName = "*")
  arguments : ∀ arguments, rule.arguments = some arguments →
    trafficMatchRuleMatch library.regex ctx.toRouteContext arguments = true

def captured (rule : CustomRouteRule) : StringMap :=
  match rule.arguments with
  | none => .empty
  | some arguments => trafficMatchRuleRequestParameters ctx.toRouteContext arguments

/-- A value without text that stands for the request's. -/
def IsParameter (ruleValue : MatchString) : Prop :=
  ruleValue.valueType.get = .parameter ∧ ruleValue.value = ""

/-- What a destination of the rule asks of one label of an instance. -/
def LabelHolds (rule : CustomRouteRule) («instance» : Instance) (label : String × MatchString) :
    Prop :=
  ∃ actual, «instance».metadata label.1 = some actual ∧
    (IsParameter label.2 → captured ctx rule label.1 = some actual) ∧
    (¬ IsParameter label.2 → matchLabelValue library.regex label.2 actual = true)

structure Serves (rule : CustomRouteRule) (dest : DestinationGroup) («instance» : Instance) :
    Prop where
  available : «instance».isAvailable = true
  service : dest.service = "*" ∨ dest.service = «instance».service
  namespaceName : dest.namespaceName = "*" ∨ dest.namespaceName = «instance».namespaceName
  labels : ∀ label ∈ dest.labels, LabelHolds library ctx rule «instance» label

open Classical in
noncomputable def served (rule : CustomRouteRule) (dest : DestinationGroup) : List Instance :=
  instances.instances.filter fun «instance» => Serves library ctx rule dest «instance»

/-- The rule decides unless an earlier one does. -/
structure Hit (rule : CustomRouteRule) : Prop where
  traffic : TrafficConditions library ctx rule
  destination : ∃ dest ∈ rule.destinations, dest.isolate = false ∧
    served library ctx instances rule dest ≠ []

variable {library ctx instances}

theorem routeTrafficMatch_iff (rule : CustomRouteRule) :
    routeTrafficMatch library ctx rule = true ↔ TrafficConditions library ctx rule := by
  have hcallee : matchCalleeCaller ctx.routeInfo rule = true ↔ ∀ dest ∈ rule.destinations,
      (dest.service = ctx.routeInfo.callee.name ∨ dest.service = "*") ∧
        (dest.namespaceName = ctx.routeInfo.callee.namespaceName ∨ dest.namespaceName = "*") := by
    simp [matchCalleeCaller, isMatchAll, wildcard]
  by_cases h : matchCalleeCaller ctx.routeInfo rule = true
  · have hmatch : routeTrafficMatch library ctx rule = true ↔
        ∀ arguments, rule.arguments = some arguments →
          trafficMatchRuleMatch library.regex ctx.toRouteContext arguments = true := by
      unfold routeTrafficMatch
      rw [h, Bool.not_true, if_neg Bool.false_ne_true]
      cases rule.arguments with
      | none => simp
      | some arguments => simp
    rw [hmatch]
    exact ⟨fun harguments => ⟨hcallee.mp h, harguments⟩, fun conditions => conditions.arguments⟩
  · have hmatch : routeTrafficMatch library ctx rule = false := by
      unfold routeTrafficMatch
      rw [Bool.eq_false_iff.mpr h, Bool.not_false, if_pos rfl]
    rw [hmatch]
    constructor
    · intro hfalse
      cases hfalse
    · intro conditions
      exact absurd (hcallee.mpr conditions.callee) h

theorem labelHolds_iff (rule : CustomRouteRule) («instance» : Instance)
    (label : String × MatchString) :
    (match «instance».metadata label.1 with
      | none => false
      | some actual =>
          if label.2.valueType.get = .parameter ∧ label.2.value.isEmpty then
            captured ctx rule label.1 == some actual
          else matchLabelValue library.regex label.2 actual) = true ↔
      LabelHolds library ctx rule «instance» label := by
  unfold LabelHolds
  cases «instance».metadata label.1 with
  | none => simp
  | some actual =>
      have hparameter : (label.2.valueType.get = .parameter ∧ label.2.value.isEmpty) ↔
          IsParameter label.2 := by simp [IsParameter]
      by_cases h : IsParameter label.2
      · have hif := hparameter.mpr h
        simp only [if_pos hif, beq_iff_eq, Option.some.injEq, exists_eq_left']
        simp [h]
      · have hif := fun hcode => h (hparameter.mp hcode)
        simp only [if_neg hif, Option.some.injEq, exists_eq_left']
        simp [h]

open Classical in
theorem matchCalleeGroup_eq_served (rule : CustomRouteRule) (dest : DestinationGroup) :
    matchCalleeGroup library dest instances (captured ctx rule) =
      served library ctx instances rule dest := by
  unfold matchCalleeGroup served
  rw [List.filter_filter]
  apply List.filter_congr
  intro ins _
  have hlabels : (dest.labels.all fun label =>
      match ins.metadata label.1 with
      | none => false
      | some actual =>
          if label.2.valueType.get = .parameter ∧ label.2.value.isEmpty then
            captured ctx rule label.1 == some actual
          else matchLabelValue library.regex label.2 actual) = true ↔
      ∀ label ∈ dest.labels, LabelHolds library ctx rule ins label := by
    rw [List.all_eq_true]
    exact forall₂_congr fun label _ => labelHolds_iff rule ins label
  rw [Bool.eq_iff_iff, decide_eq_true_iff, Bool.and_eq_true]
  by_cases hservice : dest.service ≠ "*" ∧ dest.service ≠ ins.service
  · rw [if_pos hservice]
    refine ⟨fun h => absurd h.1 Bool.false_ne_true, fun serves => ?_⟩
    rcases serves.service with h | h
    · exact absurd h hservice.1
    · exact absurd h hservice.2
  · rw [if_neg hservice]
    by_cases hnamespace : dest.namespaceName ≠ "*" ∧ dest.namespaceName ≠ ins.namespaceName
    · rw [if_pos hnamespace]
      refine ⟨fun h => absurd h.1 Bool.false_ne_true, fun serves => ?_⟩
      rcases serves.namespaceName with h | h
      · exact absurd h hnamespace.1
      · exact absurd h hnamespace.2
    · rw [if_neg hnamespace]
      constructor
      · intro h
        exact ⟨h.2, by tauto, by tauto, hlabels.mp h.1⟩
      · intro serves
        exact ⟨hlabels.mpr serves.labels, serves.available⟩

/-! ## The first hit -/

theorem firstGroup_eq_nil_iff (rule : CustomRouteRule) (destination : List DestinationGroup) :
    firstGroup library instances (captured ctx rule) destination = [] ↔
      ∀ dest ∈ destination, served library ctx instances rule dest = [] := by
  induction destination with
  | nil => simp [firstGroup]
  | cons dest destination ih =>
      rw [firstGroup, matchCalleeGroup_eq_served, List.forall_mem_cons]
      by_cases h : served library ctx instances rule dest = []
      · simp [h, ih]
      · simp [h]

theorem firstGroup_of_first {rule : CustomRouteRule} {before after : List DestinationGroup}
    {dest : DestinationGroup}
    (hbefore : ∀ other ∈ before, served library ctx instances rule other = [])
    (hdest : served library ctx instances rule dest ≠ []) :
    firstGroup library instances (captured ctx rule) (before ++ dest :: after) =
      served library ctx instances rule dest := by
  induction before with
  | nil =>
      rw [List.nil_append, firstGroup, matchCalleeGroup_eq_served]
      simp [hdest]
  | cons other before ih =>
      rw [List.forall_mem_cons] at hbefore
      rw [List.cons_append, firstGroup, matchCalleeGroup_eq_served, hbefore.1]
      exact ih hbefore.2

theorem mem_filterAvailableDestinations {dests : List DestinationGroup} {dest : DestinationGroup} :
    dest ∈ filterAvailableDestinations dests ↔ dest ∈ dests ∧ dest.isolate = false := by
  simp [filterAvailableDestinations]

theorem selected_eq_nil_iff {rule : CustomRouteRule}
    (traffic : TrafficConditions library ctx rule) :
    firstGroup library instances (captured ctx rule)
        (filterAvailableDestinations rule.destinations) = [] ↔
      ¬ Hit library ctx instances rule := by
  rw [firstGroup_eq_nil_iff]
  constructor
  · intro h hit
    obtain ⟨dest, hdest, hisolate, hserved⟩ := hit.destination
    exact hserved (h dest (mem_filterAvailableDestinations.mpr ⟨hdest, hisolate⟩))
  · intro h dest hdest
    obtain ⟨hdest, hisolate⟩ := mem_filterAvailableDestinations.mp hdest
    by_contra hserved
    exact h ⟨traffic, dest, hdest, hisolate, hserved⟩

theorem filterInstances_nil : filterInstances library ctx instances [] = [] := rfl

theorem filterInstances_of_hit {rule : CustomRouteRule} (hit : Hit library ctx instances rule)
    (rules : List CustomRouteRule) :
    filterInstances library ctx instances (rule :: rules) =
      firstGroup library instances (captured ctx rule)
        (filterAvailableDestinations rule.destinations) := by
  have hmatch := (routeTrafficMatch_iff rule).mpr hit.traffic
  have hselected := fun h => (selected_eq_nil_iff hit.traffic).mp h hit
  rw [filterInstances, hmatch, Bool.not_true, if_neg Bool.false_ne_true]
  exact if_neg (mt List.isEmpty_iff.mp hselected)

theorem filterInstances_of_not_hit {rule : CustomRouteRule}
    (hit : ¬ Hit library ctx instances rule) (rules : List CustomRouteRule) :
    filterInstances library ctx instances (rule :: rules) =
      filterInstances library ctx instances rules := by
  rw [filterInstances]
  by_cases htraffic : TrafficConditions library ctx rule
  · have hselected := (selected_eq_nil_iff htraffic).mpr hit
    rw [(routeTrafficMatch_iff rule).mpr htraffic, Bool.not_true, if_neg Bool.false_ne_true]
    exact if_pos (List.isEmpty_iff.mpr hselected)
  · have hmatch : routeTrafficMatch library ctx rule = false :=
      Bool.eq_false_iff.mpr fun h => htraffic ((routeTrafficMatch_iff rule).mp h)
    rw [hmatch, Bool.not_false, if_pos rfl]

theorem filterInstances_append_of_not_hit {before : List CustomRouteRule}
    (h : ∀ other ∈ before, ¬ Hit library ctx instances other) (rules : List CustomRouteRule) :
    filterInstances library ctx instances (before ++ rules) =
      filterInstances library ctx instances rules := by
  induction before with
  | nil => rfl
  | cons other before ih =>
      rw [List.forall_mem_cons] at h
      rw [List.cons_append, filterInstances_of_not_hit h.1, ih h.2]

theorem filterInstances_eq_nil_iff (rules : List CustomRouteRule) :
    filterInstances library ctx instances rules = [] ↔
      ∀ rule ∈ rules, ¬ Hit library ctx instances rule := by
  induction rules with
  | nil => simp [filterInstances]
  | cons rule rules ih =>
      rw [List.forall_mem_cons]
      by_cases hit : Hit library ctx instances rule
      · rw [filterInstances_of_hit hit, selected_eq_nil_iff hit.traffic]
        exact ⟨fun h => absurd hit h, fun h => absurd hit h.1⟩
      · rw [filterInstances_of_not_hit hit, ih]
        exact ⟨fun h => ⟨hit, h⟩, fun h => h.2⟩

/-- Rules in two parts: the second decides where the first has no hit. -/
theorem filterInstances_append (first second : List CustomRouteRule) :
    filterInstances library ctx instances (first ++ second) =
      if filterInstances library ctx instances first = [] then
        filterInstances library ctx instances second
      else filterInstances library ctx instances first := by
  induction first with
  | nil => simp [filterInstances]
  | cons rule first ih =>
      rw [List.cons_append]
      by_cases hit : Hit library ctx instances rule
      · have hne := fun h => (selected_eq_nil_iff hit.traffic).mp h hit
        rw [filterInstances_of_hit hit, filterInstances_of_hit hit, if_neg hne]
      · rw [filterInstances_of_not_hit hit, filterInstances_of_not_hit hit, ih]

end Hits

/-! ## The rule router -/

section RuleRouter

variable {self : RuleRouter} {library : RouterLibrary} {ctx : RoutingContext}
  {extensions : Extensions} {instances : ServiceInstances}
  {calleeRules callerRules : List CustomRouteRule}

/-- Both sides form one list of rules, that of the callee first. -/
theorem chooseInstances_eq (hextensions : ctx.extensions = some extensions)
    (sides : Sides library extensions ctx.routeInfo calleeRules callerRules) :
    self.chooseInstances library ctx instances =
      if filterInstances library ctx instances (calleeRules ++ callerRules) ≠ [] then
        .ok ⟨.next, .new instances.service
          (filterInstances library ctx instances (calleeRules ++ callerRules))⟩
      else if calleeRules ++ callerRules = [] then .ok ⟨.next, instances⟩
      else
        match self.failoverPolicy with
        | .all => .ok ⟨.next, instances⟩
        | .none => .ok ⟨.next, .new instances.service []⟩ := by
  have hstatus : ruleStatus library ctx extensions instances =
      .ok (if filterInstances library ctx instances calleeRules ≠ [] then
          (.destRuleSucc, filterInstances library ctx instances calleeRules)
        else if filterInstances library ctx instances callerRules ≠ [] then
          (.sourceRuleSucc, filterInstances library ctx instances callerRules)
        else if callerRules ≠ [] then (.sourceRuleFail, [])
        else if calleeRules ≠ [] then (.destRuleFail, [])
        else (.noRule, [])) := by
    unfold ruleStatus
    rw [sides.fetchRule_callee, sides.fetchRule_caller]
    simp only [bind, Except.bind, pure, Except.pure, Bool.not_eq_true', List.isEmpty_eq_false_iff]
    split
    · rfl
    · split
      · rfl
      · split
        · rfl
        · split
          · rfl
          · rfl
  unfold RuleRouter.chooseInstances
  simp only [hextensions, hstatus, bind, Except.bind, filterInstances_append]
  by_cases hcallee : filterInstances library ctx instances calleeRules = []
  · by_cases hcaller : filterInstances library ctx instances callerRules = []
    · by_cases hcallerRules : callerRules = []
      · by_cases hcalleeRules : calleeRules = []
        · simp [hcallerRules, hcalleeRules, filterInstances_nil, pure, Except.pure]
        · cases self.failoverPolicy with
          | all =>
              simp [hcallee, hcallerRules, hcalleeRules, filterInstances_nil, pure, Except.pure]
          | none =>
              simp [hcallee, hcallerRules, hcalleeRules, filterInstances_nil, pure, Except.pure,
                ServiceInstances.new]
      · cases self.failoverPolicy with
        | all => simp [hcallee, hcaller, hcallerRules, pure, Except.pure]
        | none => simp [hcallee, hcaller, hcallerRules, pure, Except.pure, ServiceInstances.new]
    · simp [hcallee, hcaller, pure, Except.pure, collect_filter, collected,
        ServiceInstances.new, weightSum]
  · simp [hcallee, pure, Except.pure, collect_filter, collected, ServiceInstances.new, weightSum]

/-- The destinations of a rule that hits, in stable order of priority, end in one that instances
serve after ones that none does. -/
theorem Hit.exists_first {rule : CustomRouteRule} (hit : Hit library ctx instances rule) :
    ∃ first dest rest,
      StablyOrdered (fun dest => dest.priority.toNat)
        (rule.destinations.filter fun dest => !dest.isolate) (first ++ dest :: rest) ∧
      (∀ other ∈ first, served library ctx instances rule other = []) ∧
      served library ctx instances rule dest ≠ [] ∧
      ∀ rules, filterInstances library ctx instances (rule :: rules) =
        served library ctx instances rule dest := by
  have stable := stablyOrdered_priority DestinationGroup.priority
    (rule.destinations.filter fun dest => !dest.isolate)
  change StablyOrdered _ _ (filterAvailableDestinations rule.destinations) at stable
  have hsome : ¬ ∀ dest ∈ filterAvailableDestinations rule.destinations,
      served library ctx instances rule dest = [] := by
    rw [← firstGroup_eq_nil_iff, selected_eq_nil_iff hit.traffic]
    exact not_not_intro hit
  have hsplit : ∀ l : List DestinationGroup,
      (¬ ∀ dest ∈ l, served library ctx instances rule dest = []) →
      ∃ first dest rest, l = first ++ dest :: rest ∧
        (∀ other ∈ first, served library ctx instances rule other = []) ∧
        served library ctx instances rule dest ≠ [] := by
    intro l
    induction l with
    | nil => exact fun h => absurd (by simp) h
    | cons dest l ih =>
        intro h
        by_cases hdest : served library ctx instances rule dest = []
        · rw [List.forall_mem_cons, not_and] at h
          obtain ⟨first, other, rest, rfl, hfirst, hother⟩ := ih (h hdest)
          exact ⟨dest :: first, other, rest, rfl, List.forall_mem_cons.mpr ⟨hdest, hfirst⟩, hother⟩
        · exact ⟨[], dest, l, rfl, by simp, hdest⟩
  obtain ⟨first, dest, rest, heq, hfirst, hdest⟩ := hsplit _ hsome
  refine ⟨first, dest, rest, heq ▸ stable, hfirst, hdest, ?_⟩
  intro rules
  rw [filterInstances_of_hit hit, heq, firstGroup_of_first hfirst hdest]

theorem exists_of_requestParameter {context : RouteContext} {rule : TrafficMatchRule}
    {key value : String}
    (h : trafficMatchRuleRequestParameters context rule key = some value) :
    ∃ sourceMatch ∈ rule.arguments, sourceMatch.key = key ∧
      (∃ ruleValue, sourceMatch.value = some ruleValue ∧ IsParameter ruleValue) ∧
      currentSourceValue context sourceMatch = some value := by
  unfold trafficMatchRuleRequestParameters at h
  -- the map that the loop has built before its last argument
  induction harguments : rule.arguments using List.reverseRecOn generalizing rule with
  | nil =>
      rw [harguments] at h
      cases h
  | append_singleton before sourceMatch ih =>
      rw [harguments, List.foldl_append, List.foldl_cons, List.foldl_nil] at h
      have hearlier := @ih { rule with arguments := before }
      by_cases hlast : sourceMatch.key = key ∧
          (∃ ruleValue, sourceMatch.value = some ruleValue ∧ IsParameter ruleValue) ∧
          currentSourceValue context sourceMatch = some value
      · exact ⟨sourceMatch, by simp, hlast⟩
      · obtain ⟨earlier, hmem, hfound⟩ := hearlier (by
          cases hvalue : sourceMatch.value with
          | none => simpa only [hvalue] using h
          | some ruleValue =>
              simp only [hvalue] at h
              split at h
              · exact h
              · rename_i hparameter
                have hempty : IsParameter ruleValue := by simpa [IsParameter] using hparameter
                cases hcurrent : currentSourceValue context sourceMatch with
                | none => simpa only [hcurrent] using h
                | some actual =>
                    simp only [hcurrent] at h
                    by_cases hkey : key = sourceMatch.key
                    · rw [hkey, Function.update_self] at h
                      exact absurd ⟨hkey.symm, ⟨ruleValue, hvalue, hempty⟩, hcurrent.trans h⟩ hlast
                    · rwa [Function.update_of_ne hkey] at h) rfl
        exact ⟨earlier, List.mem_append_left _ hmem, hfound⟩

/-- The first hit among the rules of the callee and then those of the caller decides, for the first
of its destinations that instances serve. Without a hit the failover policy does, unless there are
no rules; and a label that stands for a request value asks for what the same rule captures. -/
theorem RuleRouter.rules_decide (self : RuleRouter) (hextensions : ctx.extensions = some extensions)
    (sides : Sides library extensions ctx.routeInfo calleeRules callerRules)
    (instances : ServiceInstances) :
    (∀ before rule after, calleeRules ++ callerRules = before ++ rule :: after →
      (∀ other ∈ before, ¬ Hit library ctx instances other) → Hit library ctx instances rule →
      ∃ first dest rest,
        StablyOrdered (fun dest => dest.priority.toNat)
          (rule.destinations.filter fun dest => !dest.isolate) (first ++ dest :: rest) ∧
        (∀ other ∈ first, served library ctx instances rule other = []) ∧
        served library ctx instances rule dest ≠ [] ∧
        self.chooseInstances library ctx instances =
          .ok ⟨.next, .new instances.service (served library ctx instances rule dest)⟩) ∧
    ((∀ rule ∈ calleeRules ++ callerRules, ¬ Hit library ctx instances rule) →
      calleeRules ++ callerRules ≠ [] →
      self.chooseInstances library ctx instances =
        .ok ⟨.next,
          match self.failoverPolicy with
          | .all => instances
          | .none => .new instances.service []⟩) ∧
    (calleeRules ++ callerRules = [] →
      self.chooseInstances library ctx instances = .ok ⟨.next, instances⟩) ∧
    ∀ rule dest, ∀ ins ∈ served library ctx instances rule dest, ∀ label ∈ dest.labels,
      IsParameter label.2 → ∃ arguments, rule.arguments = some arguments ∧
        ∃ sourceMatch ∈ arguments.arguments, sourceMatch.key = label.1 ∧
          (∃ ruleValue, sourceMatch.value = some ruleValue ∧ IsParameter ruleValue) ∧
          ∃ actual, currentSourceValue ctx.toRouteContext sourceMatch = some actual ∧
            ins.metadata label.1 = some actual := by
  refine ⟨?_, ?_, ?_, ?_⟩
  · intro before rule after hrules hbefore hit
    obtain ⟨first, dest, rest, stable, hfirst, hdest, hfilter⟩ := hit.exists_first
    refine ⟨first, dest, rest, stable, hfirst, hdest, ?_⟩
    rw [chooseInstances_eq hextensions sides, hrules, filterInstances_append_of_not_hit hbefore,
      hfilter, if_pos hdest]
  · intro hnone hrules
    rw [chooseInstances_eq hextensions sides, (filterInstances_eq_nil_iff _).mpr hnone,
      if_neg (by simp), if_neg hrules]
    cases self.failoverPolicy with
    | all => rfl
    | none => rfl
  · intro hrules
    rw [chooseInstances_eq hextensions sides, hrules, filterInstances_nil]
    simp
  · intro rule dest ins hins label hlabel hparameter
    classical
    have serves : Serves library ctx rule dest ins := by
      simpa using (List.mem_filter.mp hins).2
    obtain ⟨actual, hactual, hcaptured, -⟩ := serves.labels label hlabel
    have hvalue := hcaptured hparameter
    unfold captured at hvalue
    cases harguments : rule.arguments with
    | none =>
        rw [harguments] at hvalue
        cases hvalue
    | some arguments =>
        rw [harguments] at hvalue
        obtain ⟨sourceMatch, hmem, hkey, hparameter, hcurrent⟩ := exists_of_requestParameter hvalue
        exact ⟨arguments, rfl, sourceMatch, hmem, hkey, hparameter, actual, hcurrent, hactual⟩

end RuleRouter

def orderContext : RoutingContext := ⟨orderRequest, some orderExtensions⟩

theorem orderRule_sides :
    Sides orderLibrary orderExtensions orderRequest [orderRule] [orderRule] := by
  have hbrings : Brings orderLibrary (.ok ⟨[.routeRule ⟨true, 0, some orderPayload⟩], "r1", true⟩)
      [orderRule] := by
    refine ⟨_, [⟨true, 0, some orderPayload⟩], [⟨true, 0, some orderPayload⟩], [[orderRule]], rfl, rfl, ?_, ?_, rfl⟩
    · exact ⟨.refl _, List.pairwise_singleton .., fun _ => rfl⟩
    · exact .cons (.inr ⟨orderPayload, _, rfl, rfl, rfl⟩) .nil
  exact ⟨hbrings, hbrings⟩

theorem orderRule_decides :
    RuleRouter.chooseInstances ⟨.none⟩ orderLibrary orderContext orderInstances =
      .ok ⟨.next, .new orderInstances.service [orderInstance "b" true 100]⟩ := by
  have hserved : ∀ dest ∈ orderRule.destinations,
      served orderLibrary orderContext orderInstances orderRule dest =
        [orderInstance "b" true 100] := by
    intro dest hdest
    rw [← matchCalleeGroup_eq_served, List.mem_singleton.mp hdest]
    rfl
  have hit : Hit orderLibrary orderContext orderInstances orderRule := by
    refine ⟨⟨by simp [orderRule], nofun⟩, ⟨"*", "*", [], 0, false⟩, by simp [orderRule], rfl, ?_⟩
    rw [hserved _ (by simp [orderRule])]
    simp
  have hdecision := RuleRouter.rules_decide ⟨.none⟩ (show orderContext.extensions = _ from rfl)
    orderRule_sides orderInstances
  obtain ⟨first, dest, rest, stable, -, -, hchoose⟩ :=
    hdecision.1 [] orderRule [orderRule] rfl (by simp) hit
  have hdest : dest ∈ orderRule.destinations :=
    List.mem_of_mem_filter (stable.perm.subset (by simp))
  rw [hchoose, hserved dest hdest]

end PoleClient
