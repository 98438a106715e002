import PoleClient.Traffic.Routers

/-! # Routing only selects

Whatever the rules and the answers, a router leaves a part of its instances, in
their order, of the same service and with the sum of their weights. So does
every chain of routers.
-/

namespace PoleClient

/-! ## Selections -/

def weightSum (instances : List Instance) : Nat :=
  (instances.map fun ins => ins.weight.toNat).sum

/-- The total is the sum of the weights. -/
def ServiceInstances.Weighed (self : ServiceInstances) : Prop :=
  self.totalWeight = weightSum self.instances

/-- What is left of a list of instances. -/
structure Selects (input output : ServiceInstances) : Prop where
  sublist : output.instances.Sublist input.instances
  service : output.service = input.service
  weighed : output.Weighed

theorem Selects.refl {instances : ServiceInstances} (h : instances.Weighed) :
    Selects instances instances :=
  ⟨.refl _, rfl, h⟩

theorem Selects.trans {first second third : ServiceInstances} (h : Selects first second)
    (next : Selects second third) : Selects first third :=
  ⟨next.sublist.trans h.sublist, next.service.trans h.service, next.weighed⟩

theorem weightSum_le_of_sublist {some all : List Instance} (h : some.Sublist all) :
    weightSum some ≤ weightSum all := by
  unfold weightSum
  induction h with
  | slnil => exact Nat.le_refl _
  | cons ins _ ih =>
      rw [List.map_cons, List.sum_cons]
      omega
  | cons_cons ins _ ih =>
      rw [List.map_cons, List.map_cons, List.sum_cons, List.sum_cons]
      omega

theorem selects_new {instances : ServiceInstances} {ret : List Instance}
    (h : ret.Sublist instances.instances) : Selects instances (.new instances.service ret) :=
  ⟨h, rfl, rfl⟩

theorem selects_nothing (instances : ServiceInstances) :
    Selects instances ⟨instances.service, [], 0⟩ :=
  ⟨List.nil_sublist _, rfl, rfl⟩

/-! ## The collecting loop -/

theorem foldl_collect (keep : Nat → Instance → Bool) (instances ret : List Instance)
    (totalWeight : Nat) :
    ∃ kept : List Instance, kept.Sublist instances ∧
      instances.foldl (fun (ret, totalWeight) «instance» =>
        if keep totalWeight «instance» then
          (ret ++ [«instance»], totalWeight + «instance».weight.toNat)
        else (ret, totalWeight)) (ret, totalWeight) =
      (ret ++ kept, totalWeight + weightSum kept) := by
  induction instances generalizing ret totalWeight with
  | nil => exact ⟨[], .refl _, by simp [weightSum]⟩
  | cons ins instances ih =>
      rw [List.foldl_cons]
      by_cases hkeep : keep totalWeight ins = true
      · simp only [hkeep, if_true]
        rcases ih (ret ++ [ins]) (totalWeight + ins.weight.toNat) with ⟨kept, hkept, heq⟩
        refine ⟨ins :: kept, hkept.cons_cons ins, ?_⟩
        rw [heq, List.append_assoc, List.singleton_append, weightSum, weightSum, List.map_cons,
          List.sum_cons, Nat.add_assoc]
      · simp only [hkeep, if_false, Bool.false_eq_true]
        rcases ih ret totalWeight with ⟨kept, hkept, heq⟩
        exact ⟨kept, hkept.cons ins, heq⟩

theorem collect_spec (keep : Nat → Instance → Bool) (instances : List Instance) :
    ∃ kept : List Instance, kept.Sublist instances ∧
      collect keep instances = (kept, weightSum kept) := by
  rcases foldl_collect keep instances [] 0 with ⟨kept, hkept, heq⟩
  refine ⟨kept, hkept, ?_⟩
  unfold collect
  rw [heq, List.nil_append, Nat.zero_add]

/-- A test that does not look at the weights makes the loop a filter. -/
theorem collect_filter (keep : Instance → Bool) (instances : List Instance) :
    collect (fun _ => keep) instances =
      (instances.filter keep, weightSum (instances.filter keep)) := by
  have h : ∀ ret totalWeight, instances.foldl (fun (ret, totalWeight) «instance» =>
      if keep «instance» then (ret ++ [«instance»], totalWeight + «instance».weight.toNat)
      else (ret, totalWeight)) (ret, totalWeight) =
        (ret ++ instances.filter keep, totalWeight + weightSum (instances.filter keep)) := by
    induction instances with
    | nil => simp [weightSum]
    | cons ins instances ih =>
        intro ret totalWeight
        rw [List.foldl_cons]
        by_cases hkeep : keep ins = true
        · simp only [hkeep, if_true]
          rw [ih, List.filter_cons_of_pos hkeep]
          simp [weightSum, Nat.add_assoc]
        · simp only [hkeep, if_false, Bool.false_eq_true]
          rw [ih, List.filter_cons_of_neg hkeep]
  simpa [collect] using h [] 0

/-- What the loop collects from a part of the instances is a selection. -/
theorem selects_collected {instances : ServiceInstances} {part : List Instance}
    (keep : Nat → Instance → Bool) (h : part.Sublist instances.instances) :
    Selects instances (collected instances (collect keep part)) := by
  rcases collect_spec keep part with ⟨kept, hkept, heq⟩
  rw [heq]
  exact ⟨hkept.trans h, rfl, rfl⟩

/-! ## The routers -/

theorem matchCalleeGroup_sublist (library : RouterLibrary) (dest : DestinationGroup)
    (instances : ServiceInstances) (requestParameters : StringMap) :
    (matchCalleeGroup library dest instances requestParameters).Sublist instances.instances :=
  List.filter_sublist.trans List.filter_sublist

theorem firstFound_sublist {found rest all : List Instance} (hfound : found.Sublist all)
    (hrest : rest.Sublist all) : (if found.isEmpty then rest else found).Sublist all := by
  split
  · exact hrest
  · exact hfound

theorem firstGroup_sublist (library : RouterLibrary) (instances : ServiceInstances)
    (requestParameters : StringMap) (destination : List DestinationGroup) :
    (firstGroup library instances requestParameters destination).Sublist instances.instances := by
  induction destination with
  | nil => exact List.nil_sublist _
  | cons dest destination ih =>
      rw [firstGroup]
      exact firstFound_sublist (matchCalleeGroup_sublist ..) ih

theorem filterInstances_sublist (library : RouterLibrary) (ctx : RoutingContext)
    (instances : ServiceInstances) (rules : List CustomRouteRule) :
    (filterInstances library ctx instances rules).Sublist instances.instances := by
  induction rules with
  | nil => exact List.nil_sublist _
  | cons rule rules ih =>
      rw [filterInstances]
      by_cases hmatch : routeTrafficMatch library ctx rule = true
      · rw [hmatch, Bool.not_true, if_neg Bool.false_ne_true]
        exact firstFound_sublist (firstGroup_sublist ..) ih
      · rw [Bool.eq_false_iff.mpr hmatch, Bool.not_false, if_pos rfl]
        exact ih

section Routers

variable {library : RouterLibrary} {ctx : RoutingContext} {instances : ServiceInstances}
  {result : RouteResult}

theorem ruleStatus_sublist {extensions : Extensions} {status : RuleStatus × List Instance}
    (h : ruleStatus library ctx extensions instances = .ok status) :
    status.2.Sublist instances.instances := by
  unfold ruleStatus at h
  rcases succeeds_of_bind h with ⟨calleeRules, -, h⟩
  simp only at h
  by_cases hcallee : (!(filterInstances library ctx instances calleeRules).isEmpty) = true
  · rw [if_pos hcallee] at h
    cases h
    exact filterInstances_sublist ..
  · rw [if_neg hcallee] at h
    rcases succeeds_of_bind h with ⟨callerRules, -, h⟩
    split at h
    · cases h
      exact filterInstances_sublist ..
    · split at h
      · cases h
        exact List.nil_sublist _
      · split at h
        · cases h
          exact List.nil_sublist _
        · cases h
          exact List.nil_sublist _

theorem RuleRouter.selects {self : RuleRouter} (weighed : instances.Weighed)
    (h : self.chooseInstances library ctx instances = .ok result) :
    Selects instances result.instances := by
  unfold chooseInstances at h
  cases hextensions : ctx.extensions with
  | none =>
      rw [hextensions] at h
      cases h
  | some extensions =>
      rw [hextensions] at h
      rcases succeeds_of_bind h with ⟨⟨status, filteredIns⟩, hstatus, h⟩
      have hfiltered := ruleStatus_sublist hstatus
      cases status with
      | noRule =>
          cases h
          exact .refl weighed
      | destRuleSucc | sourceRuleSucc =>
          cases h
          exact selects_collected _ hfiltered
      | destRuleFail | sourceRuleFail =>
          simp only at h
          cases hpolicy : self.failoverPolicy with
          | all =>
              rw [hpolicy] at h
              cases h
              exact .refl weighed
          | none =>
              rw [hpolicy] at h
              cases h
              exact selects_nothing instances

theorem firstLane_selects (library : RouterLibrary) (ctx : RoutingContext)
    (weighed : instances.Weighed) (rules : List LaneRule) :
    Selects instances (firstLane library ctx instances rules) := by
  induction rules with
  | nil => exact .refl weighed
  | cons rule rules ih =>
      rw [firstLane]
      split
      · exact ih
      · rename_i trafficMatchRule _
        by_cases hmatch :
            trafficMatchRuleMatch library.regex ctx.toRouteContext trafficMatchRule = true
        · rw [hmatch, Bool.not_true, if_neg Bool.false_ne_true]
          generalize (if rule.labelKey.isEmpty then "lane" else rule.labelKey) = labelKey
          simp only
          split
          · exact selects_new (List.filter_sublist.trans List.filter_sublist)
          · split
            · exact .refl weighed
            · exact selects_new (List.nil_sublist _)
        · rw [Bool.eq_false_iff.mpr hmatch, Bool.not_false, if_pos rfl]
          exact ih

theorem LaneRouter.selects (weighed : instances.Weighed)
    (h : LaneRouter.chooseInstances library ctx instances = .ok result) :
    Selects instances result.instances := by
  unfold chooseInstances at h
  cases hextensions : ctx.extensions with
  | none =>
      rw [hextensions] at h
      cases h
      exact .refl weighed
  | some extensions =>
      rw [hextensions] at h
      rcases succeeds_of_bind h with ⟨laneGroups, -, h⟩
      split at h
      · cases h
        exact .refl weighed
      · cases h
        exact firstLane_selects library ctx weighed _

theorem MetadataRouter.selects
    (h : MetadataRouter.chooseInstances library ctx instances = .ok result) :
    Selects instances result.instances := by
  unfold chooseInstances at h
  simp only at h
  split at h
  · cases h
    exact selects_collected _ (.refl _)
  · split at h
    · cases h
      exact selects_collected _ (.refl _)
    · cases h
      exact selects_collected _ (.refl _)
    · cases h

theorem HealthRouter.selects (h : HealthRouter.chooseInstances ctx instances = .ok result) :
    Selects instances result.instances := by
  unfold chooseInstances at h
  cases hextensions : ctx.extensions with
  | none =>
      rw [hextensions] at h
      cases h
  | some extensions =>
      rw [hextensions] at h
      rcases succeeds_of_bind h with ⟨_, -, h⟩
      cases h
      exact selects_collected _ (.refl _)

namespace NearbyRouter

theorem selectInstances_selects (localLoc : Location) (level : String)
    (instances : ServiceInstances) :
    Selects instances (selectInstances localLoc level instances).1 :=
  selects_collected _ (.refl _)

theorem chooseLevel_selects (self : NearbyRouter) (location : Location) (levels : List Nat)
    {state final : String × Option ServiceInstances}
    (hstate : ∀ retIns, state.2 = some retIns → Selects instances retIns)
    (h : self.chooseLevel location instances levels state = .ok final) :
    ∀ retIns, final.2 = some retIns → Selects instances retIns := by
  induction levels generalizing state with
  | nil =>
      cases h
      exact hstate
  | cons i levels ih =>
      rw [chooseLevel] at h
      split at h
      · cases h
      · rename_i curMatchLevel _
        have htmp : ∀ retIns, some (selectInstances location curMatchLevel instances).1 =
            some retIns → Selects instances retIns := by
          intro retIns heq
          cases heq
          exact selectInstances_selects ..
        simp only at h
        split at h
        · exact @ih (curMatchLevel, state.2) hstate h
        · rcases succeeds_of_bind h with ⟨degrade, -, h⟩
          split at h
          · exact @ih (curMatchLevel, some _) htmp h
          · cases h
            exact htmp

theorem selects {self : NearbyRouter} (h : self.chooseInstances ctx instances = .ok result) :
    Selects instances result.instances := by
  unfold chooseInstances at h
  cases hextensions : ctx.extensions with
  | none =>
      rw [hextensions] at h
      cases h
  | some extensions =>
      rw [hextensions] at h
      simp only at h
      unfold chooseInstancesWithLocation at h
      simp only at h
      generalize (if self.matchLevel.isEmpty then "zone" else self.matchLevel) =
        minAvailableLevel at h
      split at h
      · split at h
        · split at h
          · cases h
          · cases h
            exact selectInstances_selects ..
        · rcases succeeds_of_bind h with ⟨⟨curLevel, retIns⟩, hlevel, h⟩
          have hnone : ∀ retIns, (none : Option ServiceInstances) = some retIns →
              Selects instances retIns := nofun
          have hret := chooseLevel_selects self _ _ hnone hlevel
          cases retIns with
          | none => cases h
          | some retIns =>
              cases h
              exact hret retIns rfl
      · cases h

end NearbyRouter

theorem ServiceRouter.selects {self : ServiceRouter} (weighed : instances.Weighed)
    (h : self.chooseInstances library ctx instances = .ok result) :
    Selects instances result.instances := by
  cases self with
  | rule router => exact RuleRouter.selects weighed h
  | lane => exact LaneRouter.selects weighed h
  | metadata => exact MetadataRouter.selects h
  | nearby router => exact NearbyRouter.selects h
  | health => exact HealthRouter.selects h

end Routers

/-! ## The chain -/

theorem runRouters_selects (library : RouterLibrary) (routeInfo : RoutingInfo)
    (extensions : Nat → Extensions) (number : Nat) (routers : List ServiceRouter)
    {instances result : ServiceInstances} (weighed : instances.Weighed)
    (h : runRouters library routeInfo extensions number routers instances = .ok result) :
    Selects instances result := by
  induction routers generalizing number instances with
  | nil =>
      cases h
      exact .refl weighed
  | cons ele routers ih =>
      rw [runRouters] at h
      rcases succeeds_of_bind h with ⟨ret, hret, h⟩
      have hfirst := ServiceRouter.selects weighed hret
      exact hfirst.trans (ih (number + 1) hfirst.weighed h)

/-- Routing only selects: a flow that succeeds, over any chain, leaves a part of the instances in
their order, of the same service, with the sum of their weights, which is not above the one it was
given. -/
theorem RouterFlow.chooseInstances_selects (library : RouterLibrary) (container : RouterContainer)
    (extensions : Nat → Extensions) (routeInfo : RoutingInfo) {instances result : ServiceInstances}
    (weighed : instances.totalWeight = weightSum instances.instances)
    (h : RouterFlow.chooseInstances library container extensions routeInfo instances =
      .ok result) :
    result.instances.Sublist instances.instances ∧ result.service = instances.service ∧
      result.totalWeight = weightSum result.instances ∧
      result.totalWeight ≤ instances.totalWeight := by
  rcases succeeds_of_bind h with ⟨before, hbefore, h⟩
  rcases succeeds_of_bind h with ⟨core, hcore, h⟩
  have hselects := runRouters_selects _ _ _ _ _ weighed hbefore
  have hcoreSelects := runRouters_selects _ _ _ _ _ hselects.weighed hcore
  have hafterSelects := runRouters_selects _ _ _ _ _ hcoreSelects.weighed h
  have hall := (hselects.trans hcoreSelects).trans hafterSelects
  refine ⟨hall.sublist, hall.service, hall.weighed, ?_⟩
  calc result.totalWeight
      = weightSum result.instances := hall.weighed
    _ ≤ weightSum instances.instances := weightSum_le_of_sublist hall.sublist
    _ = instances.totalWeight := weighed.symm

def orderInstance (id : String) (health : Bool) (weight : UInt32) : Instance :=
  ⟨id, "prod", "orders", "10.0.0.1", 8080, "", "", "", health, false, weight, 0, .empty, default,
    ""⟩

def orderInstances : ServiceInstances :=
  .new ⟨"", "prod", "orders", .empty, ""⟩
    [orderInstance "a" false 50, orderInstance "b" true 100, orderInstance "c" true 0]

def orderRule : CustomRouteRule := ⟨none, [⟨"*", "*", [], 0, false⟩]⟩

def orderPayload : List UInt8 := [10, 8, 18, 6, 10, 1, 42, 18, 1, 42]

/-- The decoded routes lead to all available instances; no bytes are no routes. -/
def orderLibrary : RouterLibrary where
  regex _ := none
  decodeCustomRoute payload :=
    if payload = orderPayload then .ok ⟨[orderRule]⟩
    else if payload = [] then .ok ⟨[]⟩
    else .error "invalid wire type"
  typeId _ := ""
  isEmpty _ := true

def orderRouters : RouterContainer where
  beforeRouters name := if name = "metadata" then some .metadata else none
  coreRouters name :=
    if name = "rule" then some (.rule ⟨.none⟩) else if name = "lane" then some .lane else none
  afterRouters name :=
    if name = "nearby" then some (.nearby ⟨false, "zone", "all", false, 100⟩)
    else if name = "health" then some .health else none

/-- One rule for the callee, none for anyone else. -/
def orderExtensions : Extensions where
  loadServiceRule _ key :=
    match key.eventType with
    | .governance .routerRule => .ok ⟨[.routeRule ⟨true, 0, some orderPayload⟩], "r1", true⟩
    | _ => .ok ⟨[], "r1", true⟩
  checkResource _ := .ok true
  getLocation := default

def orderRequest : RoutingInfo where
  caller := ⟨"prod", "web"⟩
  callee := ⟨"prod", "orders"⟩
  trafficLabelProvider _ _ := none
  chain := ⟨["metadata"], ["rule", "lane"], ["nearby", "health"]⟩
  metadata := []
  metadataFailover := .metadataFailoverAll

theorem orderRequest_selects :
    RouterFlow.chooseInstances orderLibrary orderRouters (fun _ => orderExtensions) orderRequest
        orderInstances = .ok ⟨orderInstances.service, [orderInstance "b" true 100], 100⟩ ∧
      [orderInstance "b" true 100].Sublist orderInstances.instances ∧
      100 = weightSum [orderInstance "b" true 100] ∧ 100 ≤ orderInstances.totalWeight := by
  have hchoose : RouterFlow.chooseInstances orderLibrary orderRouters (fun _ => orderExtensions)
      orderRequest orderInstances =
        .ok ⟨orderInstances.service, [orderInstance "b" true 100], 100⟩ := rfl
  rcases RouterFlow.chooseInstances_selects orderLibrary orderRouters _ orderRequest rfl hchoose
    with ⟨hsublist, -, hweight, hle⟩
  exact ⟨hchoose, hsublist, hweight, hle⟩

end PoleClient
