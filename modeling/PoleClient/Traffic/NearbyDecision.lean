import PoleClient.Traffic.RoutingSelection

/-! # What the nearby router decides

From the least level on, the router takes the first one whose instances are
there and healthy enough. Where all are degraded the widest one with instances
is taken, and where there are no instances at all it fails.
-/

namespace PoleClient.NearbyRouter

/-! ## One level -/

/-- The instance is as near as the level asks; what the client does not know of itself is near to
everything. -/
def near (location : Location) (level : String) (ins : Instance) : Bool :=
  if level = "campus" then location.campus = "" || ins.location.campus = location.campus
  else if level = "zone" then location.zone = "" || ins.location.zone = location.zone
  else if level = "region" then location.region = "" || ins.location.region = location.region
  else true

def selection (location : Location) (level : String) (instances : ServiceInstances) :
    List Instance :=
  instances.instances.filter (near location level)

def healthyCount (list : List Instance) : Nat := list.countP fun ins => ins.health

/-- The percentage of unhealthy instances, rounded down, reaches the bound. -/
def Degraded (self : NearbyRouter) (level : String) (list : List Instance) : Prop :=
  self.enableDegradeUnhealthyPercent = true ∧ level ≠ "all" ∧
    self.unhealthyPercentToDegrade.toNat ≤ (list.length - healthyCount list) * 100 / list.length

instance (self : NearbyRouter) (level : String) (list : List Instance) :
    Decidable (self.Degraded level list) := by
  unfold Degraded
  infer_instance

theorem selectInstances_eq (location : Location) (level : String) (instances : ServiceInstances) :
    selectInstances location level instances =
      (.new instances.service (selection location level instances),
        .ofNat (healthyCount (selection location level instances))) := by
  unfold selectInstances
  rw [collect_filter]
  rfl

/-- The 32-bit arithmetic is exact: neither number is cut, the difference does not go below zero,
its hundredfold fits, and it is divided by zero only without instances. -/
structure Exact (list : List Instance) : Prop where
  len : (UInt32.ofNat list.length).toNat = list.length
  healthy : (UInt32.ofNat (healthyCount list)).toNat = healthyCount list
  difference : healthyCount list ≤ list.length
  hundredfold : (list.length - healthyCount list) * 100 < 2 ^ 32
  divisor : list ≠ [] → UInt32.ofNat list.length ≠ 0

theorem exact_of_short {list : List Instance} (short : list.length * 100 < 2 ^ 32) :
    Exact list := by
  have hle : healthyCount list ≤ list.length := List.countP_le_length
  have hsize : UInt32.size = 2 ^ 32 := rfl
  have hlen : (UInt32.ofNat list.length).toNat = list.length :=
    UInt32.toNat_ofNat_of_lt' (by omega)
  have hhealthy : (UInt32.ofNat (healthyCount list)).toNat = healthyCount list :=
    UInt32.toNat_ofNat_of_lt' (by omega)
  refine ⟨hlen, hhealthy, hle, by omega, ?_⟩
  intro hne hzero
  rw [hzero] at hlen
  exact hne (List.length_eq_zero_iff.mp hlen.symm)

theorem shouldDegrade_eq (self : NearbyRouter) (level : String) (service : ServiceInfo)
    {list : List Instance} (exact : Exact list) (hne : list ≠ []) :
    self.shouldDegrade level (.new service list) (.ofNat (healthyCount list)) =
      .ok (decide (self.Degraded level list)) := by
  have hempty : list.isEmpty = false := by simpa using hne
  have hunhealthy : (UInt32.ofNat list.length - UInt32.ofNat (healthyCount list)).toNat =
      list.length - healthyCount list := by
    have hle : UInt32.ofNat (healthyCount list) ≤ UInt32.ofNat list.length := by
      rw [UInt32.le_iff_toNat_le, exact.healthy, exact.len]
      exact exact.difference
    rw [UInt32.toNat_sub_of_le _ _ hle, exact.len, exact.healthy]
  have hpercent : ((UInt32.ofNat list.length - UInt32.ofNat (healthyCount list)) * 100 /
      UInt32.ofNat list.length).toNat = (list.length - healthyCount list) * 100 / list.length := by
    have hhundred : (100 : UInt32).toNat = 100 := rfl
    rw [UInt32.toNat_div, UInt32.toNat_mul, hunhealthy, hhundred,
      Nat.mod_eq_of_lt exact.hundredfold, exact.len]
  have hbound : (UInt32.ofNat list.length - UInt32.ofNat (healthyCount list)) * 100 /
      UInt32.ofNat list.length ≥ self.unhealthyPercentToDegrade.toUInt32 ↔
      self.unhealthyPercentToDegrade.toNat ≤
        (list.length - healthyCount list) * 100 / list.length := by
    rw [ge_iff_le, UInt32.le_iff_toNat_le, hpercent, UInt16.toNat_toUInt32]
  unfold shouldDegrade
  by_cases hwide : (!self.enableDegradeUnhealthyPercent || level == "all") = true
  · rw [if_pos hwide]
    rw [Bool.or_eq_true, Bool.not_eq_true', beq_iff_eq] at hwide
    have hnot : ¬ self.Degraded level list := by
      rintro ⟨henable, hlevel, -⟩
      rcases hwide with hdisabled | hall
      · rw [hdisabled] at henable
        cases henable
      · exact hlevel hall
    rw [decide_eq_false hnot]
  · rw [if_neg hwide]
    rw [Bool.or_eq_true, Bool.not_eq_true', beq_iff_eq, not_or, Bool.not_eq_false] at hwide
    have hdegraded : self.Degraded level list ↔ self.unhealthyPercentToDegrade.toNat ≤
        (list.length - healthyCount list) * 100 / list.length :=
      ⟨fun h => h.2.2, fun h => ⟨hwide.1, hwide.2, h⟩⟩
    simp only [ServiceInstances.new, hempty, Bool.false_eq_true, if_false,
      if_neg (exact.divisor hne), hbound, hdegraded]

/-! ## The walk over the levels -/

section Walk

variable (self : NearbyRouter) (location : Location) (instances : ServiceInstances)

/-- The instances of the level are too unhealthy. -/
def TooSick (level : String) : Prop :=
  self.Degraded level (selection location level instances)

/-- The list that the walk ends with, from the one it holds. -/
def walk : List String → Option (List Instance) → Option (List Instance)
  | [], held => held
  | level :: levels, held =>
      if selection location level instances = [] then walk levels held
      else if self.Degraded level (selection location level instances) then
        walk levels (some (selection location level instances))
      else some (selection location level instances)

variable {self location instances}

theorem chooseLevel_eq (short : instances.instances.length * 100 < 2 ^ 32) {ords : List Nat}
    {names : List String} (hnames : ords.map orderMatchLevel = names.map some) (curLevel : String)
    (held : Option (List Instance)) :
    ∃ lastLevel, self.chooseLevel location instances ords
        (curLevel, held.map (ServiceInstances.new instances.service)) =
      .ok (lastLevel, (walk self location instances names held).map
        (ServiceInstances.new instances.service)) := by
  induction ords generalizing names curLevel held with
  | nil =>
      obtain rfl := List.map_eq_nil_iff.mp hnames.symm
      exact ⟨curLevel, rfl⟩
  | cons ord ords ih =>
      cases names with
      | nil => cases hnames
      | cons level names =>
          obtain ⟨hord, hnames⟩ := List.cons.inj hnames
          have hle : (selection location level instances).length ≤ instances.instances.length :=
            List.length_filter_le ..
          have hexact : Exact (selection location level instances) :=
            exact_of_short (by omega)
          rw [chooseLevel, walk]
          simp only [hord, selectInstances_eq]
          by_cases hempty : selection location level instances = []
          · simp only [hempty, if_true]
            exact ih hnames level held
          · have hisEmpty : (ServiceInstances.new instances.service
                (selection location level instances)).instances.isEmpty = false := by
              simpa [ServiceInstances.new] using hempty
            simp only [hisEmpty, Bool.false_eq_true, if_false, if_neg hempty,
              shouldDegrade_eq self level instances.service hexact hempty]
            by_cases hdegraded : self.Degraded level (selection location level instances)
            · simp only [hdegraded, decide_true, if_true]
              exact ih hnames level (some (selection location level instances))
            · simp only [hdegraded, decide_false, if_false]
              exact ⟨level, rfl⟩

theorem walk_append_of_passed {before : List String}
    (passed : ∀ level ∈ before, selection location level instances = [] ∨
      TooSick self location instances level) (levels : List String)
    (held : Option (List Instance)) :
    ∃ held', walk self location instances (before ++ levels) held =
      walk self location instances levels held' := by
  induction before generalizing held with
  | nil => exact ⟨held, rfl⟩
  | cons level before ih =>
      rw [List.forall_mem_cons] at passed
      rw [List.cons_append, walk]
      by_cases hempty : selection location level instances = []
      · rw [if_pos hempty]
        exact ih passed.2 held
      · have hsick : self.Degraded level (selection location level instances) :=
          passed.1.resolve_left hempty
        rw [if_neg hempty, if_pos hsick]
        exact ih passed.2 _

theorem walk_of_empty {levels : List String}
    (empty : ∀ level ∈ levels, selection location level instances = [])
    (held : Option (List Instance)) : walk self location instances levels held = held := by
  induction levels with
  | nil => rfl
  | cons level levels ih =>
      rw [List.forall_mem_cons] at empty
      rw [walk, if_pos empty.1, ih empty.2]

theorem walk_isSome (levels : List String) {held : Option (List Instance)}
    (h : held.isSome = true) : (walk self location instances levels held).isSome = true := by
  induction levels generalizing held with
  | nil => exact h
  | cons level levels ih =>
      rw [walk]
      split
      · exact ih h
      · split
        · exact ih rfl
        · rfl

theorem walk_eq_none_iff (levels : List String) :
    walk self location instances levels none = none ↔
      ∀ level ∈ levels, selection location level instances = [] := by
  constructor
  · intro h
    induction levels with
    | nil => simp
    | cons level levels ih =>
        rw [walk] at h
        by_cases hempty : selection location level instances = []
        · rw [if_pos hempty] at h
          exact List.forall_mem_cons.mpr ⟨hempty, ih h⟩
        · rw [if_neg hempty] at h
          split at h
          · have hsome := @walk_isSome self location instances levels
              (some (selection location level instances)) rfl
            rw [h] at hsome
            cases hsome
          · cases h
  · exact fun empty => walk_of_empty empty none

theorem walk_of_healthy {before after : List String} {level : String}
    (passed : ∀ other ∈ before, selection location other instances = [] ∨
      TooSick self location instances other)
    (found : selection location level instances ≠ [])
    (healthy : ¬ TooSick self location instances level) (held : Option (List Instance)) :
    walk self location instances (before ++ level :: after) held =
      some (selection location level instances) := by
  obtain ⟨held', heq⟩ := walk_append_of_passed passed (level :: after) held
  have hhealthy : ¬ self.Degraded level (selection location level instances) := healthy
  rw [heq, walk, if_neg found, if_neg hhealthy]

theorem walk_of_widest {before after : List String} {level : String}
    (passed : ∀ other ∈ before ++ level :: after, selection location other instances = [] ∨
      TooSick self location instances other)
    (found : selection location level instances ≠ [])
    (widest : ∀ other ∈ after, selection location other instances = [])
    (held : Option (List Instance)) :
    walk self location instances (before ++ level :: after) held =
      some (selection location level instances) := by
  obtain ⟨held', heq⟩ := walk_append_of_passed
    (fun other hother => passed other (List.mem_append_left _ hother)) (level :: after) held
  have hsick : self.Degraded level (selection location level instances) :=
    (passed level (by simp)).resolve_left found
  rw [heq, walk, if_neg found, if_pos hsick, walk_of_empty widest]

/-- The only level is taken whether it is healthy or not. -/
theorem walk_singleton (level : String) :
    walk self location instances [level] none =
      if selection location level instances = [] then none
      else some (selection location level instances) := by
  rw [walk]
  split
  · rfl
  · split
    · rfl
    · rfl

end Walk

/-! ## The decision -/

def levels : List String := ["campus", "zone", "region", "all"]

def rank (level : String) : Nat := (PoleClient.matchLevel level).getD 0

/-- The levels that the router may choose, in the order in which it tries them. -/
def considered (self : NearbyRouter) : List String :=
  if self.strictNearby ∨ rank self.maxMatchLevel < rank self.matchLevel then [self.matchLevel]
  else levels.filter fun level =>
    rank self.matchLevel ≤ rank level ∧ rank level ≤ rank self.maxMatchLevel

/-- The ordinals between two levels name the levels between them. -/
theorem names_between {low high : String} (hlow : low ∈ levels) (hhigh : high ∈ levels) :
    PoleClient.matchLevel low = some (rank low) ∧ PoleClient.matchLevel high = some (rank high) ∧
      (List.range' (rank low) (rank high + 1 - rank low)).map orderMatchLevel =
        (levels.filter fun level => rank low ≤ rank level ∧ rank level ≤ rank high).map some := by
  simp only [levels, List.mem_cons, List.not_mem_nil, or_false] at hlow hhigh
  rcases hlow with rfl | rfl | rfl | rfl <;> rcases hhigh with rfl | rfl | rfl | rfl <;>
    exact ⟨rfl, rfl, rfl⟩

theorem filter_between_self {level : String} (h : level ∈ levels) :
    levels.filter (fun other => rank level ≤ rank other ∧ rank other ≤ rank level) = [level] := by
  simp only [levels, List.mem_cons, List.not_mem_nil, or_false] at h
  rcases h with rfl | rfl | rfl | rfl <;> rfl

theorem isEmpty_of_mem_levels {level : String} (h : level ∈ levels) : level.isEmpty = false := by
  simp only [levels, List.mem_cons, List.not_mem_nil, or_false] at h
  rcases h with rfl | rfl | rfl | rfl <;> rfl

section Decision

variable {self : NearbyRouter} {instances : ServiceInstances}

/-- What the router answers for what the walk ends with. -/
def Answers (instances : ServiceInstances) (answer : Except RouteFault RouteResult) :
    Option (List Instance) → Prop
  | none => ∃ error, answer = .error (.failed error)
  | some list => answer = .ok ⟨.next, .new instances.service list⟩

/-- The greatest level of the walk; a strict router stays at the least one. -/
def lastLevel (self : NearbyRouter) : String :=
  if self.strictNearby then self.matchLevel else self.maxMatchLevel

theorem considered_of_inverted (h : rank self.lastLevel < rank self.matchLevel) :
    self.considered = [self.matchLevel] := by
  unfold lastLevel at h
  unfold considered
  split at h
  · omega
  · rw [if_pos (.inr h)]

theorem considered_of_ordered (hmin : self.matchLevel ∈ levels)
    (h : ¬ rank self.lastLevel < rank self.matchLevel) :
    self.considered = levels.filter fun level =>
      rank self.matchLevel ≤ rank level ∧ rank level ≤ rank self.lastLevel := by
  unfold lastLevel at h ⊢
  unfold considered
  by_cases hstrict : self.strictNearby = true
  · rw [if_pos (.inl hstrict), if_pos hstrict, filter_between_self hmin]
  · rw [if_neg hstrict] at h ⊢
    rw [if_neg (fun hor => hor.elim hstrict h)]

/-- The walk over the considered levels decides, also where the code asks for the least alone. -/
theorem answers_walk (hmin : self.matchLevel ∈ levels) (hmax : self.maxMatchLevel ∈ levels)
    (location : Location) (short : instances.instances.length * 100 < 2 ^ 32) :
    Answers instances (self.chooseInstancesWithLocation location instances)
      (walk self location instances self.considered none) := by
  have hlast : self.lastLevel ∈ levels := by
    unfold lastLevel
    split
    · exact hmin
    · exact hmax
  have hcode : (if self.strictNearby then self.matchLevel else self.maxMatchLevel) =
      self.lastLevel := rfl
  obtain ⟨hlow, hhigh, hnames⟩ := names_between hmin hlast
  unfold chooseInstancesWithLocation
  simp only [isEmpty_of_mem_levels hmin, Bool.false_eq_true, if_false, hcode,
    isEmpty_of_mem_levels hlast, hlow, hhigh, gt_iff_lt, selectInstances_eq]
  by_cases hinverted : rank self.lastLevel < rank self.matchLevel
  · rw [if_pos hinverted, considered_of_inverted hinverted, walk_singleton]
    by_cases hempty : selection location self.matchLevel instances = []
    · rw [hempty]
      exact ⟨_, rfl⟩
    · have hisEmpty : (ServiceInstances.new instances.service
          (selection location self.matchLevel instances)).instances.isEmpty = false := by
        simpa [ServiceInstances.new] using hempty
      rw [if_neg hempty, hisEmpty]
      exact rfl
  · obtain ⟨lastLevel, hwalk⟩ := @chooseLevel_eq self location instances short _ _ hnames
      self.matchLevel none
    rw [Option.map_none] at hwalk
    rw [if_neg hinverted, considered_of_ordered hmin hinverted]
    simp only [hwalk]
    cases walk self location instances _ none with
    | none => exact ⟨_, rfl⟩
    | some list => exact rfl

variable {ctx : RoutingContext} {extensions : Extensions}

/-- For levels in order: the narrowest level with instances that are not too unhealthy decides, and
else the widest with instances; the router fails exactly without any, and its arithmetic is exact.
Out of order, as in strict mode, the least level is the only one considered. -/
theorem level_decides (hextensions : ctx.extensions = some extensions)
    (hmin : self.matchLevel ∈ levels) (hmax : self.maxMatchLevel ∈ levels)
    (short : instances.instances.length * 100 < 2 ^ 32) :
    (∀ before level after, self.considered = before ++ level :: after →
      (∀ other ∈ before, selection extensions.getLocation other instances = [] ∨
        self.TooSick extensions.getLocation instances other) →
      selection extensions.getLocation level instances ≠ [] →
      ¬ self.TooSick extensions.getLocation instances level →
      self.chooseInstances ctx instances =
        .ok ⟨.next, .new instances.service (selection extensions.getLocation level instances)⟩) ∧
    (∀ before level after, self.considered = before ++ level :: after →
      (∀ other ∈ self.considered, selection extensions.getLocation other instances = [] ∨
        self.TooSick extensions.getLocation instances other) →
      selection extensions.getLocation level instances ≠ [] →
      (∀ other ∈ after, selection extensions.getLocation other instances = []) →
      self.chooseInstances ctx instances =
        .ok ⟨.next, .new instances.service (selection extensions.getLocation level instances)⟩) ∧
    ((∃ error, self.chooseInstances ctx instances = .error (.failed error)) ↔
      ∀ level ∈ self.considered, selection extensions.getLocation level instances = []) ∧
    self.chooseInstances ctx instances ≠ .error .panicked ∧
    ∀ level, Exact (selection extensions.getLocation level instances) := by
  have hchoose : self.chooseInstances ctx instances =
      self.chooseInstancesWithLocation extensions.getLocation instances := by
    unfold chooseInstances
    rw [hextensions]
  have hanswers := answers_walk hmin hmax extensions.getLocation short
  rw [← hchoose] at hanswers
  have hnone := @walk_eq_none_iff self extensions.getLocation instances self.considered
  refine ⟨?_, ?_, ?_, ?_, ?_⟩
  · intro before level after hsplit hpassed hfound hlevel
    rw [hsplit, walk_of_healthy hpassed hfound hlevel] at hanswers
    exact hanswers
  · intro before level after hsplit hpassed hfound hafter
    rw [hsplit] at hpassed
    rw [hsplit, walk_of_widest hpassed hfound hafter] at hanswers
    exact hanswers
  · rw [← hnone]
    cases hwalk : walk self extensions.getLocation instances self.considered none with
    | none =>
        rw [hwalk] at hanswers
        exact ⟨fun _ => rfl, fun _ => hanswers⟩
    | some list =>
        rw [hwalk] at hanswers
        refine ⟨?_, nofun⟩
        rintro ⟨error, herror⟩
        have hok : self.chooseInstances ctx instances = _ := hanswers
        rw [hok] at herror
        cases herror
  · intro hpanicked
    cases hwalk : walk self extensions.getLocation instances self.considered none with
    | none =>
        rw [hwalk] at hanswers
        obtain ⟨error, herror⟩ := hanswers
        rw [hpanicked] at herror
        cases herror
    | some list =>
        rw [hwalk] at hanswers
        have hok : self.chooseInstances ctx instances = _ := hanswers
        rw [hpanicked] at hok
        cases hok
  · intro level
    have hle : (selection extensions.getLocation level instances).length ≤
        instances.instances.length := List.length_filter_le ..
    exact exact_of_short (by omega)

end Decision

def zoneInstances : ServiceInstances :=
  .new ⟨"", "prod", "orders", .empty, ""⟩
    [{ orderInstance "a" false 100 with location := ⟨"south", "south-1", ""⟩ },
      { orderInstance "b" true 100 with location := ⟨"south", "south-1", ""⟩ },
      { orderInstance "c" true 100 with location := ⟨"south", "south-2", ""⟩ }]

def zoneRouter : NearbyRouter := ⟨false, "zone", "all", true, 50⟩

def zoneContext : RoutingContext :=
  ⟨orderRequest, some { orderExtensions with getLocation := ⟨"south", "south-1", ""⟩ }⟩

/-- The zone is degraded, and the region is taken. -/
theorem zoneRouter_widens :
    zoneRouter.chooseInstances zoneContext zoneInstances = .ok ⟨.next, zoneInstances⟩ := by
  have hdecision := @level_decides zoneRouter zoneInstances zoneContext _ rfl (by decide)
    (by decide) (by decide)
  apply (hdecision.1 ["zone"] "region" ["all"] rfl ?_ ?_ ?_).trans
  · rfl
  · intro other hother
    rw [List.mem_singleton.mp hother]
    exact .inr ⟨rfl, by decide, by decide⟩
  · exact List.cons_ne_nil _ _
  · rintro ⟨-, -, hpercent⟩
    exact absurd hpercent (by decide)

end PoleClient.NearbyRouter
