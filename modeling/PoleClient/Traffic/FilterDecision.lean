import PoleClient.Traffic.RoutingSelection

/-! # What the health, the metadata and the nearby router decide

The health router drops instances that are not available, by a test on the
weight it has kept so far. The metadata router selects by the entries of the
request and falls back as the service or the request says. The nearby router
widens its level until the instances there are healthy enough.
-/

namespace PoleClient

def Leaves (answer : Except RouteFault RouteResult) (list : List Instance) : Prop :=
  ∃ result, answer = .ok result ∧ result.instances.instances = list

theorem Leaves.unique {answer : Except RouteFault RouteResult} {first second : List Instance}
    (hfirst : Leaves answer first) (hsecond : Leaves answer second) : first = second := by
  obtain ⟨result, hanswer, rfl⟩ := hfirst
  obtain ⟨other, hother, rfl⟩ := hsecond
  rw [hanswer] at hother
  cases hother
  rfl

/-! ## The health router -/

theorem weight_ne_zero_of_isAvailable {ins : Instance} (h : ins.isAvailable = true) :
    ins.weight.toNat ≠ 0 := by
  intro hzero
  have hweight : ins.weight = 0 := UInt32.toNat_inj.mp hzero
  simp [Instance.isAvailable, hweight] at h

/-- The instances up to the first with a weight, and the available ones after it. -/
def recovered : List Instance → List Instance
  | [] => []
  | ins :: instances =>
      if ins.weight.toNat = 0 then ins :: recovered instances
      else ins :: instances.filter fun ins => ins.isAvailable

theorem head_mem_recovered (ins : Instance) (instances : List Instance) :
    ins ∈ recovered (ins :: instances) := by
  rw [recovered]
  split
  · exact List.mem_cons_self
  · exact List.mem_cons_self

/-- With some weight kept, only available instances are kept. -/
theorem foldl_health_of_pos (instances ret : List Instance) {totalWeight : Nat}
    (h : 0 < totalWeight) :
    (instances.foldl (fun (ret, totalWeight) «instance» =>
      if «instance».isAvailable || decide (totalWeight = 0) then
        (ret ++ [«instance»], totalWeight + «instance».weight.toNat)
      else (ret, totalWeight)) (ret, totalWeight)).1 =
      ret ++ instances.filter fun ins => ins.isAvailable := by
  induction instances generalizing ret totalWeight with
  | nil => simp
  | cons ins instances ih =>
      have hne : totalWeight ≠ 0 := by omega
      rw [List.foldl_cons]
      by_cases havailable : ins.isAvailable = true
      · simp only [havailable, Bool.true_or, if_true]
        rw [ih _ (by omega), List.filter_cons_of_pos havailable, List.append_assoc]
        rfl
      · simp only [havailable, hne, decide_false, Bool.or_false, Bool.false_eq_true, if_false]
        rw [ih _ h, List.filter_cons_of_neg havailable]

theorem foldl_health (instances ret : List Instance) :
    (instances.foldl (fun (ret, totalWeight) «instance» =>
      if «instance».isAvailable || decide (totalWeight = 0) then
        (ret ++ [«instance»], totalWeight + «instance».weight.toNat)
      else (ret, totalWeight)) (ret, 0)).1 = ret ++ recovered instances := by
  induction instances generalizing ret with
  | nil => simp [recovered]
  | cons ins instances ih =>
      rw [List.foldl_cons]
      simp only [decide_true, Bool.or_true, if_true, Nat.zero_add]
      by_cases hweight : ins.weight.toNat = 0
      · rw [hweight, ih, recovered, if_pos hweight, List.append_assoc]
        rfl
      · rw [foldl_health_of_pos _ _ (by omega), recovered, if_neg hweight, List.append_assoc]
        rfl

theorem checkInstances_of_pass {extensions : Extensions}
    (pass : ∀ number, extensions.checkResource number = .ok true) (number : Nat)
    (instances : List Instance) : checkInstances extensions number instances = .ok () := by
  induction instances generalizing number with
  | nil => rfl
  | cons ins instances ih =>
      rw [checkInstances, pass, ih, ih]
      split
      · rfl
      · rfl

section HealthRouter

variable {ctx : RoutingContext} {extensions : Extensions}

theorem HealthRouter.leaves_recovered (hextensions : ctx.extensions = some extensions)
    (pass : ∀ number, extensions.checkResource number = .ok true) (instances : ServiceInstances) :
    Leaves (HealthRouter.chooseInstances ctx instances) (recovered instances.instances) := by
  unfold HealthRouter.chooseInstances
  simp only [hextensions, checkInstances_of_pass pass]
  refine ⟨_, rfl, ?_⟩
  rw [← List.nil_append (recovered _), ← foldl_health]
  rfl

/-- Lists for which the test on the weight has no effect. -/
def Uniform (instances : List Instance) : Prop :=
  (∀ ins ∈ instances, ins.isAvailable = true) ∨ (∀ ins ∈ instances, ins.weight = 0) ∨
    instances.length ≤ 1

theorem Uniform.perm {instances permuted : List Instance} (uniform : Uniform instances)
    (perm : permuted.Perm instances) : Uniform permuted := by
  rcases uniform with h | h | h
  · exact .inl fun ins hins => h ins (perm.subset hins)
  · exact .inr (.inl fun ins hins => h ins (perm.subset hins))
  · exact .inr (.inr (perm.length_eq ▸ h))

theorem Uniform.recovered_eq {instances : List Instance} (uniform : Uniform instances) :
    recovered instances = instances := by
  rcases uniform with h | h | h
  · cases instances with
    | nil => rfl
    | cons ins instances =>
        rw [List.forall_mem_cons] at h
        rw [recovered, if_neg (weight_ne_zero_of_isAvailable h.1), List.filter_eq_self.mpr h.2]
  · induction instances with
    | nil => rfl
    | cons ins instances ih =>
        rw [List.forall_mem_cons] at h
        have hweight : ins.weight.toNat = 0 := congrArg UInt32.toNat h.1
        rw [recovered, if_pos hweight, ih h.2]
  · match instances, h with
    | [], _ => rfl
    | [ins], _ => simp [recovered]

theorem Uniform.filter_eq {instances : List Instance} (uniform : Uniform instances)
    (found : ∃ ins ∈ instances, ins.isAvailable = true) :
    instances.filter (fun ins => ins.isAvailable) = instances := by
  obtain ⟨ins, hins, havailable⟩ := found
  rcases uniform with h | h | h
  · exact List.filter_eq_self.mpr h
  · exact absurd (congrArg UInt32.toNat (h ins hins)) (weight_ne_zero_of_isAvailable havailable)
  · match instances, h with
    | [other], _ =>
        obtain rfl := List.mem_singleton.mp hins
        simp [havailable]

/-- Exactly the available instances, or all if there are none. -/
def Recovers (instances ret : List Instance) : Prop :=
  ((∃ ins ∈ instances, ins.isAvailable = true) →
    ret = instances.filter fun ins => ins.isAvailable) ∧
  ((∀ ins ∈ instances, ins.isAvailable = false) → ret = instances)

theorem filter_isAvailable_eq_nil {instances : List Instance}
    (h : ∀ ins ∈ instances, ins.isAvailable = false) :
    instances.filter (fun ins => ins.isAvailable) = [] := by
  rw [List.filter_eq_nil_iff]
  intro ins hins
  simp [h ins hins]

/-- Whichever instance comes first, the answer has the same members. -/
def OrderFree (instances : List Instance) : Prop :=
  ∀ before ins after, instances = before ++ ins :: after →
    ∀ other, other ∈ recovered (ins :: (before ++ after)) ↔ other ∈ recovered instances

/-- Of unavailable instances only a single one with a weight is kept in every order. -/
theorem OrderFree.length_le_one {instances : List Instance} (free : OrderFree instances)
    (hunavailable : ∀ ins ∈ instances, ins.isAvailable = false)
    (hall : recovered instances = instances) {ins : Instance} (hins : ins ∈ instances)
    (hweight : ins.weight.toNat ≠ 0) : instances.length ≤ 1 := by
  obtain ⟨before, after, hsplit⟩ := List.append_of_mem hins
  have hrest : (before ++ after).filter (fun ins => ins.isAvailable) = [] := by
    apply filter_isAvailable_eq_nil
    intro other hother
    apply hunavailable
    rw [hsplit]
    rcases List.mem_append.mp hother with h | h
    · exact List.mem_append_left _ h
    · exact List.mem_append_right _ (List.mem_cons_of_mem _ h)
  have hequal : ∀ other ∈ instances, other = ins := by
    intro other hother
    have hmem := (free before ins after hsplit other).mpr (hall.symm ▸ hother)
    rw [recovered, if_neg hweight, hrest] at hmem
    exact List.mem_singleton.mp hmem
  -- so all members are the one that the answer ends with
  cases instances with
  | nil => simp
  | cons first rest =>
      obtain rfl := hequal first List.mem_cons_self
      have hnil := filter_isAvailable_eq_nil fun other hother =>
        hunavailable other (List.mem_cons_of_mem _ hother)
      rw [recovered, if_neg hweight, hnil] at hall
      rw [← hall]
      simp

theorem OrderFree.uniform {instances : List Instance} (free : OrderFree instances)
    (recovers : Recovers instances (recovered instances)) : Uniform instances := by
  obtain ⟨hsome, hnone⟩ := recovers
  by_cases havailable : ∃ ins ∈ instances, ins.isAvailable = true
  · left
    intro ins hins
    obtain ⟨before, after, hsplit⟩ := List.append_of_mem hins
    have hmem := (free before ins after hsplit ins).mp (head_mem_recovered ins _)
    rw [hsome havailable] at hmem
    exact (List.mem_filter.mp hmem).2
  · right
    have hunavailable : ∀ ins ∈ instances, ins.isAvailable = false := by
      intro ins hins
      exact Bool.eq_false_iff.mpr fun h => havailable ⟨ins, hins, h⟩
    by_cases hweights : ∃ ins ∈ instances, ins.weight.toNat ≠ 0
    · right
      obtain ⟨ins, hins, hweight⟩ := hweights
      exact free.length_le_one hunavailable (hnone hunavailable) hins hweight
    · left
      intro ins hins
      apply UInt32.toNat_inj.mp
      by_contra hne
      exact hweights ⟨ins, hins, hne⟩

/-- The answer for the list recovers, and its members are those of the answers for the same
instances in any other order, exactly for uniform lists. -/
theorem HealthRouter.recovers_iff (hextensions : ctx.extensions = some extensions)
    (pass : ∀ number, extensions.checkResource number = .ok true) (instances : ServiceInstances) :
    ((∃ ret, Leaves (HealthRouter.chooseInstances ctx instances) ret ∧
        Recovers instances.instances ret) ∧
      ∀ permuted : List Instance, permuted.Perm instances.instances →
        ∀ ret ret', Leaves (HealthRouter.chooseInstances ctx instances) ret →
          Leaves (HealthRouter.chooseInstances ctx { instances with instances := permuted }) ret' →
          ∀ ins, ins ∈ ret' ↔ ins ∈ ret) ↔
      Uniform instances.instances := by
  have hleaves := HealthRouter.leaves_recovered hextensions pass
  constructor
  · rintro ⟨⟨ret, hret, recovers⟩, hperm⟩
    obtain rfl := hret.unique (hleaves instances)
    have free : OrderFree instances.instances := by
      intro before ins after hsplit
      have hpermuted : (ins :: (before ++ after)).Perm instances.instances := by
        rw [hsplit]
        exact List.perm_middle.symm
      exact hperm _ hpermuted _ _ (hleaves instances)
        (hleaves { instances with instances := ins :: (before ++ after) })
    exact free.uniform recovers
  · intro uniform
    refine ⟨⟨instances.instances, ?_, ?_, fun _ => rfl⟩, ?_⟩
    · have h := hleaves instances
      rwa [uniform.recovered_eq] at h
    · exact fun found => (uniform.filter_eq found).symm
    · intro permuted hpermuted ret ret' hret hret' ins
      obtain rfl := hret.unique (hleaves instances)
      obtain rfl := hret'.unique (hleaves { instances with instances := permuted })
      rw [uniform.recovered_eq, (uniform.perm hpermuted).recovered_eq]
      exact hpermuted.mem_iff

end HealthRouter

def orderContextOf (request : RoutingInfo) : RoutingContext := ⟨request, some orderExtensions⟩

def sickFirst : ServiceInstances :=
  .new ⟨"", "prod", "orders", .empty, ""⟩ [orderInstance "a" false 100, orderInstance "b" true 100]

/-- The unhealthy instance is kept beside the healthy one. -/
theorem sickFirst_not_recovered :
    ¬ ∃ ret, Leaves (HealthRouter.chooseInstances (orderContextOf orderRequest) sickFirst) ret ∧
      Recovers sickFirst.instances ret := by
  rintro ⟨ret, hret, hsome, -⟩
  have hall : Leaves (HealthRouter.chooseInstances (orderContextOf orderRequest) sickFirst)
      sickFirst.instances := ⟨_, rfl, rfl⟩
  have hfiltered := hsome
    ⟨orderInstance "b" true 100, by simp [sickFirst, ServiceInstances.new], rfl⟩
  have hlength := congrArg List.length ((hret.unique hall).symm.trans hfiltered)
  exact absurd hlength (by decide)

def healthyOnly : ServiceInstances :=
  .new ⟨"", "prod", "orders", .empty, ""⟩ [orderInstance "a" true 100, orderInstance "b" true 100]

theorem healthyOnly_recovered :
    ∃ ret, Leaves (HealthRouter.chooseInstances (orderContextOf orderRequest) healthyOnly) ret ∧
      Recovers healthyOnly.instances ret := by
  have pass : ∀ number, orderExtensions.checkResource number = .ok true := fun _ => rfl
  have uniform : Uniform healthyOnly.instances := by
    left
    simp [healthyOnly, ServiceInstances.new, orderInstance, Instance.isAvailable]
  have hextensions : (orderContextOf orderRequest).extensions = some orderExtensions := rfl
  exact ((HealthRouter.recovers_iff hextensions pass healthyOnly).mpr uniform).1

/-! ## The metadata router -/

def carriesAll (reqMeta : List (String × String)) (ins : Instance) : Bool :=
  reqMeta.all fun entry => ins.metadata entry.1 == some entry.2

def carriesNone (reqMeta : List (String × String)) (ins : Instance) : Bool :=
  reqMeta.all fun entry => (ins.metadata entry.1).isNone

/-- What the service says comes before what the request says. -/
def effectiveFailover (service : ServiceInfo) (request : MetadataFailoverType) :
    MetadataFailoverType :=
  match service.metadata "internal-metadata-failover-type" with
  | some customFailoverType => parseCustomFailoverType customFailoverType
  | none => request

theorem matchCount_le (metadata : StringMap) (reqMeta : List (String × String)) :
    matchCount metadata reqMeta ≤ reqMeta.length := by
  induction reqMeta with
  | nil => exact Nat.le_refl _
  | cons entry reqMeta ih =>
      rw [matchCount, List.length_cons]
      split
      · omega
      · split
        · omega
        · omega

/-- The count reaches the number of entries exactly if no entry is missing or contradicted. -/
theorem matchCount_eq_length_iff (ins : Instance) (reqMeta : List (String × String)) :
    matchCount ins.metadata reqMeta = reqMeta.length ↔ carriesAll reqMeta ins = true := by
  induction reqMeta with
  | nil => simp [matchCount, carriesAll]
  | cons entry reqMeta ih =>
      have hle := matchCount_le ins.metadata reqMeta
      have hcons : carriesAll (entry :: reqMeta) ins = true ↔
          ins.metadata entry.1 = some entry.2 ∧ carriesAll reqMeta ins = true := by
        simp [carriesAll]
      rw [matchCount, List.length_cons, hcons]
      cases hvalue : ins.metadata entry.1 with
      | none =>
          simp only [reduceCtorEq, false_and, iff_false]
          omega
      | some v =>
          by_cases hv : v = entry.2
          · simp only [hv, if_true, Nat.add_right_cancel_iff, true_and]
            exact ih
          · simp only [hv, if_false, Option.some.injEq, false_and, iff_false]
            omega

theorem matching_eq (instances : List Instance) (reqMeta : List (String × String)) :
    (collect (fun _ «instance» =>
      let count := matchCount «instance».metadata reqMeta
      decide (count ≠ 0 ∧ count = reqMeta.length)) instances) =
      if reqMeta = [] then ([], 0)
      else (instances.filter (carriesAll reqMeta),
        weightSum (instances.filter (carriesAll reqMeta))) := by
  rw [collect_filter]
  by_cases hempty : reqMeta = []
  · subst hempty
    simp [matchCount, weightSum]
  · have hlength : 0 < reqMeta.length := List.length_pos_iff.mpr hempty
    have hfilter : (instances.filter fun «instance» =>
        let count := matchCount «instance».metadata reqMeta
        decide (count ≠ 0 ∧ count = reqMeta.length)) =
          instances.filter (carriesAll reqMeta) := by
      apply List.filter_congr
      intro ins _
      rw [Bool.eq_iff_iff, decide_eq_true_iff, ← matchCount_eq_length_iff]
      constructor
      · exact fun h => h.2
      · exact fun h => ⟨by omega, h⟩
    rw [if_neg hempty, hfilter]

section MetadataRouter

variable {library : RouterLibrary} {ctx : RoutingContext}

theorem MetadataRouter.chooseInstances_eq (instances : ServiceInstances) :
    MetadataRouter.chooseInstances library ctx instances =
      if ctx.routeInfo.metadata ≠ [] ∧
          instances.instances.filter (carriesAll ctx.routeInfo.metadata) ≠ [] then
        .ok ⟨.next, .new instances.service
          (instances.instances.filter (carriesAll ctx.routeInfo.metadata))⟩
      else
        match effectiveFailover instances.service ctx.routeInfo.metadataFailover with
        | .metadataFailoverAll => .ok ⟨.next, .new instances.service instances.instances⟩
        | .metadataFailoverNoKey =>
            .ok ⟨.next, .new instances.service (instances.instances.filter fun ins =>
              library.isEmpty ins.metadata && carriesNone ctx.routeInfo.metadata ins)⟩
        | .metadataFailoverNone =>
            .error (.failed (.new .metadataMismatch
              ("can not find any instance by service namespace(" ++
                instances.service.namespaceName ++ ") name(" ++ instances.service.name ++
                ")"))) := by
  have hnokey : (fun ins : Instance => !(!library.isEmpty ins.metadata ||
      ctx.routeInfo.metadata.any fun entry => (ins.metadata entry.1).isSome)) =
      fun ins => library.isEmpty ins.metadata && carriesNone ctx.routeInfo.metadata ins := by
    funext ins
    rw [Bool.not_or, Bool.not_not, carriesNone, List.not_any_eq_all_not]
    simp
  have hall : instances.instances.filter (fun _ => true) = instances.instances :=
    List.filter_eq_self.mpr fun _ _ => rfl
  unfold MetadataRouter.chooseInstances
  simp only [matching_eq, collect_filter, hnokey, hall]
  by_cases hmatching : ctx.routeInfo.metadata ≠ [] ∧
      instances.instances.filter (carriesAll ctx.routeInfo.metadata) ≠ []
  · rw [if_pos hmatching, if_neg hmatching.1, if_pos (by simpa using hmatching.2)]
    rfl
  · have hnone : (if ctx.routeInfo.metadata = [] then ([], 0)
        else (instances.instances.filter (carriesAll ctx.routeInfo.metadata),
          weightSum (instances.instances.filter (carriesAll ctx.routeInfo.metadata)))).1 = [] := by
      by_cases hempty : ctx.routeInfo.metadata = []
      · rw [if_pos hempty]
      · rw [if_neg hempty]
        by_contra hne
        exact hmatching ⟨hempty, hne⟩
    rw [if_neg hmatching, hnone]
    simp only [List.isEmpty_nil, Bool.not_true, Bool.false_eq_true, if_false]
    split
    · rename_i hmode
      have heffective : effectiveFailover instances.service ctx.routeInfo.metadataFailover =
          .metadataFailoverAll := hmode
      rw [heffective]
      rfl
    · rename_i hmode
      have heffective : effectiveFailover instances.service ctx.routeInfo.metadataFailover =
          .metadataFailoverNoKey := hmode
      rw [heffective]
      rfl
    · rename_i hmode
      have heffective : effectiveFailover instances.service ctx.routeInfo.metadataFailover =
          .metadataFailoverNone := hmode
      rw [heffective]

/-- The order in which the entries of the request are walked has no influence. -/
theorem MetadataRouter.chooseInstances_perm {permuted : List (String × String)}
    (perm : permuted.Perm ctx.routeInfo.metadata) (instances : ServiceInstances) :
    MetadataRouter.chooseInstances library
        { ctx with routeInfo := { ctx.routeInfo with metadata := permuted } } instances =
      MetadataRouter.chooseInstances library ctx instances := by
  have hall : carriesAll permuted = carriesAll ctx.routeInfo.metadata := by
    funext ins
    exact perm.all_eq
  have hnone : carriesNone permuted = carriesNone ctx.routeInfo.metadata := by
    funext ins
    exact perm.all_eq
  have hempty : permuted ≠ [] ↔ ctx.routeInfo.metadata ≠ [] := by
    rw [← List.length_pos_iff, ← List.length_pos_iff, perm.length_eq]
  rw [chooseInstances_eq, chooseInstances_eq]
  simp only [hall, hnone, hempty]

/-- A request with entries selects the instances that carry them all. Where there are none, or no
entries, the failover of the service or else of the request decides. -/
theorem MetadataRouter.metadata_decides
    (emptiness : ∀ metadata, library.isEmpty metadata = true ↔ ∀ key, metadata key = none)
    (instances : ServiceInstances) :
    (ctx.routeInfo.metadata ≠ [] →
      instances.instances.filter (carriesAll ctx.routeInfo.metadata) ≠ [] →
      MetadataRouter.chooseInstances library ctx instances =
        .ok ⟨.next, .new instances.service
          (instances.instances.filter (carriesAll ctx.routeInfo.metadata))⟩) ∧
    ((ctx.routeInfo.metadata = [] ∨
        instances.instances.filter (carriesAll ctx.routeInfo.metadata) = []) →
      match effectiveFailover instances.service ctx.routeInfo.metadataFailover with
      | .metadataFailoverAll =>
          MetadataRouter.chooseInstances library ctx instances =
            .ok ⟨.next, .new instances.service instances.instances⟩
      | .metadataFailoverNoKey =>
          ∃ ret, MetadataRouter.chooseInstances library ctx instances =
              .ok ⟨.next, .new instances.service ret⟩ ∧
            ret.Sublist (instances.instances.filter (carriesNone ctx.routeInfo.metadata)) ∧
            (instances.instances.filter fun ins => library.isEmpty ins.metadata).Sublist ret
      | .metadataFailoverNone =>
          ∃ message, MetadataRouter.chooseInstances library ctx instances =
            .error (.failed (.new .metadataMismatch message))) ∧
    ∀ permuted : List (String × String), permuted.Perm ctx.routeInfo.metadata →
      MetadataRouter.chooseInstances library
          { ctx with routeInfo := { ctx.routeInfo with metadata := permuted } } instances =
        MetadataRouter.chooseInstances library ctx instances := by
  refine ⟨?_, ?_, fun permuted perm => MetadataRouter.chooseInstances_perm perm instances⟩
  · intro hentries hmatching
    rw [MetadataRouter.chooseInstances_eq, if_pos ⟨hentries, hmatching⟩]
  · intro hnone
    have hneg : ¬ (ctx.routeInfo.metadata ≠ [] ∧
        instances.instances.filter (carriesAll ctx.routeInfo.metadata) ≠ []) := by
      rintro ⟨hentries, hmatching⟩
      exact hnone.elim hentries hmatching
    rw [MetadataRouter.chooseInstances_eq, if_neg hneg]
    cases effectiveFailover instances.service ctx.routeInfo.metadataFailover with
    | metadataFailoverAll => rfl
    | metadataFailoverNone => exact ⟨_, rfl⟩
    | metadataFailoverNoKey =>
        refine ⟨_, rfl, ?_, ?_⟩
        · rw [← List.filter_filter]
          exact List.filter_sublist
        · have hempty : ∀ ins ∈ instances.instances,
              (library.isEmpty ins.metadata && carriesNone ctx.routeInfo.metadata ins) =
                library.isEmpty ins.metadata := by
            intro ins _
            cases hmetadata : library.isEmpty ins.metadata with
            | false => rfl
            | true =>
                have hkeys := (emptiness ins.metadata).mp hmetadata
                simp [carriesNone, hkeys]
          rw [List.filter_congr hempty]

end MetadataRouter

open Classical in
/-- The library with the emptiness of maps. -/
noncomputable def mapLibrary : RouterLibrary :=
  { orderLibrary with isEmpty := fun metadata => decide (∀ key, metadata key = none) }

def setInstance (id set : String) : Instance :=
  { orderInstance id true 100 with
    metadata := fun key => if key = "set" then some set else none }

def setInstances : ServiceInstances :=
  .new ⟨"", "prod", "orders", .empty, ""⟩ [setInstance "a" "1", setInstance "b" "2"]

def setRequest (metadata : List (String × String)) (failover : MetadataFailoverType) :
    RoutingContext :=
  orderContextOf { orderRequest with metadata := metadata, metadataFailover := failover }

open Classical in
theorem setRequest_selects :
    MetadataRouter.chooseInstances mapLibrary
        (setRequest [("set", "1")] .metadataFailoverNone) setInstances =
      .ok ⟨.next, .new setInstances.service [setInstance "a" "1"]⟩ := by
  have emptiness : ∀ metadata, mapLibrary.isEmpty metadata = true ↔
      ∀ key, metadata key = none := fun _ => decide_eq_true_iff
  have hdecision := (@MetadataRouter.metadata_decides mapLibrary
    (setRequest [("set", "1")] .metadataFailoverNone) emptiness setInstances).1
  exact hdecision nofun nofun

/-- An empty request, which every instance carries, is answered with an error. -/
theorem emptyRequest_not_all :
    ¬ Leaves (MetadataRouter.chooseInstances orderLibrary
        (setRequest [] .metadataFailoverNone) setInstances)
      (setInstances.instances.filter (carriesAll [])) := by
  rintro ⟨result, hanswer, -⟩
  cases hanswer

end PoleClient
