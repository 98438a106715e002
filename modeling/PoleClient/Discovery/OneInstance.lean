import PoleClient.Cache.InstanceIdentity
import PoleClient.LoadBalance.RingHash
import PoleClient.LoadBalance.RoundRobin
import PoleClient.LoadBalance.WeightedRandom
import PoleClient.Traffic.Governance

/-! # One instance for a call

The available instances of a service are taken from the cache, pass the gate and
the routers for the service, and one of those left is chosen by the balancer of the
request. The balancers are shared by all calls.
-/

namespace PoleClient.Discovery

open Cache Lib LoadBalance

variable {E L F : Type}

/-! ## Balancers -/

inductive LoadBalancerPlugin where
  | weightedRandom
  | weightedRoundRobin
  | ringHash
deriving DecidableEq, Repr

/-- `Extensions::load_loadbalancers`, by the names of the plugins. -/
def loadBalancers (name : String) : Option LoadBalancerPlugin :=
  if name = "weightedRandom" then some .weightedRandom
  else if name = "weightedRoundRobin" then some .weightedRoundRobin
  else if name = "ringHash" then some .ringHash
  else none

structure Criteria where
  policy : String
  hashKey : String

structure Balancers where
  roundRobin : WeightedRoundRobinBalancer
  ringHash : ConsistentHashLoadBalancer

structure Draw where
  now : Nat
  random : UInt64

inductive ServiceFault where
  | failed (error : PoleError)
  | panicked
  | stuck

def ofRouteFault : RouteFault → ServiceFault
  | .panicked => .panicked
  | .failed err => .failed err

def ofFailure : Failure → ServiceFault
  | .lockHeld | .lockRequestedAgain => .stuck
  | _ => .panicked

/-- `choose_instance` of a plugin. -/
def LoadBalancerPlugin.chooseInstance (overflowChecks : Bool) (balancers : Balancers) (draw : Draw)
    (criteria : Criteria) (instances : ServiceInstances) :
    LoadBalancerPlugin → Balancers × Except ServiceFault Instance
  | .weightedRandom =>
      (balancers,
        match WeightRandomLoadbalancer.chooseInstance overflowChecks draw.random instances with
        | none => .error .panicked
        | some (.error err) => .error (.failed err)
        | some (.ok «instance») => .ok «instance»)
  | .weightedRoundRobin =>
      let call := balancers.roundRobin.chooseInstance overflowChecks ⟨draw.now, instances⟩
      ({ balancers with roundRobin := call.1 },
        match call.2 with
        | .ok selected => .ok selected
        | .err err => .error (.failed err)
        | .failed failure => .error (ofFailure failure))
  | .ringHash =>
      let call :=
        balancers.ringHash.chooseInstance hashOfNode hashOfKey ⟨criteria.hashKey, instances⟩
      ({ balancers with ringHash := call.1 },
        match call.2 with
        | none => .error .panicked
        | some «instance» => .ok «instance»)

/-! ## The consumer API -/

/-- The consumer API over the cache and the router API. -/
structure ConsumerEnv (E L F : Type) extends RouterEnv E L F where
  loadServiceInstances : String → String → Except PoleError ServiceInstancesCacheItem
  defaultPolicy : String
  overflowChecks : Bool

structure GetOneInstanceRequest where
  service : String
  namespaceName : String
  criteria : Criteria
  routeInfo : RoutingInfo
  distinct : (routeInfo.metadata.map Prod.fst).Nodup

/-- Every request names its service and the namespace of it. -/
def checkNamed (service namespaceName : String) : Except PoleError Unit :=
  if service.isEmpty then .error (.new .apiInvalidArgument "service is empty")
  else if namespaceName.isEmpty then .error (.new .apiInvalidArgument "namespace is empty")
  else .ok ()

def GetOneInstanceRequest.checkValid (req : GetOneInstanceRequest) : Except PoleError Unit :=
  checkNamed req.service req.namespaceName

/-- `Engine::get_service_instances` -/
def ConsumerEnv.getServiceInstances (env : ConsumerEnv E L F) (namespaceName service : String)
    (onlyAvailable : Bool) : Except PoleError ServiceInstances := do
  let svcIns ← env.loadServiceInstances namespaceName service
  return Cache.getServiceInstances svcIns onlyAvailable

def ConsumerEnv.getHealthInstance (env : ConsumerEnv E L F) (namespaceName service : String) :
    Except PoleError ServiceInstances := do
  checkNamed service namespaceName
  env.getServiceInstances namespaceName service true

def ConsumerEnv.getAllInstance (env : ConsumerEnv E L F) (namespaceName service : String) :
    Except PoleError ServiceInstances := do
  checkNamed service namespaceName
  env.getServiceInstances namespaceName service false

variable (E L F) in
/-- The consumer API reads what the events of the cache have left. -/
structure CachedEnv (ρ : Type) extends ConsumerEnv E L F where
  actions : List (CacheAction ρ)
  cached : ∀ namespaceName service item, loadServiceInstances namespaceName service = .ok item →
    ∃ key, (run cacheStep .new actions).instances key = some item

/-- The healthy instances of a service are those of all its instances that can be called. -/
theorem getHealthInstance_eq {ρ : Type} (env : CachedEnv E L F ρ)
    (namespaceName service : String) :
    env.getHealthInstance namespaceName service =
      (env.getAllInstance namespaceName service).map fun all =>
        .new all.service (all.instances.filter Instance.isAvailable) := by
  unfold ConsumerEnv.getHealthInstance ConsumerEnv.getAllInstance
    ConsumerEnv.getServiceInstances
  cases checkNamed service namespaceName with
  | error err => rfl
  | ok _ =>
      cases hload : env.loadServiceInstances namespaceName service with
      | error err => rfl
      | ok item =>
          obtain ⟨key, hitem⟩ := env.cached namespaceName service item hload
          have havailable := available_run env.actions key item hitem
          show Except.ok (Cache.getServiceInstances item true) = .ok _
          rw [Cache.getServiceInstances, havailable]
          rfl

structure InstanceResponse (F : Type) where
  «instance» : Instance
  mockResponse : Option (MockResponse F)

instance : Inhabited Instance :=
  ⟨⟨"", "", "", "", 0, "", "", "", false, false, 0, 0, .empty, default, ""⟩⟩

def mockInstanceResponse (routeResponse : ProcessRouteResponse E L F) :
    Option (InstanceResponse F) :=
  routeResponse.trafficGovernance.mock.map fun mock => ⟨default, some mock⟩

def ConsumerEnv.loadBalance (env : ConsumerEnv E L F) (balancers : Balancers) (draw : Draw)
    (criteria : Criteria) (serviceInstances : ServiceInstances) :
    Balancers × Except ServiceFault Instance :=
  let lbPolicy := if criteria.policy.isEmpty then env.defaultPolicy else criteria.policy
  match loadBalancers lbPolicy with
  | none =>
      (balancers, .error (.failed
        (.new .pluginError ("load balancer " ++ lbPolicy ++ " not found"))))
  | some lb =>
      lb.chooseInstance env.overflowChecks balancers draw criteria serviceInstances

/-- The request to the routers, for the callee that the call names. -/
def GetOneInstanceRequest.routeRequest (req : GetOneInstanceRequest)
    (instances : ServiceInstances) : ProcessRouteRequest Unit where
  serviceInstances := instances
  routeInfo := { req.routeInfo with callee := ⟨req.namespaceName, req.service⟩ }
  distinct := req.distinct
  mirrorRequest := none

def ConsumerEnv.getOneInstance (env : ConsumerEnv E L F) (balancers : Balancers) (draw : Draw)
    (req : GetOneInstanceRequest) : Balancers × Except ServiceFault (InstanceResponse F) :=
  match req.checkValid with
  | .error err => (balancers, .error (.failed err))
  | .ok () =>
      match env.getServiceInstances req.namespaceName req.service true with
      | .error err => (balancers, .error (.failed err))
      | .ok instances =>
          match (env.router (req.routeRequest instances)).result with
          | .error fault => (balancers, .error (ofRouteFault fault))
          | .ok routeResponse =>
              match mockInstanceResponse routeResponse with
              | some response => (balancers, .ok response)
              | none =>
                  let balanced := env.loadBalance balancers draw req.criteria
                    routeResponse.serviceInstances
                  (balanced.1, balanced.2.map fun «instance» => ⟨«instance», none⟩)

/-- A call of the consumer API, with the rules, the registry and the draw that it meets. -/
structure ConsumerCall (E L F : Type) where
  env : ConsumerEnv E L F
  draw : Draw
  req : GetOneInstanceRequest

namespace ConsumerCall

def answer (balancers : Balancers) (call : ConsumerCall E L F) :
    Balancers × Except ServiceFault (InstanceResponse F) :=
  call.env.getOneInstance balancers call.draw call.req

def step (balancers : Balancers) (call : ConsumerCall E L F) : Balancers :=
  (call.answer balancers).1

def loaded (call : ConsumerCall E L F) : Except PoleError ServiceInstancesCacheItem :=
  call.env.loadServiceInstances call.req.namespaceName call.req.service

def lbPolicy (call : ConsumerCall E L F) : String :=
  if call.req.criteria.policy.isEmpty then call.env.defaultPolicy else call.req.criteria.policy

def context (call : ConsumerCall E L F) : SampledContext where
  routeInfo :=
    { call.req.routeInfo.toRouteInfo with callee := ⟨call.req.namespaceName, call.req.service⟩ }
  authenticatedCaller := none
  metadata := call.req.routeInfo.metadata
  distinct := call.req.distinct

/-- The security rules of the callee could be read, and they let the call through. -/
def Admitted (call : ConsumerCall E L F) : Prop :=
  ∃ rules, call.env.securityRules call.context = .ok rules ∧
    (evaluateSecurity call.env.regex call.env.crypto call.context.toRouteContext
      rules).allowed = true

/-- The call was admitted, and the registry had the instance among those to call, for the service
with this text and at this revision. -/
def Served (call : ConsumerCall E L F) (key revision : String) (ins : Instance) : Prop :=
  call.Admitted ∧ ∃ item, call.loaded = .ok item ∧
    (Cache.getServiceInstances item true).getCacheKey = key ∧ item.svcInfo.revision = revision ∧
      ins ∈ item.listInstances true

end ConsumerCall

/-! ## What a balancer returns -/

theorem mem_of_walk {overflowChecks : Bool} {randWeight left right : UInt64}
    {instances : List Instance} {ins : Instance}
    (h : WeightRandomLoadbalancer.walk overflowChecks randWeight left right instances =
      .chosen ins) : ins ∈ instances := by
  induction instances generalizing left right with
  | nil => cases h
  | cons first instances ih =>
      rw [WeightRandomLoadbalancer.walk] at h
      split at h
      · cases h
      · simp only at h
        split at h
        · cases h
          exact List.mem_cons_self
        · exact List.mem_cons_of_mem first (ih h)

theorem mem_of_randomChoice {overflowChecks : Bool} {random : UInt64}
    {instances : ServiceInstances} {ins : Instance}
    (h : WeightRandomLoadbalancer.chooseInstance overflowChecks random instances =
      some (.ok ins)) : ins ∈ instances.instances := by
  unfold WeightRandomLoadbalancer.chooseInstance at h
  simp only at h
  split at h
  · cases h
  · split at h
    · rename_i found hwalk
      cases h
      exact mem_of_walk hwalk
    · cases h
    · split at h
      · cases h
      · obtain ⟨found, hfound, heq⟩ := Option.map_eq_some_iff.mp h
        cases heq
        exact List.mem_of_getElem? hfound

theorem mem_of_select {overflowChecks : Bool} {now : Nat} {instances : List Instance}
    {robins after : RoundRobins} {selection result : WeightedRoundRobinBalancer.Selection}
    {ins : Instance}
    (h : WeightedRoundRobinBalancer.select overflowChecks now instances robins selection =
      .ok (after, result)) (hresult : result.selected = some ins) :
    selection.selected = some ins ∨ ins ∈ instances := by
  induction instances generalizing robins selection with
  | nil =>
      cases h
      exact .inl hresult
  | cons first instances ih =>
      rw [WeightedRoundRobinBalancer.select] at h
      split at h
      · cases h
      · split at h
        · cases h
        · rcases ih h with hbefore | hmem
          · split at hbefore
            · exact .inr (List.mem_cons.mpr (.inl (Option.some.inj hbefore).symm))
            · exact .inl hbefore
          · exact .inr (List.mem_cons_of_mem first hmem)

theorem mem_of_roundRobin {overflowChecks : Bool} {balancer : WeightedRoundRobinBalancer}
    {call : LoadBalance.Call} {ins : Instance}
    (h : (balancer.chooseInstance overflowChecks call).2 = .ok ins) :
    ins ∈ call.instances.instances := by
  unfold WeightedRoundRobinBalancer.chooseInstance at h
  split at h
  · cases h
  · split at h
    · cases h
    · cases h
    · split at h
      · cases h
      · cases h
      · unfold WeightedRoundRobinBalancer.pick at h
        simp only at h
        split at h
        · cases h
        · rename_i after result hselect
          split at h
          · cases h
          · rename_i found hfound
            cases h
            rcases mem_of_select hselect hfound with hstart | hmem
            · cases hstart
            · exact hmem

/-- A balancer returns an instance of its list, or one that stands on a ring of an earlier list
at the same revision. -/
theorem chooseInstance_cases {overflowChecks : Bool} {balancers : Balancers} {draw : Draw}
    {criteria : Criteria} {instances : ServiceInstances} {lb : LoadBalancerPlugin} {ins : Instance}
    (h : (lb.chooseInstance overflowChecks balancers draw criteria instances).2 = .ok ins) :
    ins ∈ instances.instances ∨ lb = .ringHash ∧ ∃ ring,
      balancers.ringHash instances.getCacheKey = some ring ∧
        ring.revision = instances.service.revision ∧ ring.Holds ins := by
  cases lb with
  | weightedRandom =>
      simp only [LoadBalancerPlugin.chooseInstance] at h
      split at h
      · cases h
      · cases h
      · rename_i found hfound
        cases h
        exact .inl (mem_of_randomChoice hfound)
  | weightedRoundRobin =>
      simp only [LoadBalancerPlugin.chooseInstance] at h
      split at h
      · rename_i found hfound
        cases h
        exact .inl (mem_of_roundRobin hfound)
      · cases h
      · cases h
  | ringHash =>
      simp only [LoadBalancerPlugin.chooseInstance] at h
      split at h
      · cases h
      · rename_i found hfound
        cases h
        have hholds := (RingHash.exists_getNode_iff _ _).mp ⟨_, hfound⟩
        rcases @ConsistentHashLoadBalancer.consulted_cases hashOfNode
            balancers.ringHash ⟨criteria.hashKey, instances⟩ with
          hown | ⟨ring, hring, hrevision, heq⟩
        · exact .inl (hown _ hholds)
        · rw [heq] at hholds
          exact .inr ⟨rfl, ring, hring, hrevision, hholds⟩

theorem ringHash_chooseInstance (overflowChecks : Bool) (balancers : Balancers) (draw : Draw)
    (criteria : Criteria) (instances : ServiceInstances) (lb : LoadBalancerPlugin) :
    (lb.chooseInstance overflowChecks balancers draw criteria instances).1.ringHash =
        balancers.ringHash ∨
      (lb.chooseInstance overflowChecks balancers draw criteria instances).1.ringHash =
        ConsistentHashLoadBalancer.step hashOfNode balancers.ringHash
          ⟨criteria.hashKey, instances⟩ := by
  cases lb with
  | weightedRandom => exact .inl rfl
  | weightedRoundRobin => exact .inl rfl
  | ringHash => exact .inr rfl

/-! ## One call -/

theorem route_selects {R : Type} {env : RouterEnv E L F} {req : ProcessRouteRequest R}
    {governance : TrafficGovernanceResult E L F} {response : ProcessRouteResponse E L F}
    (weighed : req.serviceInstances.Weighed) (h : env.route req governance = .ok response) :
    Selects req.serviceInstances response.serviceInstances := by
  unfold RouterEnv.route mockRouteResponse at h
  cases hmock : governance.mock with
  | some mock =>
      rw [hmock] at h
      cases h
      exact .refl weighed
  | none =>
      rw [hmock] at h
      obtain ⟨result, hresult, h⟩ := succeeds_of_bind h
      cases h
      obtain ⟨before, hbefore, hresult⟩ := succeeds_of_bind hresult
      obtain ⟨core, hcore, hafter⟩ := succeeds_of_bind hresult
      have hfirst := runRouters_selects _ _ _ _ _ weighed hbefore
      have hsecond := runRouters_selects _ _ _ _ _ hfirst.weighed hcore
      have hthird := runRouters_selects _ _ _ _ _ hsecond.weighed hafter
      exact (hfirst.trans hsecond).trans hthird

namespace ConsumerCall

/-- A call that is refused, mocked or fails before the balancers leaves them as they are. Any
other was admitted, and a balancer is given what the routers left of the registry's list. -/
theorem answer_cases (balancers : Balancers) (call : ConsumerCall E L F) :
    (call.step balancers = balancers ∧ ∀ ins, (call.answer balancers).2 ≠ .ok ⟨ins, none⟩) ∨
    ∃ item chosen, call.Admitted ∧ call.loaded = .ok item ∧
      Selects (Cache.getServiceInstances item true) chosen ∧
      call.answer balancers =
        ((call.env.loadBalance balancers call.draw call.req.criteria chosen).1,
          (call.env.loadBalance balancers call.draw call.req.criteria chosen).2.map
            fun ins => ⟨ins, none⟩) := by
  unfold step answer ConsumerEnv.getOneInstance
  cases call.req.checkValid with
  | error err => exact .inl ⟨rfl, fun _ h => by cases h⟩
  | ok valid =>
      cases hload : call.loaded with
      | error err =>
          have hinstances : call.env.getServiceInstances call.req.namespaceName call.req.service
              true = .error err := by
            rw [ConsumerEnv.getServiceInstances, ← loaded, hload]
            rfl
          simp only [hinstances]
          exact .inl ⟨trivial, fun _ h => by cases h⟩
      | ok item =>
          have hinstances : call.env.getServiceInstances call.req.namespaceName call.req.service
              true = .ok (Cache.getServiceInstances item true) := by
            rw [ConsumerEnv.getServiceInstances, ← loaded, hload]
            rfl
          simp only [hinstances]
          rcases router_cases call.env.toRouterEnv
              (call.req.routeRequest (Cache.getServiceInstances item true)) with
            ⟨err, hrouter, -⟩ | ⟨rules, hrules, hallowed, hrouter⟩
          · simp only [hrouter]
            exact .inl ⟨trivial, fun _ h => by cases h⟩
          · simp only [hrouter]
            cases hroute : call.env.route (call.req.routeRequest
                (Cache.getServiceInstances item true)) _ with
            | error fault => exact .inl ⟨rfl, fun _ h => by cases h⟩
            | ok response =>
                simp only
                cases hmock : mockInstanceResponse response with
                | some mocked =>
                    refine .inl ⟨rfl, ?_⟩
                    intro ins h
                    cases h
                    unfold mockInstanceResponse at hmock
                    obtain ⟨mock, -, heq⟩ := Option.map_eq_some_iff.mp hmock
                    cases heq
                | none =>
                    have hselects : Selects (Cache.getServiceInstances item true)
                        response.serviceInstances := by
                      apply route_selects _ hroute
                      rfl
                    exact .inr ⟨item, response.serviceInstances, ⟨rules, hrules, hallowed⟩, rfl,
                      hselects, rfl⟩

/-- The ring of a service holds only what admitted calls for it were served, at the revision of
the ring. -/
def RingsServed (balancers : Balancers) (calls : List (ConsumerCall E L F)) : Prop :=
  ∀ key ring, balancers.ringHash key = some ring → ∀ ins, ring.Holds ins →
    ∃ call ∈ calls, call.Served key ring.revision ins

theorem getCacheKey_of_selects {instances chosen : ServiceInstances}
    (selects : Selects instances chosen) : chosen.getCacheKey = instances.getCacheKey := by
  unfold ServiceInstances.getCacheKey
  rw [selects.service]

theorem ringHash_loadBalance (env : ConsumerEnv E L F) (balancers : Balancers) (draw : Draw)
    (criteria : Criteria) (chosen : ServiceInstances) :
    (env.loadBalance balancers draw criteria chosen).1.ringHash = balancers.ringHash ∨
      (env.loadBalance balancers draw criteria chosen).1.ringHash =
        ConsistentHashLoadBalancer.step hashOfNode balancers.ringHash
          ⟨criteria.hashKey, chosen⟩ := by
  unfold ConsumerEnv.loadBalance
  simp only
  split
  · exact .inl rfl
  · exact ringHash_chooseInstance ..

theorem ringsServed_step {balancers : Balancers} {calls : List (ConsumerCall E L F)}
    (served : RingsServed balancers calls) (call : ConsumerCall E L F) :
    RingsServed (call.step balancers) (calls ++ [call]) := by
  have hkept : RingsServed balancers (calls ++ [call]) := by
    intro key ring hring ins hholds
    obtain ⟨earlier, hmem, hearlier⟩ := served key ring hring ins hholds
    exact ⟨earlier, List.mem_append_left _ hmem, hearlier⟩
  rcases answer_cases balancers call with ⟨hstep, -⟩ | ⟨item, chosen, hadmitted, hload, hselects, h⟩
  · rwa [hstep]
  · intro key ring hring ins hholds
    rw [step, h] at hring
    rcases ringHash_loadBalance call.env balancers call.draw call.req.criteria chosen with
      hsame | hconsulted
    · rw [hsame] at hring
      exact hkept key ring hring ins hholds
    · simp only [hconsulted, ConsistentHashLoadBalancer.step] at hring
      by_cases hkey : key = chosen.getCacheKey
      · rw [hkey, Function.update_self] at hring
        obtain rfl := Option.some.inj hring
        have hrevision := @ConsistentHashLoadBalancer.revision_consulted hashOfNode
          balancers.ringHash ⟨call.req.criteria.hashKey, chosen⟩
        rcases @ConsistentHashLoadBalancer.consulted_cases hashOfNode
            balancers.ringHash ⟨call.req.criteria.hashKey, chosen⟩ with
          hown | ⟨former, hformer, -, heq⟩
        · refine ⟨call, List.mem_append_right _ List.mem_cons_self, hadmitted, item, hload, ?_⟩
          refine ⟨?_, ?_, hselects.sublist.subset (hown ins hholds)⟩
          · rw [hkey, getCacheKey_of_selects hselects]
          · rw [hrevision, hselects.service]
            rfl
        · rw [heq] at hholds ⊢
          rw [hkey]
          exact hkept _ former hformer ins hholds
      · rw [Function.update_of_ne hkey] at hring
        exact hkept key ring hring ins hholds

theorem ringsServed_run {balancers : Balancers} {calls : List (ConsumerCall E L F)}
    (served : RingsServed balancers calls) (later : List (ConsumerCall E L F)) :
    RingsServed (run step balancers later) (calls ++ later) := by
  induction later generalizing balancers calls with
  | nil => rwa [List.append_nil]
  | cons call later ih =>
      rw [List.append_cons]
      exact ih (ringsServed_step served call)

/-- An instance that the consumer API hands out comes from the registry: the security rules have
admitted the call, and what the cache holds for its service has the instance among those to call,
or, for the ring hash alone, had it at the same revision at an earlier admitted call. -/
theorem one_instance_from_registry {balancers : Balancers} (fresh : balancers.ringHash = .new)
    (calls : List (ConsumerCall E L F)) (call : ConsumerCall E L F)
    {response : InstanceResponse F} (unmocked : response.mockResponse = none)
    (h : (call.answer (run step balancers calls)).2 = .ok response) :
    call.Admitted ∧ ∃ item, call.loaded = .ok item ∧
      (response.instance ∈ item.listInstances true ∨
        loadBalancers call.lbPolicy = some .ringHash ∧ ∃ earlier ∈ calls,
          earlier.Served (Cache.getServiceInstances item true).getCacheKey item.svcInfo.revision
            response.instance) := by
  obtain ⟨ins, mock⟩ := response
  obtain rfl : mock = none := unmocked
  have hrings : RingsServed (run step balancers calls) calls := by
    have hstart : RingsServed balancers ([] : List (ConsumerCall E L F)) := by
      intro key ring hring
      rw [fresh] at hring
      cases hring
    exact ringsServed_run hstart calls
  rcases answer_cases (run step balancers calls) call with
    ⟨-, hnone⟩ | ⟨item, chosen, hadmitted, hload, hselects, hanswer⟩
  · exact absurd h (hnone ins)
  · refine ⟨hadmitted, item, hload, ?_⟩
    rw [hanswer] at h
    have hbalanced : (call.env.loadBalance (run step balancers calls) call.draw call.req.criteria
        chosen).2 = .ok ins := by
      cases hresult : (call.env.loadBalance (run step balancers calls) call.draw call.req.criteria
          chosen).2 with
      | error fault =>
          rw [hresult] at h
          cases h
      | ok other =>
          rw [hresult] at h
          cases h
          rfl
    unfold ConsumerEnv.loadBalance at hbalanced
    rw [← lbPolicy] at hbalanced
    cases hlb : loadBalancers call.lbPolicy with
    | none =>
        simp only [hlb] at hbalanced
        cases hbalanced
    | some lb =>
        simp only [hlb] at hbalanced
        rcases chooseInstance_cases hbalanced with hmem | ⟨rfl, ring, hring, hrevision, hholds⟩
        · exact .inl (hselects.sublist.subset hmem)
        · refine .inr ⟨rfl, ?_⟩
          obtain ⟨earlier, hmem, hserved⟩ := hrings _ ring hring ins hholds
          rw [hrevision, getCacheKey_of_selects hselects, hselects.service] at hserved
          exact ⟨earlier, hmem, hserved⟩

end ConsumerCall

def ordersItem : ServiceInstancesCacheItem where
  initialized := true
  svcInfo := { (default : SpecService) with
    namespaceName := "prod"
    name := "orders"
    revision := "r1" }
  value := orderInstances.instances
  availableInstances := [orderInstance "b" true 100, orderInstance "c" true 0]
  totalWeight := 100
  revision := "r1"

def ordersCall (policy : String) : ConsumerCall String Unit Unit where
  env :=
    { toRouterEnv := ordersGate []
      loadServiceInstances := fun _ _ => .ok ordersItem
      defaultPolicy := "weightedRandom"
      overflowChecks := true }
  draw := ⟨0, 7⟩
  req :=
    { service := "orders"
      namespaceName := "prod"
      criteria := ⟨policy, "k"⟩
      routeInfo := orderRequest
      distinct := List.nodup_nil }

/-- A call by the default balancer, after one by each of the others. -/
theorem orders_from_registry :
    orderInstance "b" true 100 ∈ ordersItem.listInstances true ∨
      loadBalancers "weightedRandom" = some .ringHash ∧
        ∃ earlier ∈ [ordersCall "ringHash", ordersCall "weightedRoundRobin"],
          earlier.Served (Cache.getServiceInstances ordersItem true).getCacheKey "r1"
            (orderInstance "b" true 100) := by
  have hanswer : ((ordersCall "").answer (run ConsumerCall.step ⟨.new, .new⟩
      [ordersCall "ringHash", ordersCall "weightedRoundRobin"])).2 =
        .ok ⟨orderInstance "b" true 100, none⟩ := rfl
  obtain ⟨-, item, hload, hfrom⟩ := @ConsumerCall.one_instance_from_registry String Unit Unit
    ⟨.new, .new⟩ rfl _ (ordersCall "") _ rfl hanswer
  cases hload
  exact hfrom

end PoleClient.Discovery
