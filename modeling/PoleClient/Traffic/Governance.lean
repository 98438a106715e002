import PoleClient.Traffic.RoutingSelection
import PoleClient.Traffic.Sampling
import PoleClient.Traffic.SecurityDecision

/-! # The gate before the routers

The rules of the callee are read from the cache for every request. Without a
verdict of the security rules there is no answer; rules for mirrors and mocks that
cannot be read are passed over. What is let through is mirrored on the side, and
answered by a mock or by the routers.
-/

namespace PoleClient

open Cache

variable {E L F : Type}

/-! ## The rules of the callee -/

structure TrafficGovernanceRules (E L F : Type) where
  securityRules : List (TrafficSecurityRule E)
  mirrorRules : List (TrafficMirror L)
  mockRules : List (TrafficMock F)

structure TrafficGovernanceResult (E L F : Type) where
  security : TrafficSecurityDecision E
  mirrors : List (MirrorDestination L)
  mock : Option (MockResponse F)

/-- A governance rule as the cache hands it out, of any type. -/
inductive CachedGovernance (E L F : Type) where
  | security (rule : TrafficSecurityRule E)
  | mirror (rule : TrafficMirror L)
  | mock (rule : TrafficMock F)
  | other (typeId : String)

namespace CachedGovernance

def downcastSecurity : CachedGovernance E L F → Option (TrafficSecurityRule E)
  | .security rule => some rule
  | _ => none

def downcastMirror : CachedGovernance E L F → Option (TrafficMirror L)
  | .mirror rule => some rule
  | _ => none

def downcastMock : CachedGovernance E L F → Option (TrafficMock F)
  | .mock rule => some rule
  | _ => none

end CachedGovernance

/-- What the gate uses of other packages and of the cache. -/
structure GovernanceEnv (E L F : Type) where
  regex : RegexEngine
  crypto : SecurityCrypto
  hasher : TextHasher
  typeId : CachedGovernance E L F → String
  loadServiceRule : ResourceEventKey → Except PoleError (ServiceRule (CachedGovernance E L F))

def downcastRuleList {α : Type} (typeId : CachedGovernance E L F → String)
    (downcast : CachedGovernance E L F → Option α) (expected : String) :
    List (CachedGovernance E L F) → Except PoleError (List α)
  | [] => .ok []
  | rule :: rules =>
      match downcast rule with
      | none => .error (.new .invalidRule
          ("rule type error, expect " ++ expected ++ ", but got " ++ typeId rule))
      | some typed =>
          (downcastRuleList typeId downcast expected rules).map fun rest => typed :: rest

namespace GovernanceEnv

variable (env : GovernanceEnv E L F) (ctx : SampledContext)

def evaluateTrafficGovernance (rules : TrafficGovernanceRules E L F) :
    TrafficGovernanceResult E L F where
  security := evaluateSecurity env.regex env.crypto ctx.toRouteContext rules.securityRules
  mirrors := evaluateMirrors env.regex env.hasher ctx rules.mirrorRules
  mock := evaluateMock env.regex env.hasher ctx rules.mockRules

def loadTrafficServiceRule (type : GovernanceType) :
    Except PoleError (ServiceRule (CachedGovernance E L F)) :=
  env.loadServiceRule (serviceRuleKey ctx.routeInfo.callee type)

def typedRules {α : Type} (type : GovernanceType)
    (downcast : CachedGovernance E L F → Option α) (expected : String) :
    Except PoleError (List α) := do
  let rule ← env.loadTrafficServiceRule ctx type
  downcastRuleList env.typeId downcast expected rule.rules

def securityRules : Except PoleError (List (TrafficSecurityRule E)) :=
  env.typedRules ctx .trafficSecurityRule CachedGovernance.downcastSecurity "TrafficSecurityRule"

/-- Mirror rules that cannot be read, or are of another type, are no rules. -/
def mirrorRules : List (TrafficMirror L) :=
  match env.typedRules ctx .trafficMirrorRule CachedGovernance.downcastMirror "TrafficMirror" with
  | .ok rules => rules
  | .error _ => []

def mockRules : List (TrafficMock F) :=
  match env.typedRules ctx .trafficMockRule CachedGovernance.downcastMock "TrafficMock" with
  | .ok rules => rules
  | .error _ => []

def evaluateTrafficGovernanceFromCache : Except PoleError (TrafficGovernanceResult E L F) := do
  let securityRules ← env.securityRules ctx
  return env.evaluateTrafficGovernance ctx
    ⟨securityRules, env.mirrorRules ctx, env.mockRules ctx⟩

end GovernanceEnv

/-! ## The router API -/

/-- `R` stands for the request that a mirror repeats, which is copied and never read. -/
structure ProcessRouteRequest (R : Type) where
  serviceInstances : ServiceInstances
  routeInfo : RoutingInfo
  distinct : (routeInfo.metadata.map Prod.fst).Nodup
  mirrorRequest : Option R

structure ProcessRouteResponse (E L F : Type) where
  serviceInstances : ServiceInstances
  trafficGovernance : TrafficGovernanceResult E L F

variable {R : Type}

/-- The router API has no caller that it has authenticated. -/
def ProcessRouteRequest.context (req : ProcessRouteRequest R) : SampledContext where
  routeInfo := req.routeInfo.toRouteInfo
  authenticatedCaller := none
  metadata := req.routeInfo.metadata
  distinct := req.distinct

/-- The code and the message of a reject effect. -/
abbrev RejectTexts (E : Type) : Type := E → String × String

def deniedError (texts : RejectTexts E) (security : TrafficSecurityDecision E) : PoleError :=
  .new .unauthorized ((security.rejectEffect.map fun effect =>
    "traffic security denied: code=" ++ (texts effect).1 ++ " message=" ++ (texts effect).2).getD
    "traffic security denied")

def rejectDeniedTraffic (texts : RejectTexts E) (governance : TrafficGovernanceResult E L F) :
    Except PoleError Unit :=
  if governance.security.allowed then .ok () else .error (deniedError texts governance.security)

def mockRouteResponse (governance : TrafficGovernanceResult E L F)
    (serviceInstances : ServiceInstances) : Option (ProcessRouteResponse E L F) :=
  match governance.mock with
  | none => none
  | some _ => some ⟨serviceInstances, governance⟩

/-- The requests that are sent on the side. -/
def dispatchRouteMirrors (hasSender : Bool) (governance : TrafficGovernanceResult E L F)
    (mirrorRequest : Option R) : List (MirrorDestination L × R) :=
  if governance.mirrors.isEmpty then []
  else if !hasSender then []
  else
    match mirrorRequest with
    | none => []
    | some request => governance.mirrors.map fun destination => (destination, request)

/-- The router API with the routers behind it. -/
structure RouterEnv (E L F : Type) extends GovernanceEnv E L F where
  texts : RejectTexts E
  hasSender : Bool
  library : RouterLibrary
  container : RouterContainer
  extensions : Nat → Extensions

/-- What a call of the router API has sent, and how it ends. -/
structure RouterRun (E L F R : Type) where
  mirrored : List (MirrorDestination L × R)
  result : Except RouteFault (ProcessRouteResponse E L F)

def RouterEnv.route (env : RouterEnv E L F) (req : ProcessRouteRequest R)
    (governance : TrafficGovernanceResult E L F) :
    Except RouteFault (ProcessRouteResponse E L F) :=
  match mockRouteResponse governance req.serviceInstances with
  | some response => .ok response
  | none => do
      let result ← RouterFlow.chooseInstances env.library env.container env.extensions
        req.routeInfo req.serviceInstances
      return ⟨result, governance⟩

def RouterEnv.router (env : RouterEnv E L F) (req : ProcessRouteRequest R) : RouterRun E L F R :=
  match env.evaluateTrafficGovernanceFromCache req.context with
  | .error err => ⟨[], .error (.failed err)⟩
  | .ok governance =>
      match rejectDeniedTraffic env.texts governance with
      | .error err => ⟨[], .error (.failed err)⟩
      | .ok () =>
          ⟨dispatchRouteMirrors env.hasSender governance req.mirrorRequest,
            env.route req governance⟩

/-! ## A gate for the service orders -/

def managedRule : TrafficSecurityRule String where
  enable := true
  priority := 0
  authentication := some ⟨.known .managedIdentity, some {}, none⟩
  policies := [⟨[], none, some ⟨true, []⟩, .allow, some "managed"⟩]

def shadowMirror : TrafficMirror Unit where
  enable := true
  priority := 0
  caller := none
  rules := [mirrorRule "shadow" 100]

/-- The gate with these security rules and the mirror, and no mock rules in reach. -/
def ordersGate (securityRules : List (TrafficSecurityRule String)) :
    RouterEnv String Unit Unit where
  regex := fun _ => none
  crypto := secretCrypto
  hasher := fun _ => 0
  typeId := fun _ => ""
  loadServiceRule := fun key =>
    match key.eventType with
    | .governance .trafficSecurityRule => .ok ⟨securityRules.map .security, "r1", true⟩
    | .governance .trafficMirrorRule => .ok ⟨[.mirror shadowMirror], "r1", true⟩
    | _ => .error loadTimeout
  texts := fun effect => ("DENIED", effect)
  hasSender := true
  library := orderLibrary
  container := orderRouters
  extensions := fun _ => orderExtensions

def ordersRoute : ProcessRouteRequest String where
  serviceInstances := orderInstances
  routeInfo := orderRequest
  distinct := List.nodup_nil
  mirrorRequest := some "GET /orders"

/-! ## What is let through -/

section Router

variable {env : RouterEnv E L F} {req : ProcessRouteRequest R}

/-- A call is refused before anything else happens, or let through by security rules that could be
read. -/
theorem router_cases (env : RouterEnv E L F) (req : ProcessRouteRequest R) :
    (∃ err, env.router req = ⟨[], .error (.failed err)⟩ ∧
      (∀ rules, env.securityRules req.context = .ok rules →
        (evaluateSecurity env.regex env.crypto req.context.toRouteContext rules).allowed = false ∧
          err.errCode = .unauthorized)) ∨
    ∃ rules, env.securityRules req.context = .ok rules ∧
      (evaluateSecurity env.regex env.crypto req.context.toRouteContext rules).allowed = true ∧
      env.router req =
        ⟨dispatchRouteMirrors env.hasSender (env.evaluateTrafficGovernance req.context
            ⟨rules, env.mirrorRules req.context, env.mockRules req.context⟩) req.mirrorRequest,
          env.route req (env.evaluateTrafficGovernance req.context
            ⟨rules, env.mirrorRules req.context, env.mockRules req.context⟩)⟩ := by
  unfold RouterEnv.router GovernanceEnv.evaluateTrafficGovernanceFromCache
  cases hrules : env.securityRules req.context with
  | error err =>
      refine .inl ⟨err, rfl, ?_⟩
      intro rules h
      cases h
  | ok rules =>
      simp only [bind, Except.bind, pure, Except.pure, rejectDeniedTraffic,
        GovernanceEnv.evaluateTrafficGovernance]
      cases hallowed : (evaluateSecurity env.regex env.crypto req.context.toRouteContext
          rules).allowed with
      | true =>
          refine .inr ⟨rules, rfl, hallowed, ?_⟩
          simp
      | false =>
          refine .inl ⟨_, rfl, ?_⟩
          intro other h
          cases h
          exact ⟨hallowed, rfl⟩

theorem not_admitted_of_managed {crypto : SecurityCrypto} {ctx : RouteContext}
    {rule : TrafficSecurityRule E} (hcaller : ctx.authenticatedCaller = none)
    (hmanaged : isManagedIdentity rule = true) :
    ¬ AuthenticationAccepted crypto ctx rule.authentication := by
  unfold isManagedIdentity at hmanaged
  cases hauthentication : rule.authentication with
  | none =>
      rw [hauthentication] at hmanaged
      cases hmanaged
  | some authentication =>
      rw [hauthentication] at hmanaged
      have hmode : authentication.mode = .known .managedIdentity := by
        cases hmode : authentication.mode with
        | unknown number =>
            rw [Option.map_some, Option.getD_some, hmode] at hmanaged
            cases hmanaged
        | known mode =>
            rw [Option.map_some, Option.getD_some, hmode] at hmanaged
            exact congrArg ProtoEnum.known (eq_of_beq hmanaged)
      simp only [AuthenticationAccepted, hmode]
      exact fun h => h.2.2 hcaller

/-- No caller is ever authenticated here: where the first rules for the request do not allow it, a
rule for managed identities refuses it, whoever it names. Nothing is mirrored, mocked or routed. -/
theorem managed_rule_closes_router
    (hexDigits : ∀ s bytes, env.crypto.hexDecode s = some bytes →
      ∀ c ∈ s.toList, Text.isHexDigit c = true)
    {rules before after : List (TrafficSecurityRule E)} {rule : TrafficSecurityRule E}
    (hrules : env.securityRules req.context = .ok rules)
    (hkept : (securityOrder rules).filter (fun rule =>
        !(indexedPolicies env.regex req.context.toRouteContext rule).isEmpty) =
      before ++ rule :: after)
    (hmanaged : isManagedIdentity rule = true)
    (hbefore : ∀ earlier ∈ before, ¬ RuleAllows env.regex env.crypto req.context.toRouteContext
      (indexedPolicies env.regex req.context.toRouteContext) earlier) :
    ∃ err, env.router req = ⟨[], .error (.failed err)⟩ ∧ err.errCode = .unauthorized := by
  have hdenied : (evaluateSecurity env.regex env.crypto req.context.toRouteContext
      rules).allowed ≠ true := by
    intro hallowed
    unfold evaluateSecurity evaluateSecurityWith at hallowed
    rw [securityScan_allowed_iff hexDigits, hkept] at hallowed
    have hdenies : RuleDenies env.regex env.crypto req.context.toRouteContext
        (indexedPolicies env.regex req.context.toRouteContext) rule :=
      .inl (not_admitted_of_managed rfl hmanaged)
    obtain ⟨i, hi, earlier, hearlier, hallows⟩ :=
      hallowed before.length rule (by simp) hdenies
    rw [List.getElem?_append_left hi] at hearlier
    exact hbefore earlier (List.mem_of_getElem? hearlier) hallows
  rcases router_cases env req with ⟨err, hrouter, hcode⟩ | ⟨found, hfound, hallowed, -⟩
  · exact ⟨err, hrouter, (hcode rules hrules).2⟩
  · rw [hrules] at hfound
    cases hfound
    exact absurd hallowed hdenied

theorem managed_rule_closes_orders :
    ∃ err, (ordersGate [managedRule]).router ordersRoute = ⟨[], .error (.failed err)⟩ ∧
      err.errCode = .unauthorized := by
  have hkept : (securityOrder [managedRule]).filter (fun rule =>
      !(indexedPolicies (ordersGate [managedRule]).regex ordersRoute.context.toRouteContext
        rule).isEmpty) = [] ++ managedRule :: [] := rfl
  exact managed_rule_closes_router secretCrypto_hexDigits rfl hkept rfl (by simp)

/-- What an answer says apart from its destinations. -/
def ProcessRouteResponse.main (response : ProcessRouteResponse E L F) :
    ServiceInstances × TrafficSecurityDecision E × Option (MockResponse F) :=
  (response.serviceInstances, response.trafficGovernance.security, response.trafficGovernance.mock)

theorem route_main (env : RouterEnv E L F) (req : ProcessRouteRequest R)
    {governance other : TrafficGovernanceResult E L F}
    (hsecurity : governance.security = other.security) (hmock : governance.mock = other.mock) :
    (env.route req governance).map ProcessRouteResponse.main =
      (env.route req other).map ProcessRouteResponse.main := by
  unfold RouterEnv.route mockRouteResponse
  rw [← hmock]
  cases hmocked : governance.mock with
  | some response =>
      simp only [Except.map, ProcessRouteResponse.main, hsecurity, ← hmock]
  | none =>
      cases RouterFlow.chooseInstances env.library env.container env.extensions req.routeInfo
        req.serviceInstances with
      | error fault => rfl
      | ok result =>
          simp only [bind, Except.bind, pure, Except.pure, Except.map, ProcessRouteResponse.main,
            hsecurity, hmock]

def RouterEnv.withLoads (env : RouterEnv E L F)
    (loads : ResourceEventKey → Except PoleError (ServiceRule (CachedGovernance E L F)))
    (hasSender : Bool) : RouterEnv E L F :=
  { env with
    loadServiceRule := loads
    hasSender := hasSender }

def ProcessRouteRequest.repeating (req : ProcessRouteRequest R) (mirrorRequest : Option R) :
    ProcessRouteRequest R :=
  { req with mirrorRequest := mirrorRequest }

theorem typedRules_withLoads {α : Type} (env : RouterEnv E L F) (ctx : SampledContext)
    {loads : ResourceEventKey → Except PoleError (ServiceRule (CachedGovernance E L F))}
    (hasSender : Bool) {type : GovernanceType}
    (hloads : loads (serviceRuleKey ctx.routeInfo.callee type) =
      env.loadServiceRule (serviceRuleKey ctx.routeInfo.callee type))
    (downcast : CachedGovernance E L F → Option α) (expected : String) :
    (env.withLoads loads hasSender).typedRules ctx type downcast expected =
      env.typedRules ctx type downcast expected := by
  unfold GovernanceEnv.typedRules GovernanceEnv.loadTrafficServiceRule
  simp only [RouterEnv.withLoads, hloads]

/-- The answer of the router API does not depend on the mirror rules, nor on there being a sender
or a request to repeat, but for the destinations that it reports; and what is sent repeats the
request to destinations of the mirror rules, once the security rules have allowed it. -/
theorem mirrors_on_the_side (env : RouterEnv E L F) (req : ProcessRouteRequest R)
    {loads : ResourceEventKey → Except PoleError (ServiceRule (CachedGovernance E L F))}
    (hloads : ∀ key, key.eventType ≠ .governance .trafficMirrorRule →
      loads key = env.loadServiceRule key)
    (hasSender : Bool) (mirrorRequest : Option R) :
    ((env.withLoads loads hasSender).router
        (req.repeating mirrorRequest)).result.map ProcessRouteResponse.main =
      (env.router req).result.map ProcessRouteResponse.main ∧
    ∀ sent ∈ (env.router req).mirrored, req.mirrorRequest = some sent.2 ∧
      sent.1 ∈ evaluateMirrors env.regex env.hasher req.context (env.mirrorRules req.context) ∧
      ∃ rules, env.securityRules req.context = .ok rules ∧
        (evaluateSecurity env.regex env.crypto req.context.toRouteContext
          rules).allowed = true := by
  constructor
  · have hsecurity : (env.withLoads loads hasSender).securityRules req.context =
        env.securityRules req.context :=
      typedRules_withLoads env req.context hasSender (hloads _ (by simp [serviceRuleKey])) _ _
    have hmock : (env.withLoads loads hasSender).mockRules req.context =
        env.mockRules req.context := by
      unfold GovernanceEnv.mockRules
      rw [typedRules_withLoads env req.context hasSender (hloads _ (by simp [serviceRuleKey]))]
    have hroute : ∀ governance, (env.withLoads loads hasSender).route
        (req.repeating mirrorRequest) governance = env.route req governance :=
      fun _ => rfl
    have hcontext : (req.repeating mirrorRequest).context = req.context := rfl
    unfold RouterEnv.router GovernanceEnv.evaluateTrafficGovernanceFromCache
    rw [hcontext, hsecurity, hmock]
    cases env.securityRules req.context with
    | error err => rfl
    | ok rules =>
        simp only [bind, Except.bind, pure, Except.pure, rejectDeniedTraffic, hroute]
        by_cases hallowed : (evaluateSecurity env.regex env.crypto req.context.toRouteContext
            rules).allowed = true
        · simp only [GovernanceEnv.evaluateTrafficGovernance, RouterEnv.withLoads, hallowed,
            if_true]
          exact route_main env req rfl rfl
        · simp only [GovernanceEnv.evaluateTrafficGovernance, RouterEnv.withLoads, hallowed]
          rfl
  · intro sent hsent
    rcases router_cases env req with ⟨err, hrouter, -⟩ | ⟨rules, hrules, hallowed, hrouter⟩
    · rw [hrouter] at hsent
      cases hsent
    · rw [hrouter] at hsent
      simp only [dispatchRouteMirrors] at hsent
      split at hsent
      · cases hsent
      · split at hsent
        · cases hsent
        · split at hsent
          · cases hsent
          · rename_i request hrequest
            obtain ⟨destination, hdestination, rfl⟩ := List.mem_map.mp hsent
            exact ⟨hrequest, hdestination, rules, hrules, hallowed⟩

/-- The request is repeated to the shadow; without rules, sender and request the answer is the
same. -/
theorem orders_mirrored_on_the_side :
    (((ordersGate []).withLoads (fun key =>
        if key.eventType = .governance .trafficMirrorRule then .error loadTimeout
        else (ordersGate []).loadServiceRule key) false).router
          (ordersRoute.repeating none)).result.map ProcessRouteResponse.main =
      ((ordersGate []).router ordersRoute).result.map ProcessRouteResponse.main ∧
    ((ordersGate []).router ordersRoute).mirrored = [(⟨"prod", "shadow", ()⟩, "GET /orders")] ∧
    ordersRoute.mirrorRequest = some "GET /orders" ∧
    (⟨"prod", "shadow", ()⟩ : MirrorDestination Unit) ∈ evaluateMirrors (ordersGate []).regex
      (ordersGate []).hasher ordersRoute.context ((ordersGate []).mirrorRules ordersRoute.context) ∧
    ∃ rules, (ordersGate []).securityRules ordersRoute.context = .ok rules ∧
      (evaluateSecurity (ordersGate []).regex (ordersGate []).crypto
        ordersRoute.context.toRouteContext rules).allowed = true := by
  obtain ⟨hmain, hsent⟩ :=
    mirrors_on_the_side (ordersGate []) ordersRoute (fun _ hkey => if_neg hkey) false none
  have hmirrored : ((ordersGate []).router ordersRoute).mirrored =
      [(⟨"prod", "shadow", ()⟩, "GET /orders")] := rfl
  refine ⟨hmain, hmirrored, hsent (⟨"prod", "shadow", ()⟩, "GET /orders") ?_⟩
  rw [hmirrored]
  exact List.mem_cons_self

end Router

end PoleClient
