import Mathlib.Data.String.Basic
import PoleClient.RateLimit.Endpoints
import PoleClient.RateLimit.Settlement

/-! # Windows of the distributed quota

A spec names the window on the limiter that its quota is counted in. The labels
of the window are the part of the key that all clients share; the rule revision
and the endpoint keep the windows of one client apart. The requests that ready a
window and reserve from it are built here.
-/

namespace PoleClient.RateLimit

/-! ## Specs -/

inductive AmountMode where
  | shareEqually
  | globalTotal
deriving DecidableEq, Repr

/-- A quota to reserve, with the revision of its rule and the amount mode of its trigger. -/
structure DistributedQuotaSpec extends QuotaSpec where
  revision : String
  amountMode : AmountMode
deriving DecidableEq, Repr

def undeclaredClusterError (rule : RateLimitRule) : PoleError :=
  .new .invalidRule ("global rate limit rule " ++ rule.id ++ " does not declare cluster")

def invalidClusterError (rule : RateLimitRule) : PoleError :=
  .new .invalidRule ("global rate limit rule " ++ rule.id ++ " has an invalid cluster")

def missingClusterError : PoleError :=
  .new .invalidRule "global rate limit rule does not declare cluster"

def severalClustersError : PoleError :=
  .new .invalidRule "one quota lease cannot span multiple limiter clusters"

def ensureSameCluster (specs : List DistributedQuotaSpec) : Except PoleError Unit :=
  match specs.head?.bind fun spec => spec.rule.cluster with
  | none => .error missingClusterError
  | some first =>
      if specs.all fun spec => spec.rule.cluster == some first then .ok ()
      else .error severalClustersError

/-! ## Labels -/

def MatchArgumentType.typeName : MatchArgumentType → String
  | custom => "CUSTOM"
  | method => "METHOD"
  | header => "HEADER"
  | query => "QUERY"
  | callerService => "CALLER_SERVICE"
  | callerIp => "CALLER_IP"
  | callerMetadata => "CALLER_METADATA"

def LimitResource.remoteName : LimitResource → String
  | qps => "QPS"
  | token => "TOKEN"
  | concurrency => "CONCURRENCY"
  | other => "UNKNOWN"

/-- The label of an argument; one without a value to match has none. -/
def remoteArgumentLabel (req : QuotaRequest) (argument : MatchArgument) : Option String :=
  argument.value.map fun value =>
    let providerKey :=
      if value.valueType.get = .parameter && !value.value.isEmpty then value.value
      else argument.key
    let actual :=
      if argument.type = .method then req.method
      else (req.trafficLabelProvider (ratelimitArgumentType argument.type) providerKey).getD ""
    match argument.type with
    | .method | .callerIp => argument.type.typeName ++ ":" ++ actual
    | _ => argument.type.typeName ++ ":" ++ argument.key ++ ":" ++ actual

def remoteQuotaLabels (req : QuotaRequest) (trigger : LimitTrigger) : String :=
  let arguments := (trigger.arguments.filterMap (remoteArgumentLabel req)).insertionSort (· ≤ ·)
  req.method ++ "|RESOURCE:" ++ trigger.resource.remoteName ++ "|" ++ "|".intercalate arguments

/-! ## Keys -/

structure QuotaWindowKey where
  endpoint : String
  clusterNamespace : String
  clusterService : String
  targetNamespace : String
  targetService : String
  labels : String
  ruleId : String
  triggerName : String
  ruleRevision : String
deriving DecidableEq, Repr

namespace QuotaWindowKey

def fromRule (req : QuotaRequest) (spec : DistributedQuotaSpec) (endpoint : String) :
    Except PoleError QuotaWindowKey :=
  match spec.rule.cluster with
  | none => .error (undeclaredClusterError spec.rule)
  | some cluster =>
      if cluster.namespaceName.isEmpty || cluster.name.isEmpty then
        .error (invalidClusterError spec.rule)
      else
        .ok {
          endpoint := endpoint
          clusterNamespace := cluster.namespaceName
          clusterService := cluster.name
          targetNamespace := req.namespaceName
          targetService := req.service
          labels := remoteQuotaLabels req spec.trigger
          ruleId := spec.rule.id
          triggerName := spec.trigger.name
          ruleRevision := spec.revision }

/-- The key is one of the same window under another revision or on another endpoint. -/
def staleFor (key current : QuotaWindowKey) : Bool :=
  key.clusterNamespace == current.clusterNamespace &&
    key.clusterService == current.clusterService &&
    key.targetNamespace == current.targetNamespace &&
    key.targetService == current.targetService && key.labels == current.labels &&
    key.ruleId == current.ruleId && key.triggerName == current.triggerName && key != current

end QuotaWindowKey

/-- What the endpoint of a window is chosen by. -/
def windowAffinity (req : QuotaRequest) (spec : DistributedQuotaSpec) : Except PoleError String :=
  match spec.rule.cluster with
  | none => .error (undeclaredClusterError spec.rule)
  | some cluster =>
      .ok (cluster.namespaceName ++ "#" ++ cluster.name ++ "#" ++ req.namespaceName ++ "#" ++
        req.service ++ "#" ++ remoteQuotaLabels req spec.trigger)

def callAffinity (req : QuotaRequest) (specs : List DistributedQuotaSpec) :
    Except PoleError String :=
  (specs.mapM (windowAffinity req)).map fun affinities => "|".intercalate affinities

/-! ## Requests -/

structure LimitTarget where
  namespaceName : String
  service : String
  labels : String
deriving DecidableEq, Repr

def QuotaWindowKey.target (key : QuotaWindowKey) : LimitTarget :=
  ⟨key.targetNamespace, key.targetService, key.labels⟩

inductive RemoteQuotaMode where
  | whole
  | divide
deriving DecidableEq, Repr

def quotaMode : AmountMode → RemoteQuotaMode
  | .shareEqually => .divide
  | .globalTotal => .whole

structure QuotaTotal where
  mode : RemoteQuotaMode
  duration : UInt32
  maxAmount : UInt32
  accounting : QuotaAccounting
deriving DecidableEq, Repr

structure RateLimitInitRequest where
  target : LimitTarget
  clientId : String
  totals : List QuotaTotal
deriving DecidableEq, Repr

structure RateLimitInitResponse where
  code : UInt32
  clientKey : UInt32
  counters : List UInt32
deriving DecidableEq, Repr

structure QuotaReservation where
  counterKey : UInt32
  amount : UInt32
deriving DecidableEq, Repr

structure QuotaReserveRequest where
  clientKey : UInt32
  reservations : List QuotaReservation
  ttlSeconds : UInt32
deriving DecidableEq, Repr

/-- The seconds are cut to 32 bits. -/
def amountDurationSeconds (amount : Amount) : UInt32 :=
  (amount.validDuration.map fun seconds => UInt32.ofNat (max seconds 1).toNat).getD 1

def noQuotaTotalError (trigger : LimitTrigger) : PoleError :=
  .new .invalidRule ("rate limit trigger " ++ trigger.name ++ " has no quota total")

def quotaTotals (spec : DistributedQuotaSpec) : List QuotaTotal :=
  let accounting := quotaAccounting spec.trigger.resource
  match spec.trigger.resource with
  | .qps | .token =>
      (spec.trigger.amounts.filter fun amount => amount.maxAmount > 0).map fun amount =>
        ⟨quotaMode spec.amountMode, amountDurationSeconds amount, amount.maxAmount, accounting⟩
  | .concurrency =>
      ((spec.trigger.concurrencyAmount.filter (· > 0)).map fun maxAmount =>
        [⟨quotaMode spec.amountMode, 0, maxAmount, accounting⟩]).getD []
  | .other => []

def buildInitRequest (clientId : String) (key : QuotaWindowKey) (spec : DistributedQuotaSpec) :
    Except PoleError RateLimitInitRequest :=
  if (quotaTotals spec).isEmpty then .error (noQuotaTotalError spec.trigger)
  else .ok ⟨key.target, clientId, quotaTotals spec⟩

/-- Whole seconds, rounded up, at least one. -/
def ttlSeconds (ttl : Nat) : UInt32 :=
  let rounded := max (ttl / nanosPerSecond + if ttl % nanosPerSecond > 0 then 1 else 0) 1
  UInt32.ofNat (min rounded (2 ^ 32 - 1))

def buildReserveRequest (req : QuotaRequest) (clientKey : UInt32)
    (groups : List LeaseCounterGroup) : QuotaReserveRequest where
  clientKey := clientKey
  reservations := groups.flatMap fun group => group.counterKeys.map (⟨·, group.amount⟩)
  ttlSeconds := ttlSeconds req.leaseTtl

/-! ## The shared part of a key -/

section Shared

variable {req : QuotaRequest} {spec other : DistributedQuotaSpec}

theorem remoteQuotaLabels_perm {trigger permuted : LimitTrigger}
    (resource : permuted.resource = trigger.resource)
    (arguments : permuted.arguments.Perm trigger.arguments) :
    remoteQuotaLabels req permuted = remoteQuotaLabels req trigger := by
  have hlabels : (permuted.arguments.filterMap (remoteArgumentLabel req)).Perm
      (trigger.arguments.filterMap (remoteArgumentLabel req)) :=
    arguments.filterMap (remoteArgumentLabel req)
  have hsorted : (permuted.arguments.filterMap (remoteArgumentLabel req)).insertionSort (· ≤ ·) =
      (trigger.arguments.filterMap (remoteArgumentLabel req)).insertionSort (· ≤ ·) := by
    apply List.Perm.eq_of_pairwise _ (List.pairwise_insertionSort _ _)
      (List.pairwise_insertionSort _ _)
    · exact (List.perm_insertionSort _ _).trans (hlabels.trans (List.perm_insertionSort _ _).symm)
    · exact fun _ _ _ _ hab hba => le_antisymm hab hba
  unfold remoteQuotaLabels
  rw [resource, hsorted]

theorem leaseTtl_of_checkValid (valid : req.checkValid = .ok ()) :
    0 < req.leaseTtl ∧ req.leaseTtl ≤ (2 ^ 32 - 1) * nanosPerSecond := by
  unfold QuotaRequest.checkValid at valid
  split at valid
  · cases valid
  split at valid
  · cases valid
  split at valid
  · cases valid
  cases hquotas : checkQuotas [] req.quotas with
  | error err =>
      rw [hquotas] at valid
      cases valid
  | ok _ =>
      simp only [hquotas] at valid
      by_cases hzero : req.leaseTtl = 0
      · rw [if_pos hzero] at valid
        cases valid
      · rw [if_neg hzero] at valid
        by_cases hlong : req.leaseTtl > (2 ^ 32 - 1) * nanosPerSecond
        · rw [if_pos hlong] at valid
          cases valid
        · exact ⟨Nat.pos_of_ne_zero hzero, Nat.le_of_not_lt hlong⟩

/-- The lease lives on the limiter at least as long as here, and less than a second longer. -/
theorem ttlSeconds_bounds (valid : req.checkValid = .ok ()) :
    req.leaseTtl ≤ (ttlSeconds req.leaseTtl).toNat * nanosPerSecond ∧
      (ttlSeconds req.leaseTtl).toNat * nanosPerSecond < req.leaseTtl + nanosPerSecond := by
  obtain ⟨hpos, hle⟩ := leaseTtl_of_checkValid valid
  unfold ttlSeconds nanosPerSecond at *
  generalize req.leaseTtl = ttl at *
  rw [UInt32.toNat_ofNat']
  by_cases hrest : ttl % 1000000000 > 0
  · rw [if_pos hrest]
    omega
  · rw [if_neg hrest]
    omega

/-- Specs whose quota is counted together: the rules may have other names and revisions, and list
the arguments in another order. -/
structure SharesBucket (spec other : DistributedQuotaSpec) : Prop where
  cluster : other.rule.cluster = spec.rule.cluster
  resource : other.trigger.resource = spec.trigger.resource
  arguments : other.trigger.arguments.Perm spec.trigger.arguments

theorem windowAffinity_sharesBucket {affinity : String} (h : SharesBucket spec other)
    (haffinity : windowAffinity req spec = .ok affinity) :
    windowAffinity req other = .ok affinity := by
  unfold windowAffinity at *
  rw [h.cluster, remoteQuotaLabels_perm h.resource h.arguments]
  cases hcluster : spec.rule.cluster with
  | none => simp [hcluster] at haffinity
  | some cluster => simpa [hcluster] using haffinity

theorem callAffinity_sharesBucket {specs others : List DistributedQuotaSpec} {affinity : String}
    (h : List.Forall₂ SharesBucket specs others)
    (haffinity : callAffinity req specs = .ok affinity) :
    callAffinity req others = .ok affinity := by
  have hparts : ∀ parts, specs.mapM (windowAffinity req) = .ok parts →
      others.mapM (windowAffinity req) = .ok parts := by
    clear haffinity
    induction h with
    | nil => exact fun parts hparts => hparts
    | cons hspec _ ih =>
        intro parts hparts
        rw [List.mapM_cons] at hparts ⊢
        obtain ⟨part, hpart, hrest⟩ := succeeds_of_bind hparts
        obtain ⟨rest, hrest, hcons⟩ := succeeds_of_bind hrest
        rw [windowAffinity_sharesBucket hspec hpart]
        simp only [bind, Except.bind, ih rest hrest]
        exact hcons
  unfold callAffinity at *
  cases hmap : specs.mapM (windowAffinity req) with
  | error err =>
      rw [hmap] at haffinity
      cases haffinity
  | ok parts =>
      rw [hparts parts hmap, ← hmap]
      exact haffinity

theorem target_sharesBucket {endpoint : String} {key otherKey : QuotaWindowKey}
    (h : SharesBucket spec other) (hkey : QuotaWindowKey.fromRule req spec endpoint = .ok key)
    (hother : QuotaWindowKey.fromRule req other endpoint = .ok otherKey) :
    otherKey.target = key.target := by
  unfold QuotaWindowKey.fromRule at *
  rw [h.cluster, remoteQuotaLabels_perm h.resource h.arguments] at hother
  cases hcluster : spec.rule.cluster with
  | none => simp [hcluster] at hkey
  | some cluster =>
      simp only [hcluster] at hkey hother
      split at hkey
      · cases hkey
      · rename_i hvalid
        rw [if_neg hvalid] at hother
        rw [← Except.ok.inj hkey, ← Except.ok.inj hother]
        rfl

/-- Clients that see the same endpoints, and are bound to none that is left, count the same quota
in the same place: they choose the same endpoint and name the same targets there. -/
theorem bucket_shared (env : EndpointEnv) (req : QuotaRequest)
    {specs others : List DistributedQuotaSpec} {affinity : String} {instances seen : List Instance}
    {before otherBefore : List EndpointCall} (same : List.Forall₂ SharesBucket specs others)
    (haffinity : callAffinity req specs = .ok affinity)
    (offers : ∀ endpoint, Offers seen endpoint ↔ Offers instances endpoint)
    (unbound : ¬UsablyBound env before ⟨affinity, instances⟩)
    (otherUnbound : ¬UsablyBound env otherBefore ⟨affinity, seen⟩) :
    callAffinity req others = .ok affinity ∧
    answerAfter env otherBefore ⟨affinity, seen⟩ = answerAfter env before ⟨affinity, instances⟩ ∧
    ∀ endpoint, List.Forall₂ (fun spec other => ∀ key otherKey,
      QuotaWindowKey.fromRule req spec endpoint = .ok key →
      QuotaWindowKey.fromRule req other endpoint = .ok otherKey →
      otherKey.target = key.target) specs others := by
  refine ⟨callAffinity_sharesBucket same haffinity, ?_, fun endpoint => ?_⟩
  · exact answerAfter_congr rfl offers otherUnbound unbound
  · apply same.imp
    exact fun _ _ hshares key otherKey => target_sharesBucket hshares

def headerArgument (key : String) : MatchArgument :=
  ⟨.header, key, some ⟨.exact, "x", .known .text⟩⟩

def headerSpec (id : String) (headers : List String) : DistributedQuotaSpec where
  trigger := ⟨"calls", false, .qps, [⟨10, some 1⟩], none, headers.map headerArgument, [],
    .failoverLocal⟩
  rule := ⟨id, 0, false, .global, [], some ⟨"system", "limiter"⟩⟩
  amount := 1
  revision := id
  amountMode := .globalTotal

def headerRequest : QuotaRequest :=
  ⟨"shop", "cart", "GET", fun _ key => some key, [⟨.qps, 1⟩], nanosPerSecond⟩

def planAffinity : String :=
  "system#limiter#shop#cart#GET|RESOURCE:QPS|HEADER:plan:plan|HEADER:user:user"

def planEnv : EndpointEnv where
  sha256 := fun bytes =>
    if bytes = planAffinity.toUTF8.data.toList then
      #v[0x33, 0x1d, 0x42, 0x61, 0xd2, 0x21, 0xa7, 0x3f, 0xa7, 0x43, 0xaf, 0xf7, 0x3c, 0xea, 0x9d,
        0xaf, 0xd2, 0x3a, 0x2c, 0x65, 0x4c, 0xba, 0xb2, 0x54, 0xe8, 0xed, 0x28, 0x21, 0xda, 0xe1,
        0x72, 0xa4]
    else Vector.replicate 32 0
  usizeBits := 64

def limiterInstance (ip protocol : String) (health : Bool) : Instance :=
  ⟨ip, "system", "limiter", ip, 8081, "", "", protocol, health, false, 100, 0, .empty, ⟨"", "", ""⟩,
    "r1"⟩

/-- One client sees an instance of another protocol beside the two limiters, the other one an
instance that is down, and the limiters the other way round. -/
def listedLimiters : List Instance :=
  [limiterInstance "10.0.0.1" "grpc" true, limiterInstance "10.0.0.3" "http" true,
    limiterInstance "10.0.0.2" "GRPC" true]

def reorderedLimiters : List Instance :=
  [limiterInstance "10.0.0.2" "GRPC" true, limiterInstance "10.0.0.1" "grpc" true,
    limiterInstance "10.0.0.4" "grpc" false]

/-- The first client was bound to a limiter that is gone, the second one has had no limiter. -/
def boundBefore : List EndpointCall :=
  [⟨planAffinity, [limiterInstance "10.0.0.9" "grpc" true]⟩]

def failedBefore : List EndpointCall :=
  [⟨planAffinity, [limiterInstance "10.0.0.4" "grpc" false]⟩]

theorem bucket_shared_reordered :
    callAffinity headerRequest [headerSpec "second" ["user", "plan"]] = .ok planAffinity ∧
    answerAfter planEnv failedBefore ⟨planAffinity, reorderedLimiters⟩ =
      answerAfter planEnv boundBefore ⟨planAffinity, listedLimiters⟩ ∧
    ∀ endpoint, List.Forall₂ (fun spec other => ∀ key otherKey,
      QuotaWindowKey.fromRule headerRequest spec endpoint = .ok key →
      QuotaWindowKey.fromRule headerRequest other endpoint = .ok otherKey →
      otherKey.target = key.target)
        [headerSpec "first" ["plan", "user"]] [headerSpec "second" ["user", "plan"]] := by
  have hsame : List.Forall₂ SharesBucket [headerSpec "first" ["plan", "user"]]
      [headerSpec "second" ["user", "plan"]] := .cons ⟨rfl, rfl, by decide⟩ .nil
  have haffinity : callAffinity headerRequest [headerSpec "first" ["plan", "user"]] =
      .ok planAffinity := by decide +kernel
  have hoffers : ∀ endpoint,
      Offers reorderedLimiters endpoint ↔ Offers listedLimiters endpoint := by
    have hperm : ((reorderedLimiters.filter servesGrpc).map endpointOf).Perm
        ((listedLimiters.filter servesGrpc).map endpointOf) := by decide +kernel
    intro endpoint
    rw [← mem_available_iff, ← mem_available_iff]
    exact hperm.mem_iff
  have hbound : ¬UsablyBound planEnv boundBefore ⟨planAffinity, listedLimiters⟩ := by
    rintro ⟨endpoint, hlast, hoffered⟩
    have hgiven : lastGiven planEnv boundBefore planAffinity = some "10.0.0.9:8081" := by
      decide +kernel
    obtain rfl := Option.some.inj (hgiven.symm.trans hlast)
    rw [← mem_available_iff] at hoffered
    exact absurd hoffered (by decide +kernel)
  have hfailed : ¬UsablyBound planEnv failedBefore ⟨planAffinity, reorderedLimiters⟩ := by
    rintro ⟨endpoint, hlast, -⟩
    have hgiven : lastGiven planEnv failedBefore planAffinity = none := by decide +kernel
    rw [hgiven] at hlast
    cases hlast
  exact bucket_shared planEnv headerRequest hsame haffinity hoffers hbound hfailed

/-- Both clients choose the second endpoint of the two. -/
example : answerAfter planEnv failedBefore ⟨planAffinity, reorderedLimiters⟩ =
    .ok "10.0.0.2:8081" := by decide +kernel

end Shared

end PoleClient.RateLimit
