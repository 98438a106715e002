import Mathlib.Data.List.Sort
import PoleClient.Traffic.Matcher

/-! # Rate-limit rules, requests and counter keys

The rules that apply to a request, the window of an amount and the keys under
which windows and concurrency counters are kept. The SHA-256 digest of a request
parameter enters the keys as lower-case hexadecimal text.
-/

namespace PoleClient.RateLimit

/-! ## Rules -/

inductive LimitResource where
  | qps
  | token
  | concurrency
  | other
deriving DecidableEq, Repr

inductive FailoverType where
  | failoverLocal
  | failoverPass
deriving DecidableEq, Repr

inductive RateLimitType where
  | global
  | localCount
  | other
deriving DecidableEq, Repr

inductive MatchArgumentType where
  | custom
  | method
  | header
  | query
  | callerService
  | callerIp
  | callerMetadata
deriving DecidableEq, Repr

/-- The variant name that debug formatting prints. -/
def MatchArgumentType.debugName : MatchArgumentType → String
  | custom => "Custom"
  | method => "Method"
  | header => "Header"
  | query => "Query"
  | callerService => "CallerService"
  | callerIp => "CallerIp"
  | callerMetadata => "CallerMetadata"

structure MatchArgument where
  type : MatchArgumentType
  key : String
  value : Option MatchString
deriving DecidableEq, Repr

/-- `validDuration` holds the seconds of the protobuf duration, which may be negative. -/
structure Amount where
  maxAmount : UInt32
  validDuration : Option Int
deriving DecidableEq, Repr

structure LimitTrigger where
  name : String
  disable : Bool
  resource : LimitResource
  amounts : List Amount
  concurrencyAmount : Option UInt32
  arguments : List MatchArgument
  apis : List Api
  failover : FailoverType
deriving DecidableEq, Repr

structure RateLimitRule where
  id : String
  priority : Int
  disable : Bool
  type : RateLimitType
  rules : List LimitTrigger
  cluster : Option ServiceKey
deriving DecidableEq, Repr

/-! ## Requests -/

inductive QuotaResource where
  | qps
  | token
  | concurrency
deriving DecidableEq, Repr

structure QuotaAmount where
  resource : QuotaResource
  amount : UInt32
deriving DecidableEq, Repr

structure QuotaConsumption where
  resource : QuotaResource
  consumedTotal : UInt32
deriving DecidableEq, Repr

structure QuotaRequest where
  namespaceName : String
  service : String
  method : String
  trafficLabelProvider : ArgumentType → String → Option String
  quotas : List QuotaAmount
  leaseTtl : Nat

def QuotaResource.debugName : QuotaResource → String
  | qps => "Qps"
  | token => "Token"
  | concurrency => "Concurrency"

/-- The loop of `check_valid` over the quotas, with the resources seen so far. -/
def checkQuotas : List QuotaResource → List QuotaAmount → Except PoleError Unit
  | _, [] => .ok ()
  | seen, quota :: quotas =>
      if quota.amount = 0 then
        .error (.new .apiInvalidArgument "quota amount must be greater than zero")
      else if quota.resource ∈ seen then
        .error (.new .apiInvalidArgument
          ("duplicate quota resource " ++ quota.resource.debugName))
      else checkQuotas (quota.resource :: seen) quotas

def QuotaRequest.checkValid (req : QuotaRequest) : Except PoleError Unit :=
  if req.service.isEmpty then .error (.new .apiInvalidArgument "service is empty")
  else if req.namespaceName.isEmpty then
    .error (.new .apiInvalidArgument "namespace is empty")
  else if req.quotas.isEmpty then
    .error (.new .apiInvalidArgument "quota request must contain at least one resource")
  else
    match checkQuotas [] req.quotas with
    | .error err => .error err
    | .ok () =>
        if req.leaseTtl = 0 then
          .error (.new .apiInvalidArgument "quota lease ttl must be greater than zero")
        else if req.leaseTtl > (2 ^ 32 - 1) * nanosPerSecond then
          .error (.new .apiInvalidArgument "quota lease ttl exceeds the protocol limit")
        else .ok ()

def QuotaRequest.amountFor (req : QuotaRequest) (resource : QuotaResource) : Option UInt32 :=
  (req.quotas.find? fun quota => quota.resource = resource).map QuotaAmount.amount

/-! ## Matching -/

def quotaResource : LimitResource → Option QuotaResource
  | .qps => some .qps
  | .token => some .token
  | .concurrency => some .concurrency
  | .other => none

def quotaRuleMatches (rule : RateLimitRule) : Bool :=
  !rule.disable && (rule.type = .localCount || rule.type = .global)

def usesLocalCounter (rule : RateLimitRule) (trigger : LimitTrigger) : Bool :=
  rule.type = .localCount || (rule.type = .global && trigger.failover = .failoverLocal)

def usesDistributedQuota (rule : RateLimitRule) (trigger : LimitTrigger) : Bool :=
  rule.type = .global && (quotaResource trigger.resource).isSome

def triggerBaseMatches (trigger : LimitTrigger) : Bool :=
  !trigger.disable && (quotaResource trigger.resource).isSome

def ratelimitArgumentType : MatchArgumentType → ArgumentType
  | .method => .method
  | .header => .header
  | .query => .query
  | .callerService => .callerService
  | .callerIp => .callerIP
  | .callerMetadata => .callerService
  | .custom => .custom

def matchArgumentMatches (regex : RegexEngine) (req : QuotaRequest)
    (argument : MatchArgument) : Bool :=
  match argument.value with
  | none => false
  | some ruleValue =>
      let argType := ratelimitArgumentType argument.type
      match ruleValue.valueType.tryFrom with
      | none => false
      | some .text =>
          match req.trafficLabelProvider argType argument.key with
          | none => false
          | some actual => matchLabelValue regex ruleValue actual
      | some .parameter =>
          if ruleValue.value.isEmpty then (req.trafficLabelProvider argType argument.key).isSome
          else
            match req.trafficLabelProvider argType ruleValue.value with
            | none => false
            | some actual => matchLabelValue regex ruleValue actual

def triggerArgumentsMatch (regex : RegexEngine) (req : QuotaRequest)
    (trigger : LimitTrigger) : Bool :=
  trigger.arguments.all (matchArgumentMatches regex req)

structure QuotaTriggerEntry where
  rule : RateLimitRule
  trigger : LimitTrigger
deriving DecidableEq, Repr

def quotaApiMatchInput (req : QuotaRequest) : ApiMatchInput :=
  ⟨some req.method, req.trafficLabelProvider .path ""⟩

/-- The triggers that apply to a request: rules in stable priority order, narrowed by the API
index and then by the arguments. -/
def matchingQuotaTriggers (regex : RegexEngine) (req : QuotaRequest)
    (rules : List RateLimitRule) : List QuotaTriggerEntry :=
  let ordered := rules.insertionSort fun a b => a.priority ≤ b.priority
  let entries := ordered.flatMap fun rule =>
    if !quotaRuleMatches rule then []
    else (rule.rules.filter triggerBaseMatches).map fun trigger =>
      ((⟨rule, trigger⟩ : QuotaTriggerEntry), trigger.apis)
  ((ApiMatchIndex.new entries).candidates regex (quotaApiMatchInput req)).filter
    fun entry => triggerArgumentsMatch regex req entry.trigger

/-! ## Windows and keys -/

/-- The window length in seconds, at least one. -/
def amountDuration (amount : Amount) : Nat :=
  (amount.validDuration.map fun seconds => (max seconds 1).toNat).getD 1

/-- The request parameters that split a trigger into separate counters. -/
def requestParameterDimensions (sha256Hex : String → String) (req : QuotaRequest)
    (trigger : LimitTrigger) : List (String × String) :=
  trigger.arguments.filterMap fun argument =>
    argument.value.bind fun value =>
      if value.valueType.get ≠ .parameter || !value.value.isEmpty then none
      else
        (req.trafficLabelProvider (ratelimitArgumentType argument.type) argument.key).map
          fun actual => (argument.type.debugName ++ "." ++ argument.key, sha256Hex actual)

def requestParameterDimensionSuffix (sha256Hex : String → String) (req : QuotaRequest)
    (trigger : LimitTrigger) : String :=
  let dimensions := (requestParameterDimensions sha256Hex req trigger).insertionSort
    fun left right => left.1 ≤ right.1
  String.join (dimensions.map fun dimension => "#" ++ dimension.1 ++ "=" ++ dimension.2)

/-- What the keys of a trigger's counters have in common, up to the window part. -/
def counterKeyHead (req : QuotaRequest) (rule : RateLimitRule) (trigger : LimitTrigger) :
    String :=
  req.namespaceName ++ "#" ++ req.service ++ "#" ++ req.method ++ "#" ++ rule.id ++ "#" ++
    trigger.name ++ "#"

def quotaCounterKey (sha256Hex : String → String) (req : QuotaRequest) (rule : RateLimitRule)
    (trigger : LimitTrigger) (seconds : Nat) : String :=
  counterKeyHead req rule trigger ++ toString seconds ++
    requestParameterDimensionSuffix sha256Hex req trigger

def concurrencyCounterKey (sha256Hex : String → String) (req : QuotaRequest)
    (rule : RateLimitRule) (trigger : LimitTrigger) : String :=
  counterKeyHead req rule trigger ++ "concurrency" ++
    requestParameterDimensionSuffix sha256Hex req trigger

theorem one_le_amountDuration (amount : Amount) : 1 ≤ amountDuration amount := by
  unfold amountDuration
  cases amount.validDuration with
  | none => simp
  | some seconds =>
      show 1 ≤ (max seconds 1).toNat
      omega

/-- Within one trigger and request a window key determines the window length. -/
theorem quotaCounterKey_inj {sha256Hex : String → String} {req : QuotaRequest}
    {rule : RateLimitRule} {trigger : LimitTrigger} {s₁ s₂ : Nat} :
    quotaCounterKey sha256Hex req rule trigger s₁ = quotaCounterKey sha256Hex req rule trigger s₂ ↔
      s₁ = s₂ := by
  constructor
  · intro h
    unfold quotaCounterKey at h
    have hdigits : toString s₁ = toString s₂ := by
      simpa [String.append_left_inj, String.append_right_inj] using h
    exact Text.toString_nat_inj hdigits
  · intro h
    rw [h]

end PoleClient.RateLimit
