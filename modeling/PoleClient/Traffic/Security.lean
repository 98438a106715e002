import Mathlib.Data.List.Sort
import PoleClient.Traffic.Matcher

/-! # The security gate

Rules are scanned in stable priority order. Each one first passes the
authentication gate of its mode and then looks for the first candidate policy
that accepts the request; what "no policy accepts" means depends on the mode.
SHA-256 and hexadecimal decoding are parameters.
-/

namespace PoleClient

/-! ## Data model -/

inductive TrafficSecurityAuthMode where
  | legacyRequestMatch
  | managedIdentity
  | customHeader
deriving DecidableEq, Repr

instance : Inhabited TrafficSecurityAuthMode := ⟨.legacyRequestMatch⟩

/-- Only its presence is read. -/
structure ManagedIdentityAuthentication where
deriving DecidableEq, Repr

structure CustomHeaderAuthentication where
  headerName : String
  value : String
  valueSha256 : String
deriving DecidableEq, Repr

structure TrafficSecurityAuthentication where
  mode : ProtoEnum TrafficSecurityAuthMode
  managedIdentity : Option ManagedIdentityAuthentication
  customHeader : Option CustomHeaderAuthentication
deriving DecidableEq, Repr

structure ManagedCallerSelector where
  anyAuthenticated : Bool
  callers : List ServiceKey
deriving DecidableEq, Repr

inductive TrafficSecurityAction where
  | allow
  | deny
deriving DecidableEq, Repr

variable (E : Type)

/-- `E` stands for the reject effect, which is copied and never read. -/
structure TrafficSecurityPolicy where
  apis : List Api
  trafficMatchRule : Option TrafficMatchRule
  managedCaller : Option ManagedCallerSelector
  action : TrafficSecurityAction
  rejectEffect : Option E

structure TrafficSecurityRule where
  enable : Bool
  priority : Int
  authentication : Option TrafficSecurityAuthentication
  policies : List (TrafficSecurityPolicy E)

structure TrafficSecurityDecision where
  allowed : Bool
  rejectEffect : Option E
deriving DecidableEq, Repr

variable {E}

instance : Inhabited (TrafficSecurityDecision E) := ⟨⟨true, none⟩⟩

/-- The functions of other packages that the gate calls. -/
structure SecurityCrypto where
  sha256 : String → Vector UInt8 32
  hexDecode : String → Option (List UInt8)

/-! ## Authentication of a rule -/

/-- The digests are compared byte by byte, collecting every difference. -/
def digestDifference (actual expected : List UInt8) : UInt8 :=
  (actual.zip expected).foldl (fun difference pair => difference ||| (pair.1 ^^^ pair.2)) 0

def customHeaderAuthenticated (crypto : SecurityCrypto) (ctx : RouteContext)
    (custom : CustomHeaderAuthentication) : Bool :=
  if !custom.value.isEmpty || (Text.trim custom.headerName).isEmpty ||
      custom.valueSha256.utf8ByteSize != 64 then false
  else
    match ctx.routeInfo.trafficLabelProvider .header custom.headerName with
    | none => false
    | some actual =>
        match crypto.hexDecode custom.valueSha256 with
        | none => false
        | some expected =>
            if expected.length ≠ 32 then false
            else digestDifference (crypto.sha256 actual).toList expected == 0

def securityRuleAuthenticated (crypto : SecurityCrypto) (ctx : RouteContext)
    (authentication : Option TrafficSecurityAuthentication) : Bool :=
  match authentication with
  | none => true
  | some authentication =>
      match authentication.mode.tryFrom with
      | some .legacyRequestMatch =>
          authentication.managedIdentity.isNone && authentication.customHeader.isNone
      | some .managedIdentity =>
          authentication.managedIdentity.isSome && authentication.customHeader.isNone &&
            ctx.authenticatedCaller.isSome
      | some .customHeader =>
          ((authentication.customHeader.filter fun _ => authentication.managedIdentity.isNone).map
            (customHeaderAuthenticated crypto ctx)).getD false
      | none => false

/-! ## Policies and the scan -/

def managedCallerMatches (ctx : RouteContext) (selector : Option ManagedCallerSelector) : Bool :=
  match ctx.authenticatedCaller, selector with
  | none, _ => false
  | some _, none => false
  | some caller, some selector =>
      if selector.anyAuthenticated then true
      else
        selector.callers.any fun allowed =>
          !allowed.namespaceName.isEmpty && !allowed.name.isEmpty &&
            allowed.namespaceName == caller.namespaceName && allowed.name == caller.service

def trafficRuleMatches (regex : RegexEngine) (ctx : RouteContext)
    (rule : Option TrafficMatchRule) : Bool :=
  (rule.map (trafficMatchRuleMatch regex ctx)).getD true

def securityDecision (action : TrafficSecurityAction) (rejectEffect : Option E) :
    TrafficSecurityDecision E :=
  match action with
  | .allow => default
  | .deny => ⟨false, rejectEffect⟩

def isManagedIdentity (rule : TrafficSecurityRule E) : Bool :=
  (rule.authentication.map fun authentication =>
    authentication.mode.get == .managedIdentity).getD false

/-- The scan over the candidates of one rule; `none` when no policy accepts the request. -/
def policyDecision (regex : RegexEngine) (ctx : RouteContext) (managedIdentity : Bool) :
    List (TrafficSecurityPolicy E) → Option (TrafficSecurityDecision E)
  | [] => none
  | policy :: policies =>
      if managedIdentity && !managedCallerMatches ctx policy.managedCaller then
        policyDecision regex ctx managedIdentity policies
      else if !trafficRuleMatches regex ctx policy.trafficMatchRule then
        policyDecision regex ctx managedIdentity policies
      else some (securityDecision policy.action policy.rejectEffect)

/-- The body of the loop over the rules; `none` continues with the next rule. -/
def ruleDecision (regex : RegexEngine) (crypto : SecurityCrypto) (ctx : RouteContext)
    (candidates : List (TrafficSecurityPolicy E)) (rule : TrafficSecurityRule E) :
    Option (TrafficSecurityDecision E) :=
  if candidates.isEmpty then none
  else if !securityRuleAuthenticated crypto ctx rule.authentication then
    some ⟨false, candidates.head?.bind fun policy => policy.rejectEffect⟩
  else
    match policyDecision regex ctx (isManagedIdentity rule) candidates with
    | some decision => some decision
    | none =>
        if isManagedIdentity rule then
          some ⟨false, rule.policies.head?.bind fun policy => policy.rejectEffect⟩
        else none

def securityScan (regex : RegexEngine) (crypto : SecurityCrypto) (ctx : RouteContext)
    (candidatesOf : TrafficSecurityRule E → List (TrafficSecurityPolicy E)) :
    List (TrafficSecurityRule E) → TrafficSecurityDecision E
  | [] => default
  | rule :: rules =>
      match ruleDecision regex crypto ctx (candidatesOf rule) rule with
      | some decision => decision
      | none => securityScan regex crypto ctx candidatesOf rules

/-- Enabled rules in stable priority order. -/
def securityOrder (rules : List (TrafficSecurityRule E)) : List (TrafficSecurityRule E) :=
  (rules.filter fun rule => rule.enable).insertionSort fun a b => a.priority ≤ b.priority

def apiMatchInput (ctx : RouteContext) : ApiMatchInput :=
  ⟨ctx.routeInfo.trafficLabelProvider .method "", ctx.routeInfo.trafficLabelProvider .path ""⟩

/-- The candidates that the rule's own API index returns. -/
def indexedPolicies (regex : RegexEngine) (ctx : RouteContext) (rule : TrafficSecurityRule E) :
    List (TrafficSecurityPolicy E) :=
  (ApiMatchIndex.new (rule.policies.map fun policy => (policy, policy.apis))).candidates regex
    (apiMatchInput ctx)

/-- The gate over any source of candidates. -/
def evaluateSecurityWith (regex : RegexEngine) (crypto : SecurityCrypto) (ctx : RouteContext)
    (candidatesOf : TrafficSecurityRule E → List (TrafficSecurityPolicy E))
    (securityRules : List (TrafficSecurityRule E)) : TrafficSecurityDecision E :=
  securityScan regex crypto ctx candidatesOf (securityOrder securityRules)

def evaluateSecurity (regex : RegexEngine) (crypto : SecurityCrypto) (ctx : RouteContext)
    (securityRules : List (TrafficSecurityRule E)) : TrafficSecurityDecision E :=
  evaluateSecurityWith regex crypto ctx (indexedPolicies regex ctx) securityRules

end PoleClient
