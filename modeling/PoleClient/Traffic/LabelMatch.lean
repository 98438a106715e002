import PoleClient.Core.Model
import PoleClient.Core.Text

/-! # Label and traffic matching

`match_label_value` is the one meaning of a `MatchString`; routing, policies,
mirrors and the API index all go through it. Regular expressions are compiled
by a parameter, which answers `none` for a pattern that does not compile.
-/

namespace PoleClient

/-- `Regex::new` followed by `is_match`. -/
abbrev RegexEngine : Type :=
  String → Option (String → Bool)

def wildcard : String := "*"

def isMatchAll (s : String) : Bool :=
  s == wildcard

/-- Inclusive bounds `min,max`; anything that does not parse never matches. -/
def matchRange (matchValue actualVal : String) : Bool :=
  match Text.split matchValue ',' with
  | [low, high] =>
      match Text.parseI64 low, Text.parseI64 high, Text.parseI64 actualVal with
      | some min, some max, some actual => decide (min ≤ actual) && decide (actual ≤ max)
      | _, _, _ => false
  | _ => false

def matchLabelValue (regex : RegexEngine) (ruleValue : MatchString) (actualVal : String) : Bool :=
  let matchValue := ruleValue.value
  if isMatchAll matchValue then true
  else
    match ruleValue.type with
    | .exact => matchValue == actualVal
    | .notEquals => matchValue != actualVal
    | .regex => ((regex matchValue).map fun isMatch => isMatch actualVal).getD false
    | .isIn => (Text.split matchValue ',').any (· == actualVal)
    | .notIn => !(Text.split matchValue ',').any (· == actualVal)
    | .range => matchRange matchValue actualVal

def argumentTypeFromSource : SourceMatchType → ArgumentType
  | .method => .method
  | .header => .header
  | .query => .query
  | .callerIp => .callerIP
  | .path => .path
  | .cookie => .cookie
  | .callerService => .callerService
  | .callerMetadata => .callerService
  | .custom => .custom

def stripDollar (label : String) : String :=
  match label.toList with
  | '$' :: rest => String.ofList rest
  | _ => label

/-- A key may carry its own argument type as a prefix, `header.x` or `$header.x`. -/
def currentSourceValue (ctx : RouteContext) (sourceMatch : SourceMatch) : Option String :=
  match Text.splitOnce sourceMatch.key '.' with
  | some (label, key) =>
      ctx.routeInfo.trafficLabelProvider (ArgumentType.parseFromStr (stripDollar label)) key
  | none =>
      ctx.routeInfo.trafficLabelProvider (argumentTypeFromSource sourceMatch.type) sourceMatch.key

def resolveActualValue (ctx : RouteContext) (sourceMatch : SourceMatch)
    (ruleValue : MatchString) : Option String :=
  match ruleValue.valueType.tryFrom with
  | none => none
  | some .text => currentSourceValue ctx sourceMatch
  | some .parameter =>
      if ruleValue.value.isEmpty then currentSourceValue ctx sourceMatch
      else
        ctx.routeInfo.trafficLabelProvider (argumentTypeFromSource sourceMatch.type)
          ruleValue.value

def sourceMatchMatches (regex : RegexEngine) (ctx : RouteContext)
    (sourceMatch : SourceMatch) : Bool :=
  match sourceMatch.value with
  | none => false
  | some ruleValue =>
      match resolveActualValue ctx sourceMatch ruleValue with
      | none => false
      | some actualVal =>
          if ruleValue.valueType.get = .parameter && ruleValue.value.isEmpty then true
          else matchLabelValue regex ruleValue actualVal

def trafficMatchRuleMatch (regex : RegexEngine) (ctx : RouteContext)
    (rule : TrafficMatchRule) : Bool :=
  if rule.randomPercent = 0 then false
  else if rule.arguments.isEmpty then true
  else
    match rule.matchMode with
    | .or => rule.arguments.any (sourceMatchMatches regex ctx)
    | .and => rule.arguments.all (sourceMatchMatches regex ctx)

/-! ## What a wildcard accepts -/

@[simp] theorem matchLabelValue_wildcard (regex : RegexEngine) (ruleValue : MatchString)
    (actualVal : String) (h : ruleValue.value = wildcard) :
    matchLabelValue regex ruleValue actualVal = true := by
  simp [matchLabelValue, isMatchAll, h]

/-- Away from the wildcard an exact text matcher is string equality. -/
theorem matchLabelValue_exact (regex : RegexEngine) (ruleValue : MatchString)
    (actualVal : String) (type : ruleValue.type = .exact) (h : ruleValue.value ≠ wildcard) :
    matchLabelValue regex ruleValue actualVal = (ruleValue.value == actualVal) := by
  simp [matchLabelValue, isMatchAll, h, type]

end PoleClient
