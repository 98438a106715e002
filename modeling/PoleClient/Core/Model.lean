import Mathlib.Algebra.GroupWithZero.Nat
import Mathlib.Algebra.Ring.Int.Defs

/-! # Shared data of the client

The records that several subsystems exchange: errors, service keys, request
contexts and the rule fragments of the specification. Only the fields that a
modelled function reads are kept.
-/

namespace PoleClient

/-! ## Errors -/

inductive ErrorCode where
  | success
  | apiInvalidArgument
  | invalidConfig
  | pluginError
  | apiTimeout
  | invalidState
  | serverUserError
  | networkError
  | circuitBreakError
  | instanceInfoError
  | instanceNotFound
  | invalidRule
  | routeRuleNotMatch
  | invalidResponse
  | internalError
  | serviceNotFound
  | serverException
  | locationNotFound
  | locationMismatch
  | metadataMismatch
  | clientCircuitBreaking
  | connectError
  | serverError
  | rpcError
  | rpcTimeout
  | invalidServerResponse
  | invalidRequest
  | unauthorized
  | requestLimit
  | cmdbNotFound
  | unknownServerError
  | notSupport
  | rsaKeyGenerateError
  | rsaEncryptError
  | rsaDecryptError
  | aesKeyGenerateError
  | aesEncryptError
  | aesDecryptError
  | parameterError
  | configCryptoError
deriving DecidableEq, Repr

structure PoleError where
  errCode : ErrorCode
  errMsg : String
deriving DecidableEq, Repr

def PoleError.new (code : ErrorCode) (errMsg : String) : PoleError :=
  ⟨code, errMsg⟩

theorem succeeds_of_bind {ε α β : Type} {x : Except ε α} {f : α → Except ε β} {b : β}
    (h : (x >>= f) = .ok b) : ∃ a, x = .ok a ∧ f a = .ok b := by
  cases x with
  | error err => cases h
  | ok a => exact ⟨a, rfl, h⟩

/-! ## Protobuf enum fields -/

/-- An enum field travels as a number, which may name no variant. -/
inductive ProtoEnum (α : Type) where
  | known (variant : α)
  | unknown (number : Int)
deriving DecidableEq, Repr

namespace ProtoEnum

variable {α : Type}

/-- `try_from` on the raw number. -/
def tryFrom : ProtoEnum α → Option α
  | known variant => some variant
  | unknown _ => none

/-- The generated getter: an unknown number reads as the default variant. -/
def get [Inhabited α] (field : ProtoEnum α) : α :=
  field.tryFrom.getD default

end ProtoEnum

/-! ## Time -/

/-- Clock readings and durations are in nanoseconds. -/
def nanosPerSecond : Nat := 1000000000

/-! ## Services and requests -/

structure ServiceKey where
  namespaceName : String
  name : String
deriving DecidableEq, Repr, Inhabited

inductive ArgumentType where
  | custom
  | method
  | path
  | header
  | cookie
  | query
  | callerService
  | callerIP
deriving DecidableEq, Repr

def ArgumentType.parseFromStr (s : String) : ArgumentType :=
  if s = "custom" then .custom
  else if s = "method" then .method
  else if s = "path" then .path
  else if s = "header" then .header
  else if s = "cookie" then .cookie
  else if s = "query" then .query
  else if s = "caller_service" then .callerService
  else if s = "caller_ip" then .callerIP
  else .custom

/-- The verified caller; the other token fields take no part in the decisions. -/
structure AuthenticatedCaller where
  namespaceName : String
  service : String
deriving DecidableEq, Repr

structure RouteInfo where
  caller : ServiceKey
  callee : ServiceKey
  trafficLabelProvider : ArgumentType → String → Option String

structure RouteContext where
  routeInfo : RouteInfo
  authenticatedCaller : Option AuthenticatedCaller

/-! ## Matchers of the specification -/

inductive MatchStringType where
  | exact
  | regex
  | notEquals
  | isIn
  | notIn
  | range
deriving DecidableEq, Repr

inductive ValueType where
  | text
  | parameter
deriving DecidableEq, Repr

instance : Inhabited ValueType := ⟨.text⟩

/-- `type` is read through its getter everywhere, `value_type` also through `try_from`. -/
structure MatchString where
  type : MatchStringType
  value : String
  valueType : ProtoEnum ValueType
deriving DecidableEq, Repr

structure Api where
  method : String
  path : Option MatchString
deriving DecidableEq, Repr

inductive SourceMatchType where
  | custom
  | method
  | header
  | query
  | callerService
  | callerIp
  | path
  | cookie
  | callerMetadata
deriving DecidableEq, Repr

structure SourceMatch where
  type : SourceMatchType
  key : String
  value : Option MatchString
deriving DecidableEq, Repr

inductive TrafficMatchMode where
  | and
  | or
deriving DecidableEq, Repr

structure TrafficMatchRule where
  arguments : List SourceMatch
  matchMode : TrafficMatchMode
  randomPercent : Nat
deriving DecidableEq, Repr

end PoleClient
