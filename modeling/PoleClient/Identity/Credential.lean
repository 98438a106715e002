import PoleClient.Connector.Watch
import PoleClient.Identity.Verification

/-! # The client's own credential

What the worker accepts from the server, when it refreshes, and how a handle
attaches the credential to a request.
-/

namespace PoleClient.Identity

open Connector

/-! ## The wire form -/

inductive WorkloadBindingType where
  | serviceToken
  | other
deriving DecidableEq, Repr

/-- The format and the binding type as their getters read them. -/
structure WorkloadCredential where
  format : WorkloadCredentialFormat
  serialized : String
  credentialId : String
  keyId : String
  trustBundleVersion : String
  issuedAt : Option Timestamp
  notBefore : Option Timestamp
  expiresAt : Option Timestamp
  renewAfter : Option Timestamp
  bindingType : WorkloadBindingType
deriving DecidableEq, Repr

structure WorkloadCredentialResponse where
  code : Code
  info : String
  credential : Option WorkloadCredential
deriving DecidableEq, Repr

/-! ## The installed form -/

structure CredentialSnapshot where
  token : String
  credentialId : String
  expiresAt : Int64
  renewAfter : Int64
  identityRevision : String
deriving DecidableEq, Repr

def validateCredential (now : Int64) (credential : WorkloadCredential)
    (descriptor : ServiceIdentityDescriptor) : Except PoleError CredentialSnapshot := do
  let expiresAt ← timestampSeconds credential.expiresAt
  let renewAfter ← timestampSeconds credential.renewAfter
  let issuedAt ← timestampSeconds credential.issuedAt
  let notBefore ← timestampSeconds credential.notBefore
  if credential.format ≠ .jwtEd25519 || credential.bindingType ≠ .serviceToken ||
      isBlank credential.serialized || isBlank credential.credentialId ||
      isBlank credential.keyId || credential.trustBundleVersion ≠ descriptor.trustBundleVersion ||
      notBefore > issuedAt || renewAfter < issuedAt || renewAfter ≥ expiresAt ||
      expiresAt ≤ now then
    .error (.new .invalidServerResponse "credential response is invalid")
  else
    return {
      token := credential.serialized
      credentialId := credential.credentialId
      expiresAt := expiresAt
      renewAfter := renewAfter
      identityRevision := descriptor.revision }

def credentialSnapshot (now : Int64) (response : WorkloadCredentialResponse)
    (descriptor : ServiceIdentityDescriptor) : Except PoleError CredentialSnapshot :=
  if response.code ≠ .executeSuccess then .error (.new .serverError response.info)
  else
    match response.credential with
    | none => .error (.new .invalidServerResponse "credential response has no credential")
    | some credential => validateCredential now credential descriptor

/-! ## Refreshing -/

inductive CredentialRefreshAction where
  | wait (seconds : Int64)
  | issue
  | renew (credential : String)
deriving DecidableEq, Repr

def credentialRefreshAction (current : Option CredentialSnapshot) (descriptorRevision : String)
    (now : Int64) : CredentialRefreshAction :=
  match current with
  | none => .issue
  | some credential =>
      if credential.identityRevision = descriptorRevision ∧ credential.expiresAt > now then
        if credential.renewAfter > now then .wait (min (credential.renewAfter - now) 30)
        else .renew credential.token
      else .issue

/-! ## Attaching -/

/-- `HeaderValue::from_str`: visible ASCII and tabs. -/
def headerValueFromStr (token : String) : Option HeaderValue :=
  if token.toList.all fun c => (32 ≤ c.toNat && c.toNat < 127) || c = '\t' then
    some ⟨some token⟩
  else none

def currentCredential (now : Int64) (credential : Option CredentialSnapshot) :
    Except PoleError String :=
  match credential with
  | none => .error (unauthorized "workload credential is not ready")
  | some credential =>
      if credential.expiresAt ≤ now then
        .error (unauthorized "workload credential has expired")
      else .ok credential.token

def injectHttp (now : Int64) (credential : Option CredentialSnapshot) (headers : HeaderMap) :
    Except PoleError HeaderMap :=
  if !(headers workloadCredentialHeader).isEmpty then
    .error (.new .apiInvalidArgument "workload credential header already exists")
  else
    match currentCredential now credential with
    | .error err => .error err
    | .ok token =>
        match headerValueFromStr token with
        | none =>
            .error (.new .internalError "workload credential is not a valid HTTP header value")
        | some value =>
            .ok (fun name => if name = workloadCredentialHeader then [value] else headers name)

theorem injectHttp_none (now : Int64) (headers : HeaderMap) :
    ∃ err, injectHttp now none headers = .error err := by
  unfold injectHttp
  split
  · exact ⟨_, rfl⟩
  · exact ⟨_, rfl⟩

end PoleClient.Identity
