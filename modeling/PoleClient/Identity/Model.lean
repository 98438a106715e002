import PoleClient.Core.Model
import PoleClient.Core.Text
import PoleClient.Lib.Table

/-! # Trust bundles

The bundle as the server sends it and the snapshot that the client installs.
The conversion drops the keys it cannot use and refuses a bundle with anything
else malformed; the replacement guards the installed sequence.
-/

namespace PoleClient.Identity

open Lib

/-! ## The wire form -/

structure Timestamp where
  seconds : Int64
  nanos : Int32
deriving DecidableEq, Repr

/-- The algorithm and the state of a key as their getters read them. -/
inductive WorkloadSigningAlgorithm where
  | ed25519
  | other
deriving DecidableEq, Repr

inductive VerificationKeyState where
  | active
  | retiring
  | other
deriving DecidableEq, Repr

structure WorkloadVerificationKey where
  keyId : String
  algorithm : WorkloadSigningAlgorithm
  publicKey : List UInt8
  state : VerificationKeyState
  notBefore : Option Timestamp
  notAfter : Option Timestamp
deriving DecidableEq, Repr

structure SubjectRevocation where
  subject : String
  credentialsIssuedBefore : Option Timestamp
deriving DecidableEq, Repr

structure CredentialRevocation where
  credentialId : String
deriving DecidableEq, Repr

structure WorkloadTrustBundle where
  schemaVersion : UInt32
  trustDomain : String
  issuer : String
  version : String
  sequence : UInt64
  issuedAt : Option Timestamp
  expiresAt : Option Timestamp
  keys : List WorkloadVerificationKey
  subjectRevocations : List SubjectRevocation
  credentialRevocations : List CredentialRevocation
deriving DecidableEq, Repr

/-! ## The installed form -/

abbrev PublicKey : Type :=
  { bytes : List UInt8 // bytes.length = 32 }

structure TrustKey where
  keyId : String
  publicKey : PublicKey
  notBefore : Int64
  notAfter : Int64
deriving DecidableEq

/-- What identifies a key; its validity window may be renewed. -/
def TrustKey.pair (key : TrustKey) : String × PublicKey :=
  (key.keyId, key.publicKey)

structure TrustBundleSnapshot where
  trustDomain : String
  issuer : String
  version : String
  sequence : UInt64
  expiresAt : Int64
  keys : List TrustKey
  subjectRevocations : Table String Int64
  credentialRevocations : Table String Unit

def TrustBundleSnapshot.empty : TrustBundleSnapshot where
  trustDomain := ""
  issuer := ""
  version := ""
  sequence := 0
  expiresAt := 0
  keys := []
  subjectRevocations := .empty
  credentialRevocations := .empty

/-! ## Conversion -/

def isBlank (s : String) : Bool :=
  (Text.trim s).isEmpty

def invalidBundle : PoleError :=
  .new .invalidServerResponse "workload trust bundle is invalid"

def timestampSeconds : Option Timestamp → Except PoleError Int64
  | none => .error (.new .invalidServerResponse "identity timestamp is missing")
  | some timestamp =>
      if timestamp.seconds < 0 || !(0 ≤ timestamp.nanos && timestamp.nanos < 1000000000) then
        .error (.new .invalidServerResponse "identity timestamp is invalid")
      else .ok timestamp.seconds

/-- A bound of a key's window, with the value for a bound that is left out. -/
def windowBound (timestamp : Option Timestamp) (missing : Int64) : Except PoleError Int64 :=
  match timestamp with
  | none => .ok missing
  | some timestamp => timestampSeconds (some timestamp)

def WorkloadVerificationKey.usable (key : WorkloadVerificationKey) : Bool :=
  key.algorithm = .ed25519 && (key.state = .active || key.state = .retiring) &&
    !isBlank key.keyId

def convertKeys (issuedAt : Option Timestamp) (expiresAt : Int64) :
    List WorkloadVerificationKey → Except PoleError (List TrustKey)
  | [] => .ok []
  | key :: keys =>
      if hlength : key.usable = true ∧ key.publicKey.length = 32 then do
        let notBefore ← windowBound key.notBefore ((issuedAt.map Timestamp.seconds).getD 0)
        let notAfter ← windowBound key.notAfter expiresAt
        let rest ← convertKeys issuedAt expiresAt keys
        return ⟨key.keyId, ⟨key.publicKey, hlength.2⟩, notBefore, notAfter⟩ :: rest
      else convertKeys issuedAt expiresAt keys

/-- A later entry of a subject takes the place of an earlier one. -/
def convertSubjectRevocations (installed : Table String Int64) :
    List SubjectRevocation → Except PoleError (Table String Int64)
  | [] => .ok installed
  | revocation :: revocations =>
      if isBlank revocation.subject then .error invalidBundle
      else do
        let issuedBefore ← timestampSeconds revocation.credentialsIssuedBefore
        convertSubjectRevocations (installed.insert revocation.subject issuedBefore) revocations

def convertCredentialRevocations (installed : Table String Unit) :
    List CredentialRevocation → Except PoleError (Table String Unit)
  | [] => .ok installed
  | revocation :: revocations =>
      if isBlank revocation.credentialId then .error invalidBundle
      else convertCredentialRevocations (installed.insert revocation.credentialId ()) revocations

def convertTrustBundle (now : Int64) (bundle : WorkloadTrustBundle) :
    Except PoleError TrustBundleSnapshot :=
  if bundle.schemaVersion ≠ 1 || bundle.sequence = 0 || isBlank bundle.trustDomain ||
      isBlank bundle.version || isBlank bundle.issuer then
    .error invalidBundle
  else do
    let expiresAt ← timestampSeconds bundle.expiresAt
    if expiresAt ≤ now then .error invalidBundle
    else do
      let keys ← convertKeys bundle.issuedAt expiresAt bundle.keys
      if keys.isEmpty then .error invalidBundle
      else do
        let subjectRevocations ← convertSubjectRevocations .empty bundle.subjectRevocations
        let credentialRevocations ← convertCredentialRevocations .empty bundle.credentialRevocations
        return {
          trustDomain := bundle.trustDomain
          issuer := bundle.issuer
          version := bundle.version
          sequence := bundle.sequence
          expiresAt := expiresAt
          keys := keys
          subjectRevocations := subjectRevocations
          credentialRevocations := credentialRevocations }

/-! ## Replacement -/

/-- Every current key occurs among the candidate's, and there are as many of them. -/
def sameTrustBundleSecurityContent (current candidate : TrustBundleSnapshot) : Bool :=
  current.trustDomain == candidate.trustDomain && current.issuer == candidate.issuer &&
    current.version == candidate.version &&
    current.keys.length == candidate.keys.length &&
    (current.keys.all fun currentKey => candidate.keys.any fun candidateKey =>
      currentKey.keyId == candidateKey.keyId && currentKey.publicKey == candidateKey.publicKey) &&
    current.subjectRevocations.agrees candidate.subjectRevocations &&
    current.credentialRevocations.agrees candidate.credentialRevocations

def rollbackDetected : PoleError :=
  .new .invalidServerResponse "workload trust bundle rollback detected"

def contentChanged : PoleError :=
  .new .invalidServerResponse "workload trust bundle content changed without sequence advance"

/-- `IdentityState::replace_trust_bundle` on the bundle behind the lock. -/
def replaceTrustBundle (current bundle : TrustBundleSnapshot) :
    TrustBundleSnapshot × Except PoleError Unit :=
  if bundle.sequence < current.sequence then (current, .error rollbackDetected)
  else if bundle.sequence = current.sequence ∧ ¬ current.version.isEmpty then
    if bundle.version ≠ current.version then (current, .error rollbackDetected)
    else if !sameTrustBundleSecurityContent current bundle then (current, .error contentChanged)
    else (bundle, .ok ())
  else (bundle, .ok ())

structure BundleUpdate where
  now : Int64
  bundle : WorkloadTrustBundle
deriving DecidableEq, Repr

def handleBundle (current : TrustBundleSnapshot) (update : BundleUpdate) :
    TrustBundleSnapshot × Except PoleError Unit :=
  match convertTrustBundle update.now update.bundle with
  | .error err => (current, .error err)
  | .ok bundle => replaceTrustBundle current bundle

end PoleClient.Identity
