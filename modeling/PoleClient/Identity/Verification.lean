import PoleClient.Identity.Model

/-! # Verification of a workload credential

A credential is a compact token: header, claims and signature, separated by
points. It is checked against one snapshot of the trust bundle. Base64, JSON and
Ed25519 are functions that may refuse their input.
-/

namespace PoleClient.Identity

open Lib

/-! ## Tokens -/

structure JwtHeader where
  alg : String
  typ : Option String
  kid : String
deriving DecidableEq, Repr

inductive Audience where
  | one (value : String)
  | many (values : List String)
deriving DecidableEq, Repr

def Audience.«matches» (self : Audience) (expected : String) : Bool :=
  !expected.isEmpty &&
    match self with
    | .one value => value == expected
    | .many values => values.any fun value => value == expected

structure WorkloadClaims where
  issuer : String
  subject : String
  aud : Audience
  credentialId : String
  poleVer : UInt32
  poleTrustDomain : String
  poleNamespace : String
  poleService : String
  poleIdentityRevision : String
  poleBindingType : String
  issuedAt : Int64
  notBefore : Int64
  expiresAt : Int64
deriving DecidableEq, Repr

structure AuthenticatedCaller where
  subject : String
  namespaceName : String
  service : String
  trustDomain : String
  issuedAt : Int64
  expiresAt : Int64
  keyId : String
deriving DecidableEq, Repr

/-- The decoders and the signature scheme; `σ` are the signatures and `κ` the verifying keys. -/
structure TokenCrypto (σ κ : Type) where
  base64Decode : String → Option (List UInt8)
  headerFromJson : List UInt8 → Option JwtHeader
  claimsFromJson : List UInt8 → Option WorkloadClaims
  signatureFromSlice : List UInt8 → Option σ
  keyFromBytes : PublicKey → Option κ
  verifyStrict : κ → String → σ → Bool

variable {σ κ : Type}

def maxCredentialSize : Nat := 16 * 1024

def unauthorized (message : String) : PoleError :=
  .new .unauthorized message

/-! ## The checks of `verify_jwt_at`, in order -/

def compactSegments (token : String) : Except PoleError (String × String × String) :=
  if token.isEmpty || token.utf8ByteSize > maxCredentialSize then
    .error (unauthorized "workload credential size is invalid")
  else
    let segments := Text.split token '.'
    let encodedHeader := segments.getD 0 ""
    let encodedClaims := segments.getD 1 ""
    let encodedSignature := segments.getD 2 ""
    if encodedHeader.isEmpty || encodedClaims.isEmpty || encodedSignature.isEmpty ||
        (segments.drop 3).head?.isSome then
      .error (unauthorized "workload credential must be a compact JWT")
    else .ok (encodedHeader, encodedClaims, encodedSignature)

def decodeJsonSegment {α : Type} (crypto : TokenCrypto σ κ) (fromJson : List UInt8 → Option α)
    (encoded : String) : Except PoleError α :=
  match crypto.base64Decode encoded with
  | none => .error (unauthorized "workload credential encoding is malformed")
  | some bytes =>
      match fromJson bytes with
      | none => .error (unauthorized "workload credential JSON is malformed")
      | some value => .ok value

def checkHeader (header : JwtHeader) : Except PoleError Unit :=
  if header.alg ≠ "EdDSA" || header.typ ≠ some "pole-workload+jwt" || isBlank header.kid then
    .error (unauthorized "workload credential algorithm or key id is invalid")
  else .ok ()

def decodeSignature (crypto : TokenCrypto σ κ) (encoded : String) : Except PoleError σ :=
  match crypto.base64Decode encoded with
  | none => .error (unauthorized "workload credential signature is malformed")
  | some bytes =>
      match crypto.signatureFromSlice bytes with
      | none => .error (unauthorized "workload credential signature length is invalid")
      | some signature => .ok signature

def checkBundle (bundle : TrustBundleSnapshot) (now : Int64) : Except PoleError Unit :=
  if isBlank bundle.version || isBlank bundle.trustDomain || isBlank bundle.issuer then
    .error (unauthorized "workload trust bundle is not ready")
  else if bundle.expiresAt ≤ now then
    .error (unauthorized "workload trust bundle has expired")
  else .ok ()

/-- The first key of the bundle with the id decides. -/
def findKey (bundle : TrustBundleSnapshot) (kid : String) (now : Int64) :
    Except PoleError TrustKey :=
  match bundle.keys.find? fun key => key.keyId == kid with
  | none => .error (unauthorized "workload credential key is unknown")
  | some key =>
      if key.notBefore > now || key.notAfter ≤ now then
        .error (unauthorized "workload credential key is outside its validity window")
      else .ok key

def checkSignature (crypto : TokenCrypto σ κ) (key : TrustKey) (signingInput : String)
    (signature : σ) : Except PoleError Unit :=
  match crypto.keyFromBytes key.publicKey with
  | none => .error (unauthorized "workload trust key is invalid")
  | some verifyingKey =>
      if crypto.verifyStrict verifyingKey signingInput signature then .ok ()
      else .error (unauthorized "workload credential signature is invalid")

def clockSkewSeconds : Int64 := 30

def checkClaims (bundle : TrustBundleSnapshot) (claims : WorkloadClaims)
    (expectedAudience : String) (now : Int64) : Except PoleError Unit :=
  if claims.issuer ≠ bundle.issuer || claims.poleTrustDomain ≠ bundle.trustDomain ||
      claims.poleVer ≠ 1 || isBlank claims.poleIdentityRevision ||
      claims.poleBindingType ≠ "SERVICE_TOKEN" || isBlank claims.credentialId ||
      isBlank claims.subject || isBlank claims.poleNamespace || isBlank claims.poleService ||
      claims.issuedAt > now + clockSkewSeconds || claims.notBefore > now + clockSkewSeconds ||
      claims.expiresAt ≤ now || claims.expiresAt ≤ claims.issuedAt ||
      !claims.aud.«matches» expectedAudience then
    .error (unauthorized "workload credential claims are invalid")
  else .ok ()

def checkRevocation (bundle : TrustBundleSnapshot) (claims : WorkloadClaims) :
    Except PoleError Unit :=
  if (bundle.credentialRevocations.lookup claims.credentialId).isSome ||
      ((bundle.subjectRevocations.lookup claims.subject).map fun issuedBefore =>
        decide (claims.issuedAt ≤ issuedBefore)).getD false then
    .error (unauthorized "workload credential has been revoked")
  else .ok ()

def callerOf (header : JwtHeader) (claims : WorkloadClaims) : AuthenticatedCaller where
  subject := claims.subject
  namespaceName := claims.poleNamespace
  service := claims.poleService
  trustDomain := claims.poleTrustDomain
  issuedAt := claims.issuedAt
  expiresAt := claims.expiresAt
  keyId := header.kid

def verifyJwtAt (crypto : TokenCrypto σ κ) (bundle : TrustBundleSnapshot) (token : String)
    (expectedAudience : String) (now : Int64) : Except PoleError AuthenticatedCaller := do
  let (encodedHeader, encodedClaims, encodedSignature) ← compactSegments token
  let header ← decodeJsonSegment crypto crypto.headerFromJson encodedHeader
  checkHeader header
  let claims ← decodeJsonSegment crypto crypto.claimsFromJson encodedClaims
  let signature ← decodeSignature crypto encodedSignature
  checkBundle bundle now
  let key ← findKey bundle header.kid now
  checkSignature crypto key (encodedHeader ++ "." ++ encodedClaims) signature
  checkClaims bundle claims expectedAudience now
  checkRevocation bundle claims
  return callerOf header claims

/-! ## Headers -/

def workloadCredentialHeader : String := "x-pole-workload-credential"

/-- A header value and its text, if it is visible ASCII. -/
structure HeaderValue where
  text : Option String
deriving DecidableEq, Repr

/-- The values under each name, in the order they were added. -/
abbrev HeaderMap : Type :=
  String → List HeaderValue

end PoleClient.Identity
