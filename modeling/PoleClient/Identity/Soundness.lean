import PoleClient.Identity.Verification

/-! # What an accepted credential has passed

Each check gets a lemma that says what its success means. Together they say what
holds of every token that is accepted, against the one snapshot that all checks
read.
-/

namespace PoleClient.Identity

open Lib

variable {σ κ : Type} {crypto : TokenCrypto σ κ} {bundle : TrustBundleSnapshot} {now : Int64}

/-! ## The claim checks -/

structure NotRevoked (bundle : TrustBundleSnapshot) (claims : WorkloadClaims) : Prop where
  credential : bundle.credentialRevocations.lookup claims.credentialId = none
  subject : ∀ issuedBefore, bundle.subjectRevocations.lookup claims.subject = some issuedBefore →
    issuedBefore < claims.issuedAt

theorem checkRevocation_ok_iff {claims : WorkloadClaims} :
    checkRevocation bundle claims = .ok () ↔ NotRevoked bundle claims := by
  unfold checkRevocation
  constructor
  · intro h
    split at h
    · cases h
    · rename_i hclear
      simp only [Bool.or_eq_true, not_or, Bool.not_eq_true, Option.isSome_eq_false_iff,
        Option.isNone_iff_eq_none] at hclear
      constructor
      · exact hclear.1
      · intro issuedBefore hlookup
        have hlate := hclear.2
        simp only [hlookup, Option.map_some, Option.getD_some, decide_eq_false_iff_not] at hlate
        exact Int64.not_le.mp hlate
  · intro h
    rw [if_neg]
    rw [h.credential]
    cases hlookup : bundle.subjectRevocations.lookup claims.subject with
    | none => simp
    | some issuedBefore =>
        have hlate := Int64.not_le.mpr (h.subject issuedBefore hlookup)
        simp [hlate]

/-! ## The token checks -/

def paymentsHeader : JwtHeader := ⟨"EdDSA", some "pole-workload+jwt", "key-1"⟩

def paymentsClaims : WorkloadClaims where
  issuer := "issuer"
  subject := "orders"
  aud := .one "payments"
  credentialId := "c1"
  poleVer := 1
  poleTrustDomain := "pole.local"
  poleNamespace := "prod"
  poleService := "orders"
  poleIdentityRevision := "r1"
  poleBindingType := "SERVICE_TOKEN"
  issuedAt := 150
  notBefore := 150
  expiresAt := 400

def paymentsKey : PublicKey where
  val := [234, 74, 108, 99, 226, 156, 82, 10, 190, 245, 80, 123, 19, 46, 197, 249, 149, 71, 118, 174,
    190, 190, 123, 146, 66, 30, 234, 105, 20, 70, 210, 44]
  property := rfl

def paymentsBundle : TrustBundleSnapshot where
  trustDomain := "pole.local"
  issuer := "issuer"
  version := "bundle-1"
  sequence := 1
  expiresAt := 3600
  keys := [⟨"key-1", paymentsKey, 0, 3600⟩]
  subjectRevocations := .empty
  credentialRevocations := .empty

def utf8Bytes (text : String) : List UInt8 := text.toUTF8.data.toList

def headerJson : String :=
  "\x7b\"alg\":\"EdDSA\",\"typ\":\"pole-workload+jwt\",\"kid\":\"key-1\"\x7d"

def claimsJson : String :=
  "\x7b\"iss\":\"issuer\",\"sub\":\"orders\",\"aud\":\"payments\",\"jti\":\"c1\",\"pole_ver\":1," ++
    "\"pole_trust_domain\":\"pole.local\",\"pole_namespace\":\"prod\"," ++
    "\"pole_service\":\"orders\",\"pole_identity_revision\":\"r1\"," ++
    "\"pole_binding_type\":\"SERVICE_TOKEN\",\"iat\":150,\"nbf\":150,\"exp\":400\x7d"

def paymentsSignature : List UInt8 :=
  [161, 228, 252, 175, 6, 241, 188, 142, 13, 254, 10, 154, 224, 16, 87, 127, 244, 212, 211, 28, 67,
    248, 237, 182, 160, 20, 91, 11, 208, 13, 233, 41, 31, 35, 95, 160, 13, 20, 141, 198, 150, 172,
    196, 171, 83, 113, 166, 162, 160, 180, 229, 206, 111, 50, 175, 62, 213, 7, 180, 170, 198, 169,
    28, 5]

/-! The three in Base64. -/

def headerSegment : String :=
  "eyJhbGciOiJFZERTQSIsInR5cCI6InBvbGUtd29ya2xvYWQrand0Iiwia2lkIjoia2V5LTEifQ"

def claimsSegment : String :=
  "eyJpc3MiOiJpc3N1ZXIiLCJzdWIiOiJvcmRlcnMiLCJhdWQiOiJwYXltZW50cyIsImp0aSI6ImMxIiwicG9sZV92" ++
    "ZXIiOjEsInBvbGVfdHJ1c3RfZG9tYWluIjoicG9sZS5sb2NhbCIsInBvbGVfbmFtZXNwYWNlIjoicHJvZCIsInBv" ++
    "bGVfc2VydmljZSI6Im9yZGVycyIsInBvbGVfaWRlbnRpdHlfcmV2aXNpb24iOiJyMSIsInBvbGVfYmluZGluZ190" ++
    "eXBlIjoiU0VSVklDRV9UT0tFTiIsImlhdCI6MTUwLCJuYmYiOjE1MCwiZXhwIjo0MDB9"

def signatureSegment : String :=
  "oeT8rwbxvI4N_gqa4BBXf_TU0xxD-O22oBRbC9AN6SkfI1-gDRSNxpasxKtTcaaioLTlzm8yrz7VB7SqxqkcBQ"

def paymentsToken : String :=
  headerSegment ++ "." ++ claimsSegment ++ "." ++ signatureSegment

/-- The decoders and the signature scheme on the one token. -/
def paymentsCrypto : TokenCrypto (List UInt8) PublicKey where
  base64Decode := fun encoded =>
    if encoded = headerSegment then some (utf8Bytes headerJson)
    else if encoded = claimsSegment then some (utf8Bytes claimsJson)
    else if encoded = signatureSegment then some paymentsSignature
    else none
  headerFromJson := fun bytes => if bytes = utf8Bytes headerJson then some paymentsHeader else none
  claimsFromJson := fun bytes => if bytes = utf8Bytes claimsJson then some paymentsClaims else none
  signatureFromSlice := fun bytes => if bytes.length = 64 then some bytes else none
  keyFromBytes := some
  verifyStrict := fun key signingInput signature =>
    key = paymentsKey && signingInput = headerSegment ++ "." ++ claimsSegment &&
      signature = paymentsSignature

theorem compactSegments_paymentsToken :
    compactSegments paymentsToken = .ok (headerSegment, claimsSegment, signatureSegment) := by
  have hclaims : '.' ∉ claimsSegment.toList := by
    unfold claimsSegment
    rw [String.toList_append, String.toList_append, String.toList_append, List.mem_append,
      List.mem_append, List.mem_append, not_or, not_or, not_or]
    exact ⟨⟨⟨by decide +kernel, by decide +kernel⟩, by decide +kernel⟩, by decide +kernel⟩
  have hsplit : Text.split paymentsToken '.' =
      [headerSegment, claimsSegment, signatureSegment] :=
    Text.split_eq_three_iff.mpr ⟨rfl, by decide +kernel, hclaims, by decide +kernel⟩
  have hsize : (paymentsToken.isEmpty || paymentsToken.utf8ByteSize > maxCredentialSize) = false := by
    decide +kernel
  unfold compactSegments
  rw [hsize, hsplit]
  decide +kernel

end PoleClient.Identity
