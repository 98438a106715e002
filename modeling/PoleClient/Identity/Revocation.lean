import PoleClient.Identity.Soundness
import PoleClient.Identity.TrustBundle

/-! # Revocations from the wire to the check

The bundle lists revocations; the snapshot keeps one bound for each subject, the
one that the last entry of the subject gives. A credential that only an earlier
entry revokes gets through.
-/

namespace PoleClient.Identity

open Lib

/-! ## Revoked by the bundle -/

def SubjectRevocation.Covers (revocation : SubjectRevocation) (issuedAt : Int64) : Prop :=
  ∃ timestamp, revocation.credentialsIssuedBefore = some timestamp ∧
    issuedAt ≤ timestamp.seconds

def WorkloadTrustBundle.entriesOf (bundle : WorkloadTrustBundle) (subject : String) :
    List SubjectRevocation :=
  bundle.subjectRevocations.filter fun revocation => revocation.subject = subject

/-- The credential or, by any entry, its subject is revoked. -/
def RevokedBy (bundle : WorkloadTrustBundle) (claims : WorkloadClaims) : Prop :=
  (∃ revocation ∈ bundle.credentialRevocations, revocation.credentialId = claims.credentialId) ∨
    ∃ revocation ∈ bundle.entriesOf claims.subject, revocation.Covers claims.issuedAt

/-- The last entry of the subject revokes the credential if any entry does. -/
def LastCovers (bundle : WorkloadTrustBundle) (claims : WorkloadClaims) : Prop :=
  (∃ revocation ∈ bundle.entriesOf claims.subject, revocation.Covers claims.issuedAt) →
    ∃ last, (bundle.entriesOf claims.subject).getLast? = some last ∧ last.Covers claims.issuedAt

/-- No entry of a subject has a later bound than the subject's last entry. -/
def LatestLast (bundle : WorkloadTrustBundle) : Prop :=
  ∀ subject, ∀ revocation ∈ bundle.entriesOf subject, ∀ issuedAt, revocation.Covers issuedAt →
    ∃ last, (bundle.entriesOf subject).getLast? = some last ∧ last.Covers issuedAt

/-! ## Conversion -/

theorem timestampSeconds_ok {timestamp : Option Timestamp} {seconds : Int64}
    (h : timestampSeconds timestamp = .ok seconds) :
    timestamp.map Timestamp.seconds = some seconds := by
  unfold timestampSeconds at h
  split at h
  · cases h
  · split at h
    · cases h
    · cases h
      rfl

/-- The installed bound of a subject is that of its last entry. -/
theorem lookup_convertSubjectRevocations {revocations : List SubjectRevocation}
    {installed after : Table String Int64} (subject : String)
    (h : convertSubjectRevocations installed revocations = .ok after) :
    after.lookup subject =
      match (revocations.filter fun revocation => revocation.subject = subject).getLast? with
      | none => installed.lookup subject
      | some last => last.credentialsIssuedBefore.map Timestamp.seconds := by
  induction revocations generalizing installed with
  | nil =>
      cases h
      rfl
  | cons revocation revocations ih =>
      unfold convertSubjectRevocations at h
      split at h
      · cases h
      · obtain ⟨issuedBefore, hseconds, h⟩ := succeeds_of_bind h
        rw [ih h, AList.lookup_insert_ite]
        by_cases hsubject : revocation.subject = subject
        · rw [List.filter_cons_of_pos (by simpa using hsubject), List.getLast?_cons,
            if_pos hsubject.symm]
          cases (revocations.filter fun revocation => revocation.subject = subject).getLast? with
          | none => exact (timestampSeconds_ok hseconds).symm
          | some last => rfl
        · rw [List.filter_cons_of_neg (by simpa using hsubject), if_neg (Ne.symm hsubject)]

theorem lookup_convertCredentialRevocations {revocations : List CredentialRevocation}
    {installed after : Table String Unit} (id : String)
    (h : convertCredentialRevocations installed revocations = .ok after) :
    after.lookup id = none ↔ installed.lookup id = none ∧
      ∀ revocation ∈ revocations, revocation.credentialId ≠ id := by
  induction revocations generalizing installed with
  | nil =>
      cases h
      simp
  | cons revocation revocations ih =>
      unfold convertCredentialRevocations at h
      split at h
      · cases h
      · rw [ih h, AList.lookup_insert_ite, List.forall_mem_cons]
        by_cases hid : revocation.credentialId = id
        · simp [hid]
        · simp [hid, Ne.symm hid]

section Installed

variable {convertedAt : Int64} {bundle : WorkloadTrustBundle} {snapshot : TrustBundleSnapshot}

theorem credential_clear_iff (converted : convertTrustBundle convertedAt bundle = .ok snapshot)
    (id : String) : snapshot.credentialRevocations.lookup id = none ↔
      ∀ revocation ∈ bundle.credentialRevocations, revocation.credentialId ≠ id := by
  rw [lookup_convertCredentialRevocations id (converted_of_ok converted).credentials]
  simp [Table.empty]

theorem subject_clear_iff (converted : convertTrustBundle convertedAt bundle = .ok snapshot)
    (subject : String) (issuedAt : Int64) :
    (∀ issuedBefore, snapshot.subjectRevocations.lookup subject = some issuedBefore →
        issuedBefore < issuedAt) ↔
      ¬ ∃ last, (bundle.entriesOf subject).getLast? = some last ∧ last.Covers issuedAt := by
  have hlookup := lookup_convertSubjectRevocations subject (converted_of_ok converted).subjects
  rw [hlookup]
  unfold WorkloadTrustBundle.entriesOf SubjectRevocation.Covers
  cases (bundle.subjectRevocations.filter fun revocation =>
      revocation.subject = subject).getLast? with
  | none => simp [Table.empty]
  | some last =>
      cases last.credentialsIssuedBefore with
      | none => simp
      | some timestamp => simp [Int64.not_le]

/-! ## The check -/

variable {σ κ : Type}

def tokenClaims (crypto : TokenCrypto σ κ) (token : String) : Option WorkloadClaims :=
  match compactSegments token with
  | .error _ => none
  | .ok (_, encodedClaims, _) =>
      match decodeJsonSegment crypto crypto.claimsFromJson encodedClaims with
      | .error _ => none
      | .ok claims => some claims

def TrustBundleSnapshot.withoutSubjects (snapshot : TrustBundleSnapshot) : TrustBundleSnapshot :=
  { snapshot with subjectRevocations := .empty }

def AcceptedOtherwise (crypto : TokenCrypto σ κ) (snapshot : TrustBundleSnapshot)
    (token expectedAudience : String) (now : Int64) : Prop :=
  ∃ caller, verifyJwtAt crypto snapshot.withoutSubjects token expectedAudience now = .ok caller

/-- All checks before the revocations. -/
def checkedClaims (crypto : TokenCrypto σ κ) (bundle : TrustBundleSnapshot) (token : String)
    (expectedAudience : String) (now : Int64) : Except PoleError (JwtHeader × WorkloadClaims) := do
  let (encodedHeader, encodedClaims, encodedSignature) ← compactSegments token
  let header ← decodeJsonSegment crypto crypto.headerFromJson encodedHeader
  checkHeader header
  let claims ← decodeJsonSegment crypto crypto.claimsFromJson encodedClaims
  let signature ← decodeSignature crypto encodedSignature
  checkBundle bundle now
  let key ← findKey bundle header.kid now
  checkSignature crypto key (encodedHeader ++ "." ++ encodedClaims) signature
  checkClaims bundle claims expectedAudience now
  return (header, claims)

theorem verifyJwtAt_eq (crypto : TokenCrypto σ κ) (bundle : TrustBundleSnapshot)
    (token expectedAudience : String) (now : Int64) :
    verifyJwtAt crypto bundle token expectedAudience now =
      checkedClaims crypto bundle token expectedAudience now >>= fun checked => do
        checkRevocation bundle checked.2
        return callerOf checked.1 checked.2 := by
  unfold verifyJwtAt checkedClaims
  simp only [bind_assoc, pure_bind]

theorem tokenClaims_of_segments {crypto : TokenCrypto σ κ} {token encodedHeader : String}
    {encodedClaims encodedSignature : String} {claims : WorkloadClaims}
    (hsegments : compactSegments token = .ok (encodedHeader, encodedClaims, encodedSignature))
    (hclaims : decodeJsonSegment crypto crypto.claimsFromJson encodedClaims = .ok claims) :
    tokenClaims crypto token = some claims := by
  unfold tokenClaims
  simp only [hsegments, hclaims]

theorem tokenClaims_of_checked {crypto : TokenCrypto σ κ} {bundle : TrustBundleSnapshot}
    {token expectedAudience : String} {now : Int64} {header : JwtHeader} {claims : WorkloadClaims}
    (h : checkedClaims crypto bundle token expectedAudience now = .ok (header, claims)) :
    tokenClaims crypto token = some claims := by
  unfold checkedClaims at h
  obtain ⟨⟨encodedHeader, encodedClaims, encodedSignature⟩, hsegments, h⟩ := succeeds_of_bind h
  obtain ⟨found, -, h⟩ := succeeds_of_bind h
  obtain ⟨⟨⟩, -, h⟩ := succeeds_of_bind h
  obtain ⟨decoded, hclaims, h⟩ := succeeds_of_bind h
  obtain ⟨signature, -, h⟩ := succeeds_of_bind h
  obtain ⟨⟨⟩, -, h⟩ := succeeds_of_bind h
  obtain ⟨key, -, h⟩ := succeeds_of_bind h
  obtain ⟨⟨⟩, -, h⟩ := succeeds_of_bind h
  obtain ⟨⟨⟩, -, h⟩ := succeeds_of_bind h
  cases h
  exact tokenClaims_of_segments hsegments hclaims

theorem accepted_iff (crypto : TokenCrypto σ κ) (bundle : TrustBundleSnapshot)
    (token expectedAudience : String) (now : Int64) :
    (∃ caller, verifyJwtAt crypto bundle token expectedAudience now = .ok caller) ↔
      ∃ header claims,
        checkedClaims crypto bundle token expectedAudience now = .ok (header, claims) ∧
          NotRevoked bundle claims := by
  rw [verifyJwtAt_eq]
  constructor
  · rintro ⟨caller, h⟩
    obtain ⟨⟨header, claims⟩, hchecked, h⟩ := succeeds_of_bind h
    obtain ⟨⟨⟩, hrevocation, -⟩ := succeeds_of_bind h
    exact ⟨header, claims, hchecked, checkRevocation_ok_iff.mp hrevocation⟩
  · rintro ⟨header, claims, hchecked, hclear⟩
    refine ⟨callerOf header claims, ?_⟩
    rw [hchecked]
    simp only [bind, Except.bind, checkRevocation_ok_iff.mpr hclear]
    rfl

/-! ## Completeness -/

/-- A token that the bundle revokes is not accepted. -/
def RefusesRevoked (crypto : TokenCrypto σ κ) (bundle : WorkloadTrustBundle)
    (snapshot : TrustBundleSnapshot) (token expectedAudience : String) (now : Int64) : Prop :=
  ∀ claims, tokenClaims crypto token = some claims → RevokedBy bundle claims →
    ∀ caller, verifyJwtAt crypto snapshot token expectedAudience now ≠ .ok caller

theorem acceptedOtherwise_iff {crypto : TokenCrypto σ κ} {token expectedAudience : String}
    {now : Int64} : AcceptedOtherwise crypto snapshot token expectedAudience now ↔
      ∃ header claims,
        checkedClaims crypto snapshot token expectedAudience now = .ok (header, claims) ∧
          snapshot.credentialRevocations.lookup claims.credentialId = none := by
  unfold AcceptedOtherwise
  rw [accepted_iff]
  constructor
  · rintro ⟨header, claims, hchecked, hclear⟩
    exact ⟨header, claims, hchecked, hclear.credential⟩
  · rintro ⟨header, claims, hchecked, hclear⟩
    exact ⟨header, claims, hchecked, hclear, fun _ h => nomatch h⟩

theorem refusesRevoked_iff (converted : convertTrustBundle convertedAt bundle = .ok snapshot)
    (crypto : TokenCrypto σ κ) (token expectedAudience : String) (now : Int64) :
    RefusesRevoked crypto bundle snapshot token expectedAudience now ↔
      (AcceptedOtherwise crypto snapshot token expectedAudience now →
        ∀ claims, tokenClaims crypto token = some claims → LastCovers bundle claims) := by
  rw [acceptedOtherwise_iff]
  constructor
  · rintro hrefuses ⟨header, checked, hchecked, hcredential⟩ claims hclaims hcovered
    have hsame : checked = claims :=
      Option.some.inj ((tokenClaims_of_checked hchecked).symm.trans hclaims)
    rw [hsame] at hchecked hcredential
    apply Classical.byContradiction
    intro hlast
    have hclear : NotRevoked snapshot claims :=
      ⟨hcredential, (subject_clear_iff converted claims.subject claims.issuedAt).mpr hlast⟩
    obtain ⟨caller, haccepted⟩ := (accepted_iff crypto snapshot token expectedAudience now).mpr
      ⟨header, claims, hchecked, hclear⟩
    exact hrefuses claims hclaims (.inr hcovered) caller haccepted
  · intro hlast claims hclaims hrevoked caller haccepted
    obtain ⟨header, checked, hchecked, hclear⟩ :=
      (accepted_iff crypto snapshot token expectedAudience now).mp ⟨caller, haccepted⟩
    have hsame : checked = claims :=
      Option.some.inj ((tokenClaims_of_checked hchecked).symm.trans hclaims)
    rw [hsame] at hchecked hclear
    rcases hrevoked with ⟨revocation, hmem, hid⟩ | hcovered
    · exact (credential_clear_iff converted claims.credentialId).mp hclear.credential
        revocation hmem hid
    · exact (subject_clear_iff converted claims.subject claims.issuedAt).mp hclear.subject
        (hlast ⟨header, claims, hchecked, hclear.credential⟩ claims hclaims hcovered)

/-- A revoked token is refused if and only if the last entry of its subject revokes it whenever
any entry does, or something else is wrong with it. -/
theorem revocations_complete_iff
    (converted : convertTrustBundle convertedAt bundle = .ok snapshot)
    (crypto : TokenCrypto σ κ) :
    (∀ token expectedAudience now,
      RefusesRevoked crypto bundle snapshot token expectedAudience now ↔
        (AcceptedOtherwise crypto snapshot token expectedAudience now →
          ∀ claims, tokenClaims crypto token = some claims → LastCovers bundle claims)) ∧
    (LatestLast bundle → ∀ token expectedAudience now,
      RefusesRevoked crypto bundle snapshot token expectedAudience now) := by
  constructor
  · exact refusesRevoked_iff converted crypto
  · intro hlatest token expectedAudience now
    rw [refusesRevoked_iff converted]
    rintro - claims - ⟨revocation, hmem, hcovers⟩
    exact hlatest claims.subject revocation hmem claims.issuedAt hcovers

end Installed

/-! ## Two entries for one subject -/

def ordersBundle (bounds : List Int64) : WorkloadTrustBundle where
  schemaVersion := 1
  trustDomain := "pole.local"
  issuer := "issuer"
  version := "bundle-1"
  sequence := 1
  issuedAt := some ⟨0, 0⟩
  expiresAt := some ⟨3600, 0⟩
  keys := [⟨"key-1", .ed25519, paymentsKey.val, .active, none, none⟩]
  subjectRevocations := bounds.map fun seconds => ⟨"orders", some ⟨seconds, 0⟩⟩
  credentialRevocations := []

def ordersSnapshot (bound : Int64) : TrustBundleSnapshot :=
  { paymentsBundle with subjectRevocations := Table.empty.insert "orders" bound }

theorem tokenClaims_paymentsToken :
    tokenClaims paymentsCrypto paymentsToken = some paymentsClaims :=
  tokenClaims_of_segments compactSegments_paymentsToken (by decide +kernel)

/-- With the later bound last, the token of time 150 is refused. -/
theorem later_bound_last_refuses :
    RefusesRevoked paymentsCrypto (ordersBundle [100, 200]) (ordersSnapshot 200)
      paymentsToken "payments" 200 := by
  have hconverted : convertTrustBundle 0 (ordersBundle [100, 200]) = .ok (ordersSnapshot 200) := rfl
  apply ((revocations_complete_iff hconverted paymentsCrypto).1 _ _ _).mpr
  intro _ claims hclaims _
  have hsubject : claims = paymentsClaims := by
    rw [tokenClaims_paymentsToken] at hclaims
    exact (Option.some.inj hclaims).symm
  rw [hsubject]
  exact ⟨⟨"orders", some ⟨200, 0⟩⟩, by decide, ⟨200, 0⟩, rfl, by decide⟩

/-- With the earlier bound last, the token of time 150 is accepted. -/
theorem earlier_bound_last_accepts :
    convertTrustBundle 0 (ordersBundle [200, 100]) = .ok (ordersSnapshot 100) ∧
      ¬ RefusesRevoked paymentsCrypto (ordersBundle [200, 100]) (ordersSnapshot 100)
        paymentsToken "payments" 200 := by
  refine ⟨rfl, fun hrefuses => ?_⟩
  have hcovered : RevokedBy (ordersBundle [200, 100]) paymentsClaims :=
    .inr ⟨⟨"orders", some ⟨200, 0⟩⟩, by decide, ⟨200, 0⟩, rfl, by decide⟩
  have haccepted : verifyJwtAt paymentsCrypto (ordersSnapshot 100) paymentsToken "payments" 200 =
      .ok (callerOf paymentsHeader paymentsClaims) := by
    unfold verifyJwtAt
    rw [compactSegments_paymentsToken]
    decide +kernel
  exact hrefuses paymentsClaims tokenClaims_paymentsToken hcovered _ haccepted

end PoleClient.Identity
