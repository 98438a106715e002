import PoleClient.Identity.Model
import PoleClient.Lib.Run

/-! # Histories of the trust bundle

While the installed sequence stays the same, so should the security content. The
comparison of the key lists goes one way only: with a key listed twice, there is
room in the candidate for a pair that the installed bundle does not have. Nothing
else can change the content at a sequence.
-/

namespace PoleClient.Identity

open Lib

/-! ## Content -/

def TrustBundleSnapshot.pairs (bundle : TrustBundleSnapshot) : List (String × PublicKey) :=
  bundle.keys.map TrustKey.pair

/-- The same security content, whatever the order and the windows of the keys. -/
structure SameContent (s t : TrustBundleSnapshot) : Prop where
  trustDomain : s.trustDomain = t.trustDomain
  issuer : s.issuer = t.issuer
  version : s.version = t.version
  pairs : ∀ pair, pair ∈ s.pairs ↔ pair ∈ t.pairs
  subjects : ∀ subject, s.subjectRevocations.lookup subject = t.subjectRevocations.lookup subject
  credentials : ∀ id, s.credentialRevocations.lookup id = t.credentialRevocations.lookup id

/-- The sequence does not decrease, and the content changes with the sequence only. -/
structure Steady (s t : TrustBundleSnapshot) : Prop where
  sequence : s.sequence ≤ t.sequence
  content : s.sequence = t.sequence → SameContent s t

theorem SameContent.refl (s : TrustBundleSnapshot) : SameContent s s :=
  ⟨rfl, rfl, rfl, fun _ => Iff.rfl, fun _ => rfl, fun _ => rfl⟩

theorem SameContent.trans {s t u : TrustBundleSnapshot} (first : SameContent s t)
    (second : SameContent t u) : SameContent s u where
  trustDomain := first.trustDomain.trans second.trustDomain
  issuer := first.issuer.trans second.issuer
  version := first.version.trans second.version
  pairs := fun pair => (first.pairs pair).trans (second.pairs pair)
  subjects := fun subject => (first.subjects subject).trans (second.subjects subject)
  credentials := fun id => (first.credentials id).trans (second.credentials id)

theorem Steady.refl (s : TrustBundleSnapshot) : Steady s s :=
  ⟨UInt64.le_refl _, fun _ => .refl s⟩

theorem Steady.trans {s t u : TrustBundleSnapshot} (first : Steady s t) (second : Steady t u) :
    Steady s u := by
  constructor
  · exact UInt64.le_trans first.sequence second.sequence
  · intro hsequence
    have hfirst : s.sequence = t.sequence :=
      UInt64.le_antisymm first.sequence (hsequence ▸ second.sequence)
    exact (first.content hfirst).trans (second.content (hfirst ▸ hsequence))

/-! ## The comparison -/

/-- What the comparison of two bundles tells. -/
structure Compared (current candidate : TrustBundleSnapshot) : Prop where
  trustDomain : current.trustDomain = candidate.trustDomain
  issuer : current.issuer = candidate.issuer
  version : current.version = candidate.version
  length : current.pairs.length = candidate.pairs.length
  kept : current.pairs ⊆ candidate.pairs
  subjects : ∀ subject,
    current.subjectRevocations.lookup subject = candidate.subjectRevocations.lookup subject
  credentials : ∀ id,
    current.credentialRevocations.lookup id = candidate.credentialRevocations.lookup id

theorem compared_of_same {current candidate : TrustBundleSnapshot}
    (h : sameTrustBundleSecurityContent current candidate = true) :
    Compared current candidate := by
  unfold sameTrustBundleSecurityContent at h
  simp only [Bool.and_eq_true, beq_iff_eq, List.all_eq_true, List.any_eq_true,
    AList.agrees_iff] at h
  obtain ⟨⟨⟨⟨⟨⟨hdomain, hissuer⟩, hversion⟩, hlength⟩, hkeys⟩, hsubjects⟩, hcredentials⟩ := h
  refine ⟨hdomain, hissuer, hversion, ?_, ?_, hsubjects, hcredentials⟩
  · simpa [TrustBundleSnapshot.pairs] using hlength
  · intro pair hpair
    obtain ⟨key, hkey, rfl⟩ := List.mem_map.mp hpair
    obtain ⟨other, hother, hid, hpublic⟩ := hkeys key hkey
    exact List.mem_map.mpr ⟨other, hother, Prod.ext hid.symm hpublic.symm⟩

/-- A candidate of the installed sequence brings a key that the installed bundle lacks. -/
def Introduces (current candidate : TrustBundleSnapshot) : Prop :=
  candidate.sequence = current.sequence ∧
    sameTrustBundleSecurityContent current candidate = true ∧
    ∃ pair ∈ candidate.pairs, pair ∉ current.pairs

/-- Without a repeated pair there is no room for another one. -/
theorem not_introduces_of_nodup {current candidate : TrustBundleSnapshot}
    (nodup : current.pairs.Nodup) : ¬ Introduces current candidate := by
  rintro ⟨-, hsame, pair, hpair, hnew⟩
  have hcompared := compared_of_same hsame
  have hperm : current.pairs.Perm candidate.pairs :=
    (List.subperm_of_subset nodup hcompared.kept).perm_of_length_le
      (Nat.le_of_eq hcompared.length.symm)
  exact hnew (hperm.mem_iff.mpr hpair)

theorem sameContent_of_compared {current candidate : TrustBundleSnapshot}
    (compared : Compared current candidate)
    (known : ∀ pair ∈ candidate.pairs, pair ∈ current.pairs) : SameContent current candidate where
  trustDomain := compared.trustDomain
  issuer := compared.issuer
  version := compared.version
  pairs := fun pair => ⟨fun h => compared.kept h, known pair⟩
  subjects := compared.subjects
  credentials := compared.credentials

/-! ## One replacement -/

def Versioned (s : TrustBundleSnapshot) : Prop :=
  s.sequence ≠ 0 → s.version.isEmpty = false

theorem replace_cases (current bundle : TrustBundleSnapshot) :
    (∃ err, replaceTrustBundle current bundle = (current, .error err)) ∨
      (replaceTrustBundle current bundle = (bundle, .ok ()) ∧
        current.sequence ≤ bundle.sequence ∧
        (bundle.sequence = current.sequence → current.version.isEmpty = false →
          sameTrustBundleSecurityContent current bundle = true)) := by
  unfold replaceTrustBundle
  by_cases hless : bundle.sequence < current.sequence
  · rw [if_pos hless]
    exact .inl ⟨_, rfl⟩
  · have hle : current.sequence ≤ bundle.sequence := UInt64.not_lt.mp hless
    rw [if_neg hless]
    split
    · rename_i hsame
      split
      · exact .inl ⟨_, rfl⟩
      · split
        · exact .inl ⟨_, rfl⟩
        · rename_i hcontent
          exact .inr ⟨rfl, hle, fun _ _ => by simpa using hcontent⟩
    · rename_i hother
      refine .inr ⟨rfl, hle, fun hsequence hversion => ?_⟩
      exact absurd ⟨hsequence, by simp [hversion]⟩ hother

theorem replace_error {current bundle : TrustBundleSnapshot} {err : PoleError}
    (h : (replaceTrustBundle current bundle).2 = .error err) :
    (replaceTrustBundle current bundle).1 = current := by
  rcases replace_cases current bundle with ⟨other, hcase⟩ | ⟨hcase, -⟩
  · rw [hcase]
  · rw [hcase] at h
    cases h

/-! ## The conversion -/

/-- What an accepted bundle is, and where the parts of its snapshot come from. -/
structure Converted (now : Int64) (bundle : WorkloadTrustBundle)
    (candidate : TrustBundleSnapshot) : Prop where
  positive : candidate.sequence ≠ 0
  trustDomain : candidate.trustDomain = bundle.trustDomain ∧ isBlank bundle.trustDomain = false
  issuer : candidate.issuer = bundle.issuer ∧ isBlank bundle.issuer = false
  version : candidate.version = bundle.version ∧ isBlank bundle.version = false
  unexpired : now < candidate.expiresAt
  keys : convertKeys bundle.issuedAt candidate.expiresAt bundle.keys = .ok candidate.keys
  subjects : convertSubjectRevocations .empty bundle.subjectRevocations =
    .ok candidate.subjectRevocations
  credentials : convertCredentialRevocations .empty bundle.credentialRevocations =
    .ok candidate.credentialRevocations

theorem converted_of_ok {now : Int64} {bundle : WorkloadTrustBundle}
    {candidate : TrustBundleSnapshot} (h : convertTrustBundle now bundle = .ok candidate) :
    Converted now bundle candidate := by
  unfold convertTrustBundle at h
  split at h
  · cases h
  · rename_i hvalid
    simp only [Bool.or_eq_true, decide_eq_true_eq, not_or, Bool.not_eq_true] at hvalid
    obtain ⟨⟨⟨⟨-, hsequence⟩, hdomain⟩, hversion⟩, hissuer⟩ := hvalid
    obtain ⟨expiresAt, -, h⟩ := succeeds_of_bind h
    split at h
    · cases h
    · rename_i hexpires
      obtain ⟨keys, hkeys, h⟩ := succeeds_of_bind h
      split at h
      · cases h
      · obtain ⟨subjects, hsubjects, h⟩ := succeeds_of_bind h
        obtain ⟨credentials, hcredentials, h⟩ := succeeds_of_bind h
        cases h
        exact {
          positive := hsequence
          trustDomain := ⟨rfl, hdomain⟩
          issuer := ⟨rfl, hissuer⟩
          version := ⟨rfl, hversion⟩
          unexpired := Int64.not_le.mp hexpires
          keys := hkeys
          subjects := hsubjects
          credentials := hcredentials }

theorem nonempty_of_not_blank {s : String} (h : isBlank s = false) : s.isEmpty = false := by
  cases hs : s.isEmpty with
  | false => rfl
  | true =>
      rw [String.isEmpty_iff.mp hs] at h
      cases h

/-! ## Histories -/

def step (current : TrustBundleSnapshot) (update : BundleUpdate) : TrustBundleSnapshot :=
  (handleBundle current update).1

/-- The update brings no key to the sequence that is installed. -/
def IntroducesNothing (current : TrustBundleSnapshot) (update : BundleUpdate) : Prop :=
  ∀ candidate, convertTrustBundle update.now update.bundle = .ok candidate →
    ¬ Introduces current candidate

theorem step_cases (s : TrustBundleSnapshot) (update : BundleUpdate) :
    step s update = s ∨ ∃ candidate, convertTrustBundle update.now update.bundle = .ok candidate ∧
      step s update = candidate ∧ s.sequence ≤ candidate.sequence := by
  unfold step handleBundle
  cases convertTrustBundle update.now update.bundle with
  | error err => exact .inl rfl
  | ok candidate =>
      rcases replace_cases s candidate with ⟨err, hcase⟩ | ⟨hcase, hle, -⟩
      · left
        simp only [hcase]
      · refine .inr ⟨candidate, rfl, ?_, hle⟩
        simp only [hcase]

theorem versioned_step {s : TrustBundleSnapshot} (inv : Versioned s) (update : BundleUpdate) :
    Versioned (step s update) := by
  rcases step_cases s update with heq | ⟨candidate, hconvert, heq, -⟩
  · rw [heq]
    exact inv
  · rw [heq]
    intro _
    have hversion := (converted_of_ok hconvert).version
    rw [hversion.1]
    exact nonempty_of_not_blank hversion.2

theorem sequence_step (s : TrustBundleSnapshot) (update : BundleUpdate) :
    s.sequence ≤ (step s update).sequence := by
  rcases step_cases s update with heq | ⟨candidate, -, heq, hle⟩
  · rw [heq]
    exact UInt64.le_refl _
  · rw [heq]
    exact hle

/-- One update is steady if and only if it introduces nothing. -/
theorem steady_step_iff {s : TrustBundleSnapshot} (inv : Versioned s) (update : BundleUpdate) :
    Steady s (step s update) ↔ IntroducesNothing s update := by
  unfold step handleBundle IntroducesNothing
  cases hconvert : convertTrustBundle update.now update.bundle with
  | error err => exact ⟨fun _ _ h => (nomatch h), fun _ => .refl s⟩
  | ok candidate =>
      have hpositive := (converted_of_ok hconvert).positive
      rcases replace_cases s candidate with ⟨err, hcase⟩ | ⟨hcase, hle, hcompare⟩
      · simp only [hcase]
        constructor
        · intro _ other hother hintroduces
          cases hother
          obtain ⟨hsequence, hsame, -⟩ := hintroduces
          have hversion := (compared_of_same hsame).version
          -- The comparison itself accepts what it finds the same.
          have hnonempty := inv (hsequence ▸ hpositive)
          unfold replaceTrustBundle at hcase
          rw [if_neg (by simp [hsequence]), if_pos ⟨hsequence, by simp [hnonempty]⟩,
            if_neg (by simp [hversion]), if_neg (by simp [hsame])] at hcase
          cases hcase
        · exact fun _ => .refl s
      · simp only [hcase]
        constructor
        · intro hsteady other hother hintroduces
          cases hother
          obtain ⟨hsequence, -, pair, hpair, hnew⟩ := hintroduces
          exact hnew (((hsteady.content hsequence.symm).pairs pair).mpr hpair)
        · intro hnothing
          refine ⟨hle, fun hsequence => ?_⟩
          have hsame := hcompare hsequence.symm (inv (hsequence ▸ hpositive))
          apply sameContent_of_compared (compared_of_same hsame)
          intro pair hpair
          apply Classical.byContradiction
          exact fun hnew => hnothing candidate rfl ⟨hsequence.symm, hsame, pair, hpair, hnew⟩

theorem versioned_empty : Versioned .empty :=
  fun h => absurd rfl h

theorem versioned_run (updates : List BundleUpdate) : Versioned (run step .empty updates) :=
  run_preserves Versioned (fun _ update inv => versioned_step inv update) updates versioned_empty

theorem sequence_run (s : TrustBundleSnapshot) (updates : List BundleUpdate) :
    s.sequence ≤ (run step s updates).sequence := by
  apply run_preserves (fun t : TrustBundleSnapshot => s.sequence ≤ t.sequence)
  · exact fun t update h => UInt64.le_trans h (sequence_step t update)
  · exact UInt64.le_refl _

theorem steady_run {s : TrustBundleSnapshot} (inv : Versioned s) {updates : List BundleUpdate}
    (nothing : Along step IntroducesNothing s updates) : Steady s (run step s updates) := by
  induction updates generalizing s with
  | nil => exact .refl s
  | cons update updates ih =>
      have hstep := (steady_step_iff inv update).mpr nothing.1
      exact hstep.trans (ih (versioned_step inv update) nothing.2)

theorem introducesNothing_of_nodup {updates : List BundleUpdate}
    (nodup : ∀ update ∈ updates, ∀ candidate,
      convertTrustBundle update.now update.bundle = .ok candidate → candidate.pairs.Nodup) :
    Along step IntroducesNothing .empty updates := by
  have hnodup : Along step (fun _ update => ∀ candidate,
      convertTrustBundle update.now update.bundle = .ok candidate → candidate.pairs.Nodup)
      .empty updates := along_of_forall fun update hmem _ => nodup update hmem
  refine @along_of_invariant _ _ step _ IntroducesNothing (fun s => s.pairs.Nodup) ?_ ?_ _ updates
    List.nodup_nil hnodup
  · intro s update inv ok
    rcases step_cases s update with heq | ⟨candidate, hconvert, heq, -⟩
    · rw [heq]
      exact inv
    · rw [heq]
      exact ok candidate hconvert
  · exact fun s update inv _ candidate _ => not_introduces_of_nodup inv

/-- A refused bundle changes nothing and the sequence never decreases. The content at a sequence
never changes if and only if no update introduces a key at the installed sequence, and none does
when no bundle repeats a key. -/
theorem trust_bundle_steady_iff (updates : List BundleUpdate) :
    (∀ current bundle err, (replaceTrustBundle current bundle).2 = .error err →
      (replaceTrustBundle current bundle).1 = current) ∧
    (∀ first second, first ++ second <+: updates →
      (run step .empty first).sequence ≤ (run step .empty (first ++ second)).sequence) ∧
    ((∀ first second, first ++ second <+: updates →
        Steady (run step .empty first) (run step .empty (first ++ second))) ↔
      Along step IntroducesNothing .empty updates) ∧
    ((∀ update ∈ updates, ∀ candidate,
        convertTrustBundle update.now update.bundle = .ok candidate → candidate.pairs.Nodup) →
      Along step IntroducesNothing .empty updates) := by
  refine ⟨fun _ _ _ => replace_error, fun first second _ => ?_, ⟨fun hsteady => ?_, ?_⟩,
    introducesNothing_of_nodup⟩
  · rw [run_append]
    exact sequence_run _ second
  · rw [along_iff]
    intro first update hpart
    have hstep := hsteady first [update] hpart
    rw [run_append] at hstep
    exact (steady_step_iff (versioned_run first) update).mp hstep
  · intro hnothing first second hpart
    rw [run_append]
    apply steady_run (versioned_run first)
    rw [along_iff] at hnothing ⊢
    intro part update hrest
    have hlonger : first ++ part ++ [update] <+: updates := by
      rw [List.append_assoc]
      exact ((List.prefix_append_right_inj first).mpr hrest).trans hpart
    have hthere := hnothing (first ++ part) update hlonger
    rwa [run_append] at hthere

/-! ## A key listed twice -/

def hourKey (keyId : String) (byte : UInt8) : WorkloadVerificationKey where
  keyId := keyId
  algorithm := .ed25519
  publicKey := List.replicate 32 byte
  state := .active
  notBefore := none
  notAfter := none

def hourBundle (keys : List WorkloadVerificationKey) : WorkloadTrustBundle where
  schemaVersion := 1
  trustDomain := "pole.local"
  issuer := "issuer"
  version := "bundle-1"
  sequence := 1
  issuedAt := none
  expiresAt := some ⟨3600, 0⟩
  keys := keys
  subjectRevocations := []
  credentialRevocations := []

def repeatedKeyUpdates : List BundleUpdate :=
  [⟨0, hourBundle [hourKey "key-1" 7, hourKey "key-1" 7]⟩,
    ⟨0, hourBundle [hourKey "key-1" 7, hourKey "key-2" 8]⟩]

/-- The second key comes in at the sequence of the first bundle. -/
theorem second_key_introduced :
    (run step .empty repeatedKeyUpdates).sequence = 1 ∧
      (run step .empty (repeatedKeyUpdates.take 1)).sequence = 1 ∧
      ¬ Steady (run step .empty (repeatedKeyUpdates.take 1))
        (run step .empty repeatedKeyUpdates) := by
  have hfirst : (run step .empty (repeatedKeyUpdates.take 1)).pairs.map Prod.fst =
      ["key-1", "key-1"] := by decide
  have hsecond : (run step .empty repeatedKeyUpdates).pairs.map Prod.fst =
      ["key-1", "key-2"] := by decide
  refine ⟨by decide, by decide, fun hsteady => ?_⟩
  have hmem : "key-2" ∈ (run step .empty repeatedKeyUpdates).pairs.map Prod.fst := by
    rw [hsecond]
    decide
  obtain ⟨pair, hpair, hid⟩ := List.mem_map.mp hmem
  have hold := ((hsteady.content (by decide)).pairs pair).mpr hpair
  have hnone : "key-2" ∈ (run step .empty (repeatedKeyUpdates.take 1)).pairs.map Prod.fst :=
    List.mem_map.mpr ⟨pair, hold, hid⟩
  rw [hfirst] at hnone
  revert hnone
  decide

end PoleClient.Identity
