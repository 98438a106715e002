import PoleClient.Traffic.Security

/-! # What the security gate decides

The authentication of a rule and its first accepting policy are stated as
predicates; each rule then denies, allows or passes the request on. A request
is allowed exactly when every denying rule comes after an allowing one.
-/

namespace PoleClient

variable {E : Type}

/-! ## Authentication -/

/-- The collected difference vanishes only on equal digests. -/
theorem digestDifference_eq_zero_iff {actual expected : List UInt8}
    (length : actual.length = expected.length) :
    digestDifference actual expected = 0 ↔ actual = expected := by
  have collect : ∀ (pairs : List (UInt8 × UInt8)) (seed : UInt8),
      pairs.foldl (fun difference pair => difference ||| (pair.1 ^^^ pair.2)) seed = 0 ↔
        seed = 0 ∧ ∀ pair ∈ pairs, pair.1 = pair.2 := by
    intro pairs
    induction pairs with
    | nil => simp
    | cons pair pairs ih =>
        intro seed
        rw [List.foldl_cons, ih]
        simp [and_assoc]
  unfold digestDifference
  rw [collect]
  constructor
  · intro h
    refine List.ext_getElem length fun i h₁ h₂ => ?_
    have hzip : i < (actual.zip expected).length := by
      rw [List.length_zip]
      omega
    simpa using h.2 _ (List.getElem_mem hzip)
  · intro h
    subst h
    refine ⟨rfl, fun pair hpair => ?_⟩
    rcases List.getElem_of_mem hpair with ⟨i, hi, rfl⟩
    simp

/-- A header is accepted through the hexadecimal SHA-256 digest of its value only. -/
structure CustomHeaderAccepted (crypto : SecurityCrypto) (ctx : RouteContext)
    (custom : CustomHeaderAuthentication) : Prop where
  noClearValue : custom.value = ""
  headerNamed : Text.trim custom.headerName ≠ ""
  digestLength : custom.valueSha256.length = 64
  digestDigits : ∀ c ∈ custom.valueSha256.toList, Text.isHexDigit c = true
  digestEqual : ∃ actual, ctx.routeInfo.trafficLabelProvider .header custom.headerName =
    some actual ∧ crypto.hexDecode custom.valueSha256 = some (crypto.sha256 actual).toList

/-- What each authentication mode asks for. -/
def AuthenticationAccepted (crypto : SecurityCrypto) (ctx : RouteContext) :
    Option TrafficSecurityAuthentication → Prop
  | none => True
  | some authentication =>
      match authentication.mode with
      | .unknown _ => False
      | .known .legacyRequestMatch =>
          authentication.managedIdentity = none ∧ authentication.customHeader = none
      | .known .managedIdentity =>
          authentication.managedIdentity ≠ none ∧ authentication.customHeader = none ∧
            ctx.authenticatedCaller ≠ none
      | .known .customHeader =>
          authentication.managedIdentity = none ∧
            ∃ custom, authentication.customHeader = some custom ∧
              CustomHeaderAccepted crypto ctx custom

variable {crypto : SecurityCrypto} {ctx : RouteContext}

theorem customHeaderAuthenticated_iff (custom : CustomHeaderAuthentication)
    (hexDigits : ∀ s bytes, crypto.hexDecode s = some bytes →
      ∀ c ∈ s.toList, Text.isHexDigit c = true) :
    customHeaderAuthenticated crypto ctx custom = true ↔
      CustomHeaderAccepted crypto ctx custom := by
  unfold customHeaderAuthenticated
  constructor
  · intro h
    split at h
    · simp at h
    · next hshape =>
      simp only [Bool.not_eq_true, Bool.or_eq_false_iff, Bool.not_eq_false',
        String.isEmpty_iff, bne_eq_false_iff_eq] at hshape
      split at h
      · simp at h
      · next actual hactual =>
        split at h
        · simp at h
        · next expected hexpected =>
          split at h
          · simp at h
          · next hlength =>
            have digits := hexDigits _ _ hexpected
            have hdigest : (crypto.sha256 actual).toList = expected := by
              refine (digestDifference_eq_zero_iff ?_).mp (by simpa using h)
              simpa using (not_not.mp hlength).symm
            refine ⟨hshape.1.1, by simpa [String.isEmpty_iff] using hshape.1.2, ?_, digits, actual,
              hactual, by rw [hexpected, hdigest]⟩
            rw [← Text.utf8ByteSize_of_isHexDigit digits]
            exact hshape.2
  · intro h
    rcases h.digestEqual with ⟨actual, hactual, hdecode⟩
    have hsize : custom.valueSha256.utf8ByteSize = 64 :=
      (Text.utf8ByteSize_of_isHexDigit h.digestDigits).trans h.digestLength
    have hequal :
        digestDifference (crypto.sha256 actual).toList (crypto.sha256 actual).toList = 0 :=
      (digestDifference_eq_zero_iff rfl).mpr rfl
    simp [h.noClearValue, h.headerNamed, hsize, hactual, hdecode, hequal]

variable (ctx) in
theorem securityRuleAuthenticated_iff (authentication : Option TrafficSecurityAuthentication)
    (hexDigits : ∀ s bytes, crypto.hexDecode s = some bytes →
      ∀ c ∈ s.toList, Text.isHexDigit c = true) :
    securityRuleAuthenticated crypto ctx authentication = true ↔
      AuthenticationAccepted crypto ctx authentication := by
  unfold securityRuleAuthenticated AuthenticationAccepted
  cases authentication with
  | none => simp
  | some authentication =>
      rcases authentication with ⟨mode, managedIdentity, customHeader⟩
      cases mode with
      | unknown number => simp [ProtoEnum.tryFrom]
      | known mode =>
          cases mode with
          | legacyRequestMatch => simp [ProtoEnum.tryFrom]
          | managedIdentity => simp [ProtoEnum.tryFrom, Option.isSome_iff_ne_none, and_assoc]
          | customHeader =>
              cases customHeader with
              | none => simp [ProtoEnum.tryFrom]
              | some custom =>
                  cases managedIdentity with
                  | none =>
                      simpa [ProtoEnum.tryFrom, Option.filter] using
                        customHeaderAuthenticated_iff custom hexDigits
                  | some identity => simp [ProtoEnum.tryFrom]

/-! ## One rule -/

def policyAccepts (regex : RegexEngine) (ctx : RouteContext) (managedIdentity : Bool)
    (policy : TrafficSecurityPolicy E) : Bool :=
  (!managedIdentity || managedCallerMatches ctx policy.managedCaller) &&
    trafficRuleMatches regex ctx policy.trafficMatchRule

section Rules

variable (regex : RegexEngine) (crypto : SecurityCrypto) (ctx : RouteContext)
variable (candidatesOf : TrafficSecurityRule E → List (TrafficSecurityPolicy E))

def firstAccepting (rule : TrafficSecurityRule E) : Option (TrafficSecurityPolicy E) :=
  (candidatesOf rule).find? (policyAccepts regex ctx (isManagedIdentity rule))

/-- Failed authentication, a managed rule that accepts nobody, or a first match with `deny`. -/
def RuleDenies (rule : TrafficSecurityRule E) : Prop :=
  ¬ AuthenticationAccepted crypto ctx rule.authentication ∨
    (isManagedIdentity rule = true ∧ firstAccepting regex ctx candidatesOf rule = none) ∨
    ∃ policy, firstAccepting regex ctx candidatesOf rule = some policy ∧ policy.action = .deny

/-- Authentication succeeds and the first match has action `allow`. -/
def RuleAllows (rule : TrafficSecurityRule E) : Prop :=
  AuthenticationAccepted crypto ctx rule.authentication ∧
    ∃ policy, firstAccepting regex ctx candidatesOf rule = some policy ∧ policy.action = .allow

theorem policyDecision_eq (managedIdentity : Bool) (policies : List (TrafficSecurityPolicy E)) :
    policyDecision regex ctx managedIdentity policies =
      (policies.find? (policyAccepts regex ctx managedIdentity)).map fun policy =>
        securityDecision policy.action policy.rejectEffect := by
  induction policies with
  | nil => rfl
  | cons policy policies ih =>
      rw [policyDecision, List.find?_cons, ih]
      unfold policyAccepts
      cases managedIdentity <;> cases managedCallerMatches ctx policy.managedCaller <;>
        cases trafficRuleMatches regex ctx policy.trafficMatchRule <;> simp

variable {regex crypto ctx candidatesOf} {rule : TrafficSecurityRule E}

variable (regex ctx) in
/-- A rule with candidates ends the scan with a refusal, ends it with a pass, or neither. -/
theorem ruleDecision_cases (hexDigits : ∀ s bytes, crypto.hexDecode s = some bytes →
      ∀ c ∈ s.toList, Text.isHexDigit c = true) (candidates : candidatesOf rule ≠ []) :
    (∃ effect, ruleDecision regex crypto ctx (candidatesOf rule) rule = some ⟨false, effect⟩ ∧
        RuleDenies regex crypto ctx candidatesOf rule ∧
        ¬ RuleAllows regex crypto ctx candidatesOf rule) ∨
      (ruleDecision regex crypto ctx (candidatesOf rule) rule = some ⟨true, none⟩ ∧
        RuleAllows regex crypto ctx candidatesOf rule ∧
        ¬ RuleDenies regex crypto ctx candidatesOf rule) ∨
      (ruleDecision regex crypto ctx (candidatesOf rule) rule = none ∧
        ¬ RuleDenies regex crypto ctx candidatesOf rule ∧
        ¬ RuleAllows regex crypto ctx candidatesOf rule) := by
  have hauth := securityRuleAuthenticated_iff ctx rule.authentication hexDigits
  have hnonempty : (candidatesOf rule).isEmpty = false := by
    simpa using candidates
  unfold ruleDecision RuleDenies RuleAllows
  rw [policyDecision_eq, hnonempty, ← hauth]
  cases hok : securityRuleAuthenticated crypto ctx rule.authentication with
  | false => simp
  | true =>
      cases hfirst : firstAccepting regex ctx candidatesOf rule with
      | none =>
          have hfind := hfirst
          unfold firstAccepting at hfind
          cases hmanaged : isManagedIdentity rule <;> rw [hmanaged] at hfind <;> simp [hfind]
      | some policy =>
          have hfind := hfirst
          unfold firstAccepting at hfind
          cases haction : policy.action <;>
            simp [hfind, haction, securityDecision, default]

theorem ruleDecision_nil (rule : TrafficSecurityRule E) :
    ruleDecision regex crypto ctx [] rule = none := by
  simp [ruleDecision]

end Rules

/-! ## The scan -/

/-- Every member with `D` comes after one with `A`. -/
def PrecededBy {α : Type} (A D : α → Prop) (l : List α) : Prop :=
  ∀ (j : Nat) (x : α), l[j]? = some x → D x → ∃ i, i < j ∧ ∃ a, l[i]? = some a ∧ A a

theorem precededBy_nil {α : Type} (A D : α → Prop) : PrecededBy A D [] := by
  intro j x hx
  simp at hx

theorem precededBy_cons {α : Type} {A D : α → Prop} {x : α} {l : List α} :
    PrecededBy A D (x :: l) ↔ ¬ D x ∧ (A x ∨ PrecededBy A D l) := by
  constructor
  · intro h
    refine ⟨fun hD => ?_, ?_⟩
    · rcases h 0 x rfl hD with ⟨i, hi, -⟩
      omega
    · by_cases hA : A x
      · exact .inl hA
      · right
        intro j y hy hD
        rcases h (j + 1) y (by simpa using hy) hD with ⟨i, hi, a, ha, hAa⟩
        cases i with
        | zero =>
            obtain rfl : x = a := by simpa using ha
            exact absurd hAa hA
        | succ i => exact ⟨i, by omega, a, by simpa using ha, hAa⟩
  · intro h j y hy hD
    cases j with
    | zero =>
        obtain rfl : x = y := by simpa using hy
        exact absurd hD h.1
    | succ j =>
        rcases h.2 with hA | hl
        · exact ⟨0, by omega, x, rfl, hA⟩
        · rcases hl j y (by simpa using hy) hD with ⟨i, hi, a, ha, hAa⟩
          exact ⟨i + 1, by omega, a, by simpa using ha, hAa⟩

variable {regex : RegexEngine}
variable {candidatesOf : TrafficSecurityRule E → List (TrafficSecurityPolicy E)}

theorem securityScan_allowed_iff (hexDigits : ∀ s bytes, crypto.hexDecode s = some bytes →
      ∀ c ∈ s.toList, Text.isHexDigit c = true) (rules : List (TrafficSecurityRule E)) :
    (securityScan regex crypto ctx candidatesOf rules).allowed = true ↔
      PrecededBy (RuleAllows regex crypto ctx candidatesOf)
        (RuleDenies regex crypto ctx candidatesOf)
        (rules.filter fun rule => !(candidatesOf rule).isEmpty) := by
  induction rules with
  | nil => simp [securityScan, default, precededBy_nil]
  | cons rule rules ih =>
      rw [securityScan, List.filter_cons]
      by_cases hcandidates : candidatesOf rule = []
      · rw [hcandidates, ruleDecision_nil]
        simpa using ih
      · have hkeep : (!(candidatesOf rule).isEmpty) = true := by
          simpa using hcandidates
        rw [if_pos hkeep, precededBy_cons]
        rcases ruleDecision_cases regex ctx hexDigits hcandidates with
          ⟨effect, hdecision, hdenies, -⟩ | ⟨hdecision, hallows, hpasses⟩ |
          ⟨hdecision, hpasses, hnot⟩
        · simp [hdecision, hdenies]
        · simp [hdecision, hallows, hpasses]
        · simpa [hdecision, hpasses, hnot] using ih

def secretDigestText : String :=
  "2bb80d537b1da3e38bd30361aa855686bde0eacd7162fef6a25fe97bf527a25b"

def secretDigest : Vector UInt8 32 :=
  #v[0x2b, 0xb8, 0x0d, 0x53, 0x7b, 0x1d, 0xa3, 0xe3, 0x8b, 0xd3, 0x03, 0x61,
    0xaa, 0x85, 0x56, 0x86, 0xbd, 0xe0, 0xea, 0xcd, 0x71, 0x62, 0xfe, 0xf6,
    0xa2, 0x5f, 0xe9, 0x7b, 0xf5, 0x27, 0xa2, 0x5b]

/-- The crypto functions at the one value used below. -/
def secretCrypto : SecurityCrypto where
  sha256 _ := secretDigest
  hexDecode s := if s = secretDigestText then some secretDigest.toList else none

theorem secretCrypto_hexDigits (s : String) (bytes : List UInt8)
    (h : secretCrypto.hexDecode s = some bytes) : ∀ c ∈ s.toList, Text.isHexDigit c = true := by
  by_cases hs : s = secretDigestText
  · subst hs
    exact List.all_eq_true.mp (by decide : secretDigestText.toList.all Text.isHexDigit = true)
  · simp [secretCrypto, hs] at h

end PoleClient
