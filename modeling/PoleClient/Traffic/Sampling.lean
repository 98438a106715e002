import Mathlib.Data.String.Basic
import PoleClient.Lib.StableSort
import PoleClient.Traffic.IndexExactness
import PoleClient.Traffic.Security

/-! # Mirroring and mocking of sampled requests

Both evaluations collect the rules whose caller accepts the request, narrow
them down by their APIs, and then match and sample them in turn. Mirroring
takes the answers of all of them and mocking the first. A request is sampled by
a digest in which the percentage of the rule has no part, so that a larger
percentage only adds requests. The digest is a parameter.
-/

namespace PoleClient

open Lib

/-! ## Data model -/

structure SourceService where
  namespaceName : String
  service : String
deriving DecidableEq, Repr

/-- `L` stands for the labels, which are copied and never read. -/
structure MirrorDestination (L : Type) where
  namespaceName : String
  service : String
  labels : L
deriving DecidableEq, Repr

/-- `F` stands for the other fields, which are copied and never read. -/
structure MockResponse (F : Type) where
  code : String
  body : String
  other : F
deriving DecidableEq, Repr

variable (A : Type)

/-- A rule that answers some percentage of the requests. -/
structure SampledRule where
  disable : Bool
  apis : List Api
  trafficMatchRule : Option TrafficMatchRule
  percent : UInt32
  answer : Option A

structure SampledTraffic where
  enable : Bool
  priority : Int
  caller : Option SourceService
  rules : List (SampledRule A)

/-- The percentage is the field `mirror_percent` and the answer the field `destination`. -/
abbrev MirrorRule (L : Type) : Type :=
  SampledRule (MirrorDestination L)

abbrev TrafficMirror (L : Type) : Type :=
  SampledTraffic (MirrorDestination L)

/-- The percentage is the field `mock_percent` and the answer the field `response`. -/
abbrev MockRule (F : Type) : Type :=
  SampledRule (MockResponse F)

abbrev TrafficMock (F : Type) : Type :=
  SampledTraffic (MockResponse F)

variable {A}

/-- A request context with the entries of its metadata map, in the order in which it is walked. -/
structure SampledContext extends RouteContext where
  metadata : List (String × String)
  distinct : (metadata.map Prod.fst).Nodup

/-- What the default hasher yields for the sequence of texts it was given. -/
abbrev TextHasher : Type :=
  List String → UInt64

/-! ## Sampling -/

def sortedMetadata (metadata : List (String × String)) : List (String × String) :=
  metadata.insertionSort fun a b => a.1 ≤ b.1

def sampledTexts (ctx : SampledContext) (salt : String) : List String :=
  [salt, ctx.routeInfo.caller.namespaceName, ctx.routeInfo.caller.name,
    ctx.routeInfo.callee.namespaceName, ctx.routeInfo.callee.name] ++
    (sortedMetadata ctx.metadata).flatMap fun entry => [entry.1, entry.2]

def trafficSampleHit (hasher : TextHasher) (ctx : SampledContext) (percent : UInt32)
    (salt : String) : Bool :=
  if percent = 0 then false
  else if percent ≥ 100 then true
  else hasher (sampledTexts ctx salt) % 100 < percent.toUInt64

/-! ## The evaluation of both kinds of rules -/

def stringMatchesService (ruleValue actual : String) : Bool :=
  ruleValue.isEmpty || ruleValue == "*" || ruleValue == actual

def sourceServiceMatches (source : Option SourceService) (ctx : RouteContext) : Bool :=
  (source.map fun source =>
    stringMatchesService source.namespaceName ctx.routeInfo.caller.namespaceName &&
      stringMatchesService source.service ctx.routeInfo.caller.name).getD true

/-- Enabled rules in stable priority order. -/
def sampledOrder (rules : List (SampledTraffic A)) : List (SampledTraffic A) :=
  (rules.filter fun rule => rule.enable).insertionSort fun a b => a.priority ≤ b.priority

/-- What a rule files in the API index. -/
def sampledEntries (ctx : RouteContext) (rule : SampledTraffic A) :
    List (SampledRule A × List Api) :=
  if !sourceServiceMatches rule.caller ctx then []
  else
    (rule.rules.filter fun sampled => !sampled.disable && sampled.percent != 0).map
      fun sampled => (sampled, sampled.apis)

def sampledCandidates (regex : RegexEngine) (ctx : RouteContext)
    (rules : List (SampledTraffic A)) : List (SampledRule A) :=
  (ApiMatchIndex.new ((sampledOrder rules).flatMap (sampledEntries ctx))).candidates regex
    (apiMatchInput ctx)

/-- The body of the loop over the candidates; `none` continues with the next. -/
def sampledAnswer (regex : RegexEngine) (hasher : TextHasher) (ctx : SampledContext)
    (saltOf : A → String) (sampled : SampledRule A) : Option A :=
  if !trafficRuleMatches regex ctx.toRouteContext sampled.trafficMatchRule then none
  else
    match sampled.answer with
    | none => none
    | some answer =>
        if !trafficSampleHit hasher ctx sampled.percent (saltOf answer) then none
        else some answer

def mirrorSalt {L : Type} (ctx : RouteContext) (destination : MirrorDestination L) : String :=
  s!"mirror#{ctx.routeInfo.caller.namespaceName}#{ctx.routeInfo.caller.name}" ++
    s!"#{destination.namespaceName}#{destination.service}"

def mockSalt {F : Type} (ctx : RouteContext) (response : MockResponse F) : String :=
  s!"mock#{ctx.routeInfo.caller.namespaceName}#{ctx.routeInfo.caller.name}" ++
    s!"#{response.code}#{response.body}"

def evaluateMirrors {L : Type} (regex : RegexEngine) (hasher : TextHasher) (ctx : SampledContext)
    (mirrorRules : List (TrafficMirror L)) : List (MirrorDestination L) :=
  (sampledCandidates regex ctx.toRouteContext mirrorRules).filterMap
    (sampledAnswer regex hasher ctx (mirrorSalt ctx.toRouteContext))

def evaluateMock {F : Type} (regex : RegexEngine) (hasher : TextHasher) (ctx : SampledContext)
    (mockRules : List (TrafficMock F)) : Option (MockResponse F) :=
  (sampledCandidates regex ctx.toRouteContext mockRules).findSome?
    (sampledAnswer regex hasher ctx (mockSalt ctx.toRouteContext))

/-! ## Lists related place by place -/

theorem sublist_filterMap {α β γ : Type} {R : α → β → Prop} {f : α → Option γ} {g : β → Option γ}
    (keeps : ∀ a b, R a b → f a = none ∨ f a = g b) {first : List α} {second : List β}
    (h : List.Forall₂ R first second) : (first.filterMap f).Sublist (second.filterMap g) := by
  induction h with
  | nil => exact List.Sublist.refl _
  | @cons a b _ _ hab _ ih =>
      rcases keeps a b hab with hf | hf
      · rw [List.filterMap_cons_none hf]
        exact ih.trans ((List.sublist_cons_self b _).filterMap g)
      · cases hg : g b with
        | none => rwa [List.filterMap_cons_none (hf.trans hg), List.filterMap_cons_none hg]
        | some c =>
            rw [List.filterMap_cons_some (hf.trans hg), List.filterMap_cons_some hg]
            exact ih.cons_cons c

theorem sublist_flatMap {α β γ : Type} {R : α → β → Prop} {f : α → List γ} {g : β → List γ}
    (keeps : ∀ a b, R a b → (f a).Sublist (g b)) {first : List α} {second : List β}
    (h : List.Forall₂ R first second) : (first.flatMap f).Sublist (second.flatMap g) := by
  induction h with
  | nil => exact List.Sublist.refl _
  | cons hab _ ih =>
      rw [List.flatMap_cons, List.flatMap_cons]
      exact (keeps _ _ hab).append ih

/-! ## Raised percentages -/

/-- The same rule with a percentage that is no smaller. -/
structure SampledRule.Raised (sampled raised : SampledRule A) : Prop where
  same : raised = { sampled with percent := raised.percent }
  percent : sampled.percent ≤ raised.percent

structure SampledTraffic.Raised (rule raised : SampledTraffic A) : Prop where
  same : raised = { rule with rules := raised.rules }
  rules : List.Forall₂ SampledRule.Raised rule.rules raised.rules

variable {regex : RegexEngine} {hasher : TextHasher} {ctx : SampledContext} {salt : String}
  {saltOf : A → String}

@[simp] theorem trafficSampleHit_zero : trafficSampleHit hasher ctx 0 salt = false :=
  rfl

theorem trafficSampleHit_full {percent : UInt32} (full : 100 ≤ percent) :
    trafficSampleHit hasher ctx percent salt = true := by
  have hzero : percent ≠ 0 := by
    rintro rfl
    exact absurd full (by decide)
  rw [trafficSampleHit, if_neg hzero, if_pos full]

/-- The percentage has no part in the digest. -/
theorem trafficSampleHit_mono {percent raised : UInt32} (le : percent ≤ raised)
    (hit : trafficSampleHit hasher ctx percent salt = true) :
    trafficSampleHit hasher ctx raised salt = true := by
  by_cases full : 100 ≤ raised
  · exact trafficSampleHit_full full
  · unfold trafficSampleHit at hit ⊢
    by_cases hzero : percent = 0
    · rw [if_pos hzero] at hit
      cases hit
    · have hbelow : ¬ percent ≥ 100 := fun h => full (UInt32.le_trans h le)
      have hraised : raised ≠ 0 := by
        rintro rfl
        exact hzero (UInt32.le_antisymm le (by simp))
      rw [if_neg hzero, if_neg hbelow, decide_eq_true_eq, UInt64.lt_iff_toNat_lt,
        UInt32.toNat_toUInt64] at hit
      rw [if_neg hraised, if_neg full, decide_eq_true_eq, UInt64.lt_iff_toNat_lt,
        UInt32.toNat_toUInt64]
      exact Nat.lt_of_lt_of_le hit (UInt32.le_iff_toNat_le.mp le)

theorem sampledAnswer_raised {sampled raised : SampledRule A} (h : sampled.Raised raised) :
    sampledAnswer regex hasher ctx saltOf sampled = none ∨
      sampledAnswer regex hasher ctx saltOf sampled =
        sampledAnswer regex hasher ctx saltOf raised := by
  rw [h.same]
  unfold sampledAnswer
  cases trafficRuleMatches regex ctx.toRouteContext sampled.trafficMatchRule with
  | false => simp
  | true =>
      cases sampled.answer with
      | none => simp
      | some answer =>
          cases hit : trafficSampleHit hasher ctx sampled.percent (saltOf answer) with
          | false => simp [hit]
          | true => simp [hit, trafficSampleHit_mono h.percent hit]

/-- What a rule answers if it is filed and the request is one for its APIs. -/
def filedAnswer (regex : RegexEngine) (hasher : TextHasher) (ctx : SampledContext)
    (saltOf : A → String) (sampled : SampledRule A) : Option A :=
  if !sampled.disable && sampled.percent != 0 &&
      ApiMatchIndex.entryMatches regex (apiMatchInput ctx.toRouteContext) sampled.apis then
    sampledAnswer regex hasher ctx saltOf sampled
  else none

theorem filedAnswer_raised {sampled raised : SampledRule A} (h : sampled.Raised raised) :
    filedAnswer regex hasher ctx saltOf sampled = none ∨
      filedAnswer regex hasher ctx saltOf sampled =
        filedAnswer regex hasher ctx saltOf raised := by
  have hanswer : sampledAnswer regex hasher ctx saltOf sampled = none ∨
      sampledAnswer regex hasher ctx saltOf sampled =
        sampledAnswer regex hasher ctx saltOf raised := sampledAnswer_raised h
  unfold filedAnswer
  by_cases hzero : sampled.percent = 0
  · simp [hzero]
  · have hraised : raised.percent ≠ 0 := by
      intro heq
      exact hzero (UInt32.le_antisymm (heq ▸ h.percent) (by simp))
    have hdisable : raised.disable = sampled.disable := by rw [h.same]
    have hapis : raised.apis = sampled.apis := by rw [h.same]
    simp only [hdisable, hapis, bne_iff_ne.mpr hzero, bne_iff_ne.mpr hraised]
    split
    · exact hanswer
    · exact .inl rfl

def trafficAnswers (regex : RegexEngine) (hasher : TextHasher) (ctx : SampledContext)
    (saltOf : A → String) (rule : SampledTraffic A) : List A :=
  if !sourceServiceMatches rule.caller ctx.toRouteContext then []
  else rule.rules.filterMap (filedAnswer regex hasher ctx saltOf)

/-- The index only decides which rules take part. -/
theorem filterMap_sampledCandidates (rules : List (SampledTraffic A)) :
    (sampledCandidates regex ctx.toRouteContext rules).filterMap
        (sampledAnswer regex hasher ctx saltOf) =
      (sampledOrder rules).flatMap (trafficAnswers regex hasher ctx saltOf) := by
  rw [sampledCandidates, ApiMatchIndex.candidates_new, List.filter_flatMap, List.map_flatMap,
    List.filterMap_flatMap]
  congr 1
  funext rule
  unfold sampledEntries trafficAnswers
  cases sourceServiceMatches rule.caller ctx.toRouteContext with
  | false => rfl
  | true =>
      simp only [Bool.not_true, Bool.false_eq_true, if_false]
      rw [List.filter_map, List.map_map, List.filterMap_map, List.filter_filter,
        List.filterMap_filter]
      congr 1
      funext sampled
      simp only [filedAnswer, Function.comp_apply, Bool.and_comm]

theorem trafficAnswers_raised {rule raised : SampledTraffic A} (h : rule.Raised raised) :
    (trafficAnswers regex hasher ctx saltOf rule).Sublist
      (trafficAnswers regex hasher ctx saltOf raised) := by
  have hcaller : raised.caller = rule.caller := by rw [h.same]
  unfold trafficAnswers
  rw [hcaller]
  split
  · exact List.Sublist.refl _
  · exact sublist_filterMap (R := SampledRule.Raised) (fun _ _ => filedAnswer_raised) h.rules

theorem sampledOrder_raised {rules raised : List (SampledTraffic A)}
    (h : List.Forall₂ SampledTraffic.Raised rules raised) :
    List.Forall₂ SampledTraffic.Raised (sampledOrder rules) (sampledOrder raised) := by
  apply forall₂_insertionSort
  · intro rule raised other raisedOther hrule hother
    rw [hrule.same, hother.same]
  · apply List.rel_filter _ h
    intro rule raised hrule
    rw [hrule.same]

/-- The answers to a request in the order of the rules: raising percentages only adds some. -/
theorem answers_raised {rules raised : List (SampledTraffic A)}
    (h : List.Forall₂ SampledTraffic.Raised rules raised) :
    ((sampledCandidates regex ctx.toRouteContext rules).filterMap
        (sampledAnswer regex hasher ctx saltOf)).Sublist
      ((sampledCandidates regex ctx.toRouteContext raised).filterMap
        (sampledAnswer regex hasher ctx saltOf)) := by
  rw [filterMap_sampledCandidates, filterMap_sampledCandidates]
  exact sublist_flatMap (R := SampledTraffic.Raised) (fun _ _ => trafficAnswers_raised)
    (sampledOrder_raised h)

/-! ## The order of the metadata -/

theorem sortedMetadata_perm {metadata permuted : List (String × String)}
    (distinct : (metadata.map Prod.fst).Nodup) (perm : permuted.Perm metadata) :
    sortedMetadata permuted = sortedMetadata metadata := by
  have total : Std.Total fun a b : String × String => a.1 ≤ b.1 :=
    ⟨fun a b => le_total a.1 b.1⟩
  have trans : IsTrans (String × String) fun a b => a.1 ≤ b.1 :=
    ⟨fun _ _ _ hab hbc => le_trans hab hbc⟩
  have hsorted : ∀ entries : List (String × String),
      (sortedMetadata entries).Pairwise fun a b => a.1 ≤ b.1 :=
    List.pairwise_insertionSort _
  have hfirst : (sortedMetadata permuted).Perm metadata :=
    (List.perm_insertionSort _ permuted).trans perm
  have hsecond : (sortedMetadata metadata).Perm metadata := List.perm_insertionSort _ metadata
  apply List.Perm.eq_of_pairwise _ (hsorted permuted) (hsorted metadata)
    (hfirst.trans hsecond.symm)
  intro a b ha hb hab hba
  exact List.inj_on_of_nodup_map distinct (hfirst.subset ha) (hsecond.subset hb)
    (le_antisymm hab hba)

theorem trafficSampleHit_perm {other : SampledContext}
    (same : other.toRouteContext = ctx.toRouteContext) (perm : other.metadata.Perm ctx.metadata)
    (percent : UInt32) (salt : String) :
    trafficSampleHit hasher other percent salt = trafficSampleHit hasher ctx percent salt := by
  unfold trafficSampleHit sampledTexts
  rw [same, sortedMetadata_perm ctx.distinct perm]

theorem sampledAnswer_perm {other : SampledContext}
    (same : other.toRouteContext = ctx.toRouteContext) (perm : other.metadata.Perm ctx.metadata) :
    sampledAnswer regex hasher other saltOf = sampledAnswer regex hasher ctx saltOf := by
  funext sampled
  unfold sampledAnswer
  simp only [same, trafficSampleHit_perm same perm]

/-! ## The decision -/

/-- Raised percentages keep every destination, in order, and every mocked response. The bounds
hit never and always, and the order in which the metadata is walked has no influence. -/
theorem sampling_monotone (regex : RegexEngine) (hasher : TextHasher) (ctx : SampledContext) :
    (∀ (L : Type) (mirrorRules raised : List (TrafficMirror L)),
      List.Forall₂ SampledTraffic.Raised mirrorRules raised →
        (evaluateMirrors regex hasher ctx mirrorRules).Sublist
          (evaluateMirrors regex hasher ctx raised)) ∧
    (∀ (F : Type) (mockRules raised : List (TrafficMock F)),
      List.Forall₂ SampledTraffic.Raised mockRules raised →
        (evaluateMock regex hasher ctx mockRules).isSome = true →
          (evaluateMock regex hasher ctx raised).isSome = true) ∧
    (∀ (percent : UInt32) (salt : String),
      (percent = 0 → trafficSampleHit hasher ctx percent salt = false) ∧
        (100 ≤ percent → trafficSampleHit hasher ctx percent salt = true)) ∧
    ∀ other : SampledContext, other.toRouteContext = ctx.toRouteContext →
      other.metadata.Perm ctx.metadata →
      (∀ (percent : UInt32) (salt : String),
        trafficSampleHit hasher other percent salt = trafficSampleHit hasher ctx percent salt) ∧
      (∀ (L : Type) (mirrorRules : List (TrafficMirror L)),
        evaluateMirrors regex hasher other mirrorRules =
          evaluateMirrors regex hasher ctx mirrorRules) ∧
      ∀ (F : Type) (mockRules : List (TrafficMock F)),
        evaluateMock regex hasher other mockRules = evaluateMock regex hasher ctx mockRules := by
  constructor
  · intro L mirrorRules raised h
    exact answers_raised h
  constructor
  · intro F mockRules raised h hsome
    unfold evaluateMock at hsome ⊢
    rw [← List.head?_filterMap, List.isSome_head?] at hsome ⊢
    intro hnil
    apply hsome
    apply List.eq_nil_of_sublist_nil
    rw [← hnil]
    exact answers_raised h
  constructor
  · intro percent salt
    constructor
    · rintro rfl
      exact trafficSampleHit_zero
    · exact trafficSampleHit_full
  · intro other same perm
    constructor
    · exact trafficSampleHit_perm same perm
    constructor
    · intro L mirrorRules
      unfold evaluateMirrors
      rw [sampledAnswer_perm same perm, same]
    · intro F mockRules
      unfold evaluateMock
      rw [sampledAnswer_perm same perm, same]

def mirrorRule (service : String) (percent : UInt32) : MirrorRule Unit :=
  ⟨false, [], none, percent, some ⟨"prod", service, ()⟩⟩

def shadowAudit (shadow audit : UInt32) : List (TrafficMirror Unit) :=
  [⟨true, 0, none, [mirrorRule "shadow" shadow, mirrorRule "audit" audit]⟩]

def stubRule (percent : UInt32) : MockRule Unit :=
  ⟨false, [], none, percent, some ⟨"200", "stub", ()⟩⟩

def stubMock (percent : UInt32) : List (TrafficMock Unit) := [⟨true, 0, none, [stubRule percent]⟩]

def zoneContext : SampledContext where
  routeInfo := ⟨⟨"prod", "web"⟩, ⟨"prod", "orders"⟩, fun _ _ => none⟩
  authenticatedCaller := none
  metadata := [("zone", "a"), ("app", "web")]
  distinct := by decide

def swappedContext : SampledContext :=
  { zoneContext with
    metadata := [("app", "web"), ("zone", "a")]
    distinct := by decide }

/-- The values of the default hasher for the request: 40, 5 and 21 in a hundred. -/
def recordedHasher : TextHasher := fun texts =>
  if texts = sampledTexts zoneContext "mirror#prod#web#prod#shadow" then 17866650555082193640
  else if texts = sampledTexts zoneContext "mirror#prod#web#prod#audit" then 11748058658854705105
  else if texts = sampledTexts zoneContext "mock#prod#web#200#stub" then 15483612864267786721
  else 0

/-- With a greater percentage the request goes to one more destination; a mock stays. -/
theorem raised_shadow_added :
    evaluateMirrors (fun _ => none) recordedHasher zoneContext (shadowAudit 20 10) =
      [⟨"prod", "audit", ()⟩] ∧
    (evaluateMirrors (fun _ => none) recordedHasher zoneContext (shadowAudit 20 10)).Sublist
      [⟨"prod", "shadow", ()⟩, ⟨"prod", "audit", ()⟩] ∧
    (evaluateMock (fun _ => none) recordedHasher zoneContext (stubMock 50)).isSome = true ∧
    evaluateMirrors (fun _ => none) recordedHasher swappedContext (shadowAudit 60 10) =
      [⟨"prod", "shadow", ()⟩, ⟨"prod", "audit", ()⟩] := by
  have hraised : List.Forall₂ SampledTraffic.Raised (shadowAudit 20 10) (shadowAudit 60 10) := by
    refine .cons ⟨rfl, .cons ⟨rfl, by decide⟩ (.cons ⟨rfl, by decide⟩ .nil)⟩ .nil
  have hmocked : List.Forall₂ SampledTraffic.Raised (stubMock 30) (stubMock 50) :=
    .cons ⟨rfl, .cons ⟨rfl, by decide⟩ .nil⟩ .nil
  have hboth : evaluateMirrors (fun _ => none) recordedHasher zoneContext (shadowAudit 60 10) =
      [⟨"prod", "shadow", ()⟩, ⟨"prod", "audit", ()⟩] := by decide +kernel
  obtain ⟨hmirrors, hmock, -, hswapped⟩ :=
    sampling_monotone (fun _ => none) recordedHasher zoneContext
  refine ⟨by decide +kernel, ?_, ?_, ?_⟩
  · rw [← hboth]
    exact hmirrors Unit _ _ hraised
  · exact hmock Unit _ _ hmocked (by decide +kernel)
  · rw [(hswapped swappedContext rfl (by decide)).2.1 Unit, hboth]

end PoleClient
