import PoleClient.Traffic.Matcher

/-! # Exactness of the API index

Each insertion is described by the one predicate it adds to the collected
candidates; the loop of `new` then gives membership of the whole index, and the
ordered scan turns membership into the filtered entry list. What remains is a
comparison of two predicates on a single API.
-/

namespace PoleClient

open Lib

variable {T : Type}

/-! ## The predicate the buckets decide -/

def pathMatches (regex : RegexEngine) (input : ApiMatchInput) (api : Api) : Bool :=
  match exactTextPath api.path with
  | .any => true
  | .exact path => input.path == some path
  | .fallback => apiMatches regex input api

def indexMatches (regex : RegexEngine) (input : ApiMatchInput) (api : Api) : Bool :=
  (methodUnconstrained api || input.method == some api.method) && pathMatches regex input api

/-- An exact text path written `"*"`. -/
def starPath (api : Api) : Prop :=
  exactTextPath api.path = .exact wildcard

/-- The plain scan that the index stands for. -/
def linearScan (regex : RegexEngine) (input : ApiMatchInput) (entries : List (T × List Api)) :
    List T :=
  (entries.filter fun entry => entry.2.isEmpty || entry.2.any (apiMatches regex input)).map
    Prod.fst

theorem exactTextPath_exact {path : Option MatchString} {p : String}
    (h : exactTextPath path = .exact p) :
    ∃ rule, path = some rule ∧ rule.type = .exact ∧ rule.value = p := by
  unfold exactTextPath at h
  cases path with
  | none => simp at h
  | some rule =>
      simp only [Bool.and_eq_true, decide_eq_true_eq] at h
      split at h
      · next hkind =>
        exact ⟨rule, rfl, hkind.1, by simpa using h⟩
      · simp at h

theorem exactTextPath_any {path : Option MatchString} (h : exactTextPath path = .any) :
    path = none := by
  unfold exactTextPath at h
  cases path with
  | none => rfl
  | some rule =>
      simp only at h
      split at h <;> simp at h

theorem apiMatches_iff (regex : RegexEngine) (input : ApiMatchInput) (api : Api) :
    apiMatches regex input api = true ↔
      (methodUnconstrained api = true ∨ input.method = some api.method) ∧
        ∀ rule, api.path = some rule →
          ∃ actual, input.path = some actual ∧ matchLabelValue regex rule actual = true := by
  unfold apiMatches
  split
  · next h =>
    simp only [Bool.and_eq_true, Bool.not_eq_true', beq_eq_false_iff_ne] at h
    simp [h.1, h.2]
  · next h =>
    have hmethod : methodUnconstrained api = true ∨ input.method = some api.method := by
      simpa [or_iff_not_imp_left] using h
    cases hpath : api.path with
    | none => simp [hmethod]
    | some rule =>
        cases hin : input.path <;> simp [hmethod]

/-- Away from the wildcard an exact path is accepted by the plain matcher and by the trie
alike; the wildcard is found in the trie only by a request for that very path. -/
theorem exact_path_lookup_iff (regex : RegexEngine) (input : ApiMatchInput) {rule : MatchString}
    (type : rule.type = .exact) :
    input.path = some rule.value ↔
      (∃ actual, input.path = some actual ∧ matchLabelValue regex rule actual = true) ∧
        (rule.value = wildcard → input.path = some wildcard) := by
  by_cases hstar : rule.value = wildcard
  · constructor
    · intro h
      exact ⟨⟨rule.value, h, matchLabelValue_wildcard regex rule _ hstar⟩, fun _ => hstar ▸ h⟩
    · intro h
      rw [hstar]
      exact h.2 hstar
  · have hexact : ∀ actual, matchLabelValue regex rule actual = true ↔ rule.value = actual := by
      intro actual
      rw [matchLabelValue_exact regex rule actual type hstar, beq_iff_eq]
    simp [hexact, hstar]

/-- The index accepts what the plain matcher accepts, except that the literal path `"*"` is
found only by a request for that very path. -/
theorem indexMatches_iff (regex : RegexEngine) (input : ApiMatchInput) (api : Api) :
    indexMatches regex input api = true ↔
      apiMatches regex input api = true ∧ (starPath api → input.path = some wildcard) := by
  unfold indexMatches pathMatches starPath
  rw [Bool.and_eq_true, Bool.or_eq_true, beq_iff_eq]
  cases hkind : exactTextPath api.path with
  | any =>
      simp [apiMatches_iff, exactTextPath_any hkind]
  | fallback =>
      have hmethod : apiMatches regex input api = true →
          methodUnconstrained api = true ∨ input.method = some api.method :=
        fun h => ((apiMatches_iff regex input api).mp h).1
      simp only [reduceCtorEq, false_implies, and_true]
      exact ⟨fun h => h.2, fun h => ⟨hmethod h, h⟩⟩
  | exact p =>
      rcases exactTextPath_exact hkind with ⟨rule, hpath, htype, rfl⟩
      have hstar : PathIndexKind.exact rule.value = .exact wildcard ↔ rule.value = wildcard := by
        simp
      rw [apiMatches_iff, hstar, beq_iff_eq, exact_path_lookup_iff regex input htype, and_assoc]
      simp [hpath]

/-! ## What one insertion adds -/

@[simp] theorem MethodApiIndex.candidates_empty (regex : RegexEngine) (input : ApiMatchInput) :
    ({} : MethodApiIndex T).candidates regex input = [] := by
  cases hin : input.path <;> simp [candidates, hin]

theorem MethodApiIndex.mem_candidates_insertApi (regex : RegexEngine) (input : ApiMatchInput)
    (index : MethodApiIndex T) (api : Api) (candidate c : Candidate T) :
    c ∈ (index.insertApi api candidate).candidates regex input ↔
      c ∈ index.candidates regex input ∨
        (c = candidate ∧ pathMatches regex input api = true) := by
  unfold insertApi pathMatches
  cases exactTextPath api.path with
  | any =>
      simp only [insertPathless, candidates, List.mem_append, List.mem_singleton, and_true]
      tauto
  | exact path =>
      simp only [insertExactPath, candidates, List.mem_append]
      cases hin : input.path with
      | none => simp
      | some actual =>
          simp only [Trie.lookup_insert, String.toList_inj]
          by_cases heq : actual = path
          · subst heq
            simp only [if_true, List.mem_append, List.mem_singleton, beq_self_eq_true, and_true]
            tauto
          · simp [heq]
  | fallback =>
      have hcopy : (⟨candidate.order, candidate.value⟩ : Candidate T) = candidate := rfl
      simp only [insertFallbackPath, candidates, List.mem_append, List.filter_append,
        List.map_append]
      cases hm : apiMatches regex input api with
      | false => simp [hm]
      | true =>
          simp only [List.filter_cons, hm, if_true, List.filter_nil, List.map_cons, hcopy,
            List.map_nil, List.mem_singleton, and_true]
          tauto

namespace ApiMatchIndex

theorem mem_collected_insertApi (regex : RegexEngine) (input : ApiMatchInput)
    (index : ApiMatchIndex T) (api : Api) (candidate c : Candidate T) :
    c ∈ (index.insertApi api candidate).collected regex input ↔
      c ∈ index.collected regex input ∨
        (c = candidate ∧ indexMatches regex input api = true) := by
  unfold insertApi indexMatches
  cases hfree : methodUnconstrained api with
  | true =>
      simp only [if_true, collected, List.mem_append,
        MethodApiIndex.mem_candidates_insertApi, Bool.true_or, Bool.true_and]
      tauto
  | false =>
      simp only [Bool.false_eq_true, if_false, collected, List.mem_append, Bool.false_or]
      cases hin : input.method with
      | none => simp
      | some method =>
          by_cases heq : method = api.method
          · subst heq
            simp only [Function.update_self, MethodApiIndex.mem_candidates_insertApi,
              beq_self_eq_true, Bool.true_and]
            cases index.methods api.method with
            | none =>
                simp only [Option.getD_none, MethodApiIndex.candidates_empty, List.not_mem_nil]
                tauto
            | some methodIndex =>
                simp only [Option.getD_some]
                tauto
          · simp [heq]

/-- The predicate on the API list of an entry that decides whether it is collected. -/
def entryMatches (regex : RegexEngine) (input : ApiMatchInput) (apis : List Api) : Bool :=
  apis.isEmpty || apis.any (indexMatches regex input)

theorem mem_collected_insertApis (regex : RegexEngine) (input : ApiMatchInput)
    (index : ApiMatchIndex T) (apis : List Api) (candidate c : Candidate T) :
    c ∈ (apis.foldl (fun index api => index.insertApi api candidate) index).collected
        regex input ↔
      c ∈ index.collected regex input ∨
        (c = candidate ∧ apis.any (indexMatches regex input) = true) := by
  induction apis generalizing index with
  | nil => simp
  | cons api apis ih =>
      rw [List.foldl_cons, ih, mem_collected_insertApi, List.any_cons, Bool.or_eq_true]
      tauto

theorem mem_collected_insertEntry (regex : RegexEngine) (input : ApiMatchInput)
    (index : ApiMatchIndex T) (apis : List Api) (candidate c : Candidate T) :
    c ∈ (index.insertEntry candidate apis).collected regex input ↔
      c ∈ index.collected regex input ∨
        (c = candidate ∧ entryMatches regex input apis = true) := by
  unfold insertEntry entryMatches
  cases apis with
  | nil =>
      simp only [List.isEmpty_nil, if_true, collected, List.mem_append, List.mem_singleton,
        Bool.true_or, and_true]
      tauto
  | cons api apis =>
      simp only [List.isEmpty_cons, Bool.false_eq_true, if_false, Bool.false_or]
      exact mem_collected_insertApis regex input index (api :: apis) candidate c

theorem mem_collected_insertEntries (regex : RegexEngine) (input : ApiMatchInput)
    (order : Nat) (index : ApiMatchIndex T) (entries : List (T × List Api))
    (c : Candidate T) :
    c ∈ (insertEntries order index entries).collected regex input ↔
      c ∈ index.collected regex input ∨
        c ∈ Ranked.scan Prod.fst (fun entry => entryMatches regex input entry.2) order entries := by
  induction entries generalizing order index with
  | nil => simp [insertEntries, Ranked.scan]
  | cons entry entries ih =>
      rw [insertEntries, ih, mem_collected_insertEntry, Ranked.scan]
      split <;> rename_i hhit <;> simp [hhit, or_assoc]

theorem collected_empty (regex : RegexEngine) (input : ApiMatchInput) :
    ({} : ApiMatchIndex T).collected regex input = [] := by
  cases hin : input.method <;> simp [collected, hin]

/-- The index is the linear scan by what its buckets decide: every entry at most once and in
entry order. -/
theorem candidates_new (regex : RegexEngine) (input : ApiMatchInput)
    (entries : List (T × List Api)) :
    (new entries).candidates regex input =
      (entries.filter fun entry => entryMatches regex input entry.2).map Prod.fst := by
  apply Ranked.distinct_sort_eq_filter
  intro c
  rw [new, mem_collected_insertEntries, collected_empty, Ranked.mem_scan]
  simp

end ApiMatchIndex

/-! ## The comparison with the plain scan -/

theorem map_filter_eq_iff {α β : Type} (f : α → β) {p q : α → Bool} (l : List α)
    (imp : ∀ x ∈ l, p x = true → q x = true) :
    (l.filter p).map f = (l.filter q).map f ↔ ∀ x ∈ l, q x = true → p x = true := by
  have hsub : l.filter p = (l.filter q).filter p := by
    rw [List.filter_filter]
    apply List.filter_congr
    intro x hx
    cases hp : p x with
    | false => simp
    | true => simp [imp x hx hp]
  constructor
  · intro heq x hx hq
    have hlen : ((l.filter q).filter p).length = (l.filter q).length := by
      rw [← hsub]
      simpa using congrArg List.length heq
    exact List.length_filter_eq_length_iff.mp hlen x (List.mem_filter.mpr ⟨hx, hq⟩)
  · intro h
    rw [List.filter_congr fun x hx => Bool.eq_iff_iff.mpr ⟨imp x hx, h x hx⟩]

/-- A query answers the plain scan exactly when every entry accepted by the plain matcher is
accepted through an API other than a literal `"*"` path, or the request asks for that path. -/
theorem candidates_eq_linearScan_iff (regex : RegexEngine) (entries : List (T × List Api))
    (input : ApiMatchInput) :
    (ApiMatchIndex.new entries).candidates regex input = linearScan regex input entries ↔
      ∀ entry ∈ entries, entry.2.any (apiMatches regex input) = true →
        ∃ api ∈ entry.2, apiMatches regex input api = true ∧
          (starPath api → input.path = some wildcard) := by
  rw [ApiMatchIndex.candidates_new, linearScan, map_filter_eq_iff]
  · apply forall₂_congr
    intro entry _
    cases hempty : entry.2 with
    | nil => simp [ApiMatchIndex.entryMatches]
    | cons api apis =>
        simp only [ApiMatchIndex.entryMatches, List.isEmpty_cons, Bool.false_or,
          List.any_eq_true, indexMatches_iff]
  · intro entry _ h
    simp only [ApiMatchIndex.entryMatches, Bool.or_eq_true, List.any_eq_true] at h ⊢
    refine h.imp_right fun ⟨api, hapi, hm⟩ => ⟨api, hapi, ?_⟩
    exact ((indexMatches_iff regex input api).mp hm).1

/-- A rule on `GET` with the exact path `"*"` applies to `GET /orders/42` under the plain matcher
and is lost by the index. -/
theorem starPath_candidate_lost :
    let star : MatchString := ⟨.exact, "*", .known .text⟩
    let entries : List (Nat × List Api) := [(7, [⟨"GET", some star⟩])]
    let input : ApiMatchInput := ⟨some "GET", some "/orders/42"⟩
    linearScan (fun _ => none) input entries = [7] ∧
      (ApiMatchIndex.new entries).candidates (fun _ => none) input = [] := by
  decide

end PoleClient
