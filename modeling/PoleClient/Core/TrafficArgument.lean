import PoleClient.Core.Model
import PoleClient.Core.Naming
import PoleClient.Core.Text

/-! # Traffic arguments as labels

An argument of a request is written as one label and read back from it. The kind
of the argument is told from the key of the label alone.
-/

namespace PoleClient

structure TrafficArgument where
  argType : ArgumentType
  key : String
  value : String
deriving DecidableEq, Repr

namespace TrafficArgument

def buildCustom (key value : String) : TrafficArgument := ⟨.custom, key, value⟩

def buildPath (path : String) : TrafficArgument := ⟨.path, "", path⟩

def buildMethod (method : String) : TrafficArgument := ⟨.method, "", method⟩

def buildHeader (headerKey headerValue : String) : TrafficArgument :=
  ⟨.header, headerKey, headerValue⟩

def buildQuery (queryKey queryValue : String) : TrafficArgument := ⟨.query, queryKey, queryValue⟩

def buildCookie (cookieKey cookieValue : String) : TrafficArgument :=
  ⟨.cookie, cookieKey, cookieValue⟩

def buildCallerService (namespaceName service : String) : TrafficArgument :=
  ⟨.callerService, namespaceName, service⟩

def buildCallerIp (callerIp : String) : TrafficArgument := ⟨.callerIP, "", callerIp⟩

/-! ## Labels -/

def startsWith (s word : String) : Bool := word.toList.isPrefixOf s.toList

/-- `s[word.len()..]` for a text that starts with the word. -/
def after (s word : String) : String := .ofList (s.toList.drop word.toList.length)

def fromLabel (labelKey labelValue : String) : TrafficArgument :=
  if labelKey = "method" then buildMethod labelValue
  else if labelKey = "caller_ip" then buildCallerIp labelValue
  else if startsWith labelKey "header" then buildHeader (after labelKey "header") labelValue
  else if startsWith labelKey "query" then buildQuery (after labelKey "query") labelValue
  else if startsWith labelKey "caller_service" then
    buildCallerService (after labelKey "caller_service") labelValue
  else if labelKey = "path" then buildPath labelValue
  else if startsWith labelKey "cookie" then buildCookie (after labelKey "cookie") labelValue
  else buildCustom labelKey labelValue

def labelKey (self : TrafficArgument) : String :=
  match self.argType with
  | .method => "method"
  | .callerIP => "caller_ip"
  | .header => "header." ++ self.key
  | .query => "query." ++ self.key
  | .callerService => "caller_service" ++ self.key
  | .custom => self.key
  | .path => "path"
  | .cookie => "cookie." ++ self.key

def toLabel (self : TrafficArgument) (labels : StringMap) : StringMap :=
  Function.update labels self.labelKey (some self.value)

inductive Built : TrafficArgument → Prop where
  | custom (key value : String) : Built (buildCustom key value)
  | path (path : String) : Built (buildPath path)
  | method (method : String) : Built (buildMethod method)
  | header (key value : String) : Built (buildHeader key value)
  | query (key value : String) : Built (buildQuery key value)
  | cookie (key value : String) : Built (buildCookie key value)
  | callerService (namespaceName service : String) :
      Built (buildCallerService namespaceName service)
  | callerIp (callerIp : String) : Built (buildCallerIp callerIp)

/-! ## Reading a label back -/

/-- A key that `from_label` reads as another kind than custom. -/
def Reserved (key : String) : Prop :=
  key ∈ ["method", "caller_ip", "path"] ∨
    ∃ word ∈ ["header", "query", "caller_service", "cookie"], startsWith key word = true

instance (key : String) : Decidable (Reserved key) := inferInstanceAs (Decidable (_ ∨ _))

/-- The arguments that survive the way through a label. -/
def ReadBack (self : TrafficArgument) : Prop :=
  match self.argType with
  | .method | .path | .callerIP | .callerService => True
  | .header | .query | .cookie => False
  | .custom => ¬ Reserved self.key

theorem toLabel_empty_iff (self : TrafficArgument) (key value : String) :
    self.toLabel .empty key = some value ↔ key = self.labelKey ∧ value = self.value := by
  unfold toLabel
  by_cases hkey : key = self.labelKey
  · rw [hkey, Function.update_self]
    simp [eq_comm]
  · rw [Function.update_of_ne hkey]
    simp [hkey, StringMap.empty]

theorem startsWith_append (word s : String) : startsWith (word ++ s) word = true := by
  simp [startsWith]

theorem after_append (word s : String) : after (word ++ s) word = s := by
  simp [after]

theorem append_ne {word other : String} (h : startsWith other word = false) (s : String) :
    word ++ s ≠ other := by
  rintro rfl
  rw [startsWith_append] at h
  cases h

/-! The encoder puts a dot after three of the words, which the decoder leaves with the key. -/

theorem fromLabel_header (key value : String) :
    fromLabel ("header." ++ key) value = buildHeader ("." ++ key) value := by
  have hword : "header." ++ key = "header" ++ ("." ++ key) := by
    rw [← String.append_assoc]
    rfl
  rw [hword, fromLabel, if_neg (append_ne (by decide) _), if_neg (append_ne (by decide) _),
    startsWith_append, if_pos rfl, after_append]

theorem fromLabel_query (key value : String) :
    fromLabel ("query." ++ key) value = buildQuery ("." ++ key) value := by
  have hword : "query." ++ key = "query" ++ ("." ++ key) := by
    rw [← String.append_assoc]
    rfl
  have hheader : startsWith ("query" ++ ("." ++ key)) "header" = false := by
    rw [startsWith, String.toList_append]
    rfl
  rw [hword, fromLabel, if_neg (append_ne (by decide) _), if_neg (append_ne (by decide) _),
    hheader, if_neg Bool.false_ne_true, startsWith_append, if_pos rfl, after_append]

theorem fromLabel_callerService (namespaceName service : String) :
    fromLabel ("caller_service" ++ namespaceName) service =
      buildCallerService namespaceName service := by
  have hother : ∀ word ∈ ["header", "query"],
      startsWith ("caller_service" ++ namespaceName) word = false := by
    intro word hword
    rw [startsWith, String.toList_append]
    simp only [List.mem_cons, List.not_mem_nil, or_false] at hword
    rcases hword with rfl | rfl
    · rfl
    · rfl
  rw [fromLabel, if_neg (append_ne (by decide) _), if_neg (append_ne (by decide) _),
    hother "header" (by simp), if_neg Bool.false_ne_true, hother "query" (by simp),
    if_neg Bool.false_ne_true, startsWith_append, if_pos rfl, after_append]

theorem fromLabel_cookie (key value : String) :
    fromLabel ("cookie." ++ key) value = buildCookie ("." ++ key) value := by
  have hword : "cookie." ++ key = "cookie" ++ ("." ++ key) := by
    rw [← String.append_assoc]
    rfl
  have hother : ∀ word ∈ ["header", "query", "caller_service"],
      startsWith ("cookie" ++ ("." ++ key)) word = false := by
    intro word hword
    rw [startsWith, String.toList_append]
    simp only [List.mem_cons, List.not_mem_nil, or_false] at hword
    rcases hword with rfl | rfl | rfl
    · rfl
    · rfl
    · rfl
  rw [hword, fromLabel, if_neg (append_ne (by decide) _), if_neg (append_ne (by decide) _),
    hother "header" (by simp), if_neg Bool.false_ne_true, hother "query" (by simp),
    if_neg Bool.false_ne_true, hother "caller_service" (by simp), if_neg Bool.false_ne_true,
    if_neg (append_ne (by decide) _), startsWith_append, if_pos rfl, after_append]

theorem fromLabel_path (path : String) : fromLabel "path" path = buildPath path := by
  rw [fromLabel, if_neg (by decide), if_neg (by decide), if_neg (by decide), if_neg (by decide),
    if_neg (by decide), if_pos rfl]

theorem dot_append_ne (key : String) : "." ++ key ≠ key := by
  intro h
  have hlength := congrArg String.length h
  rw [String.length_append] at hlength
  have hdot : ".".length = 1 := rfl
  omega

/-- What stands after the word that tells the kind. -/
def readKey (self : TrafficArgument) : String :=
  match self.argType with
  | .header | .query | .cookie => "." ++ self.key
  | _ => self.key

theorem fromLabel_labelKey {self : TrafficArgument} (built : Built self)
    (h : self.argType ≠ .custom) (value : String) :
    fromLabel self.labelKey value = ⟨self.argType, self.readKey, value⟩ := by
  cases built with
  | custom key => exact absurd rfl h
  | path => exact fromLabel_path value
  | method => rfl
  | callerIp => rfl
  | header key => exact fromLabel_header key value
  | query key => exact fromLabel_query key value
  | cookie key => exact fromLabel_cookie key value
  | callerService namespaceName => exact fromLabel_callerService namespaceName value

theorem fromLabel_of_not_reserved {key : String} (h : ¬ Reserved key) (value : String) :
    fromLabel key value = buildCustom key value := by
  simp only [Reserved, List.mem_cons, List.not_mem_nil, or_false, exists_eq_or_imp,
    exists_eq_left, not_or] at h
  obtain ⟨⟨hmethod, hip, hpath⟩, hheader, hquery, hservice, hcookie⟩ := h
  rw [fromLabel, if_neg hmethod, if_neg hip, if_neg hheader, if_neg hquery, if_neg hservice,
    if_neg hpath, if_neg hcookie]

theorem argType_of_reserved {key : String} (h : Reserved key) (value : String) :
    (fromLabel key value).argType ≠ .custom := by
  simp only [Reserved, List.mem_cons, List.not_mem_nil, or_false, exists_eq_or_imp,
    exists_eq_left] at h
  intro hcustom
  unfold fromLabel at hcustom
  split_ifs at hcustom with hmethod hip hheader hquery hservice hpath hcookie
  -- only the last branch builds a custom argument
  any_goals cases hcustom
  grind

/-- An argument comes back from its own label exactly if it is of a kind that does. -/
theorem fromLabel_self_iff {self : TrafficArgument} (built : Built self) :
    fromLabel self.labelKey self.value = self ↔ ReadBack self := by
  by_cases hcustom : self.argType = .custom
  · obtain ⟨argType, key, value⟩ := self
    obtain rfl : argType = .custom := hcustom
    change fromLabel key value = buildCustom key value ↔ ¬ Reserved key
    constructor
    · intro h hreserved
      apply argType_of_reserved hreserved value
      rw [h]
      rfl
    · exact fun h => fromLabel_of_not_reserved h value
  · rw [fromLabel_labelKey built hcustom]
    obtain ⟨argType, key, value⟩ := self
    cases argType with
    | custom => exact absurd rfl hcustom
    | method => exact iff_of_true rfl trivial
    | path => exact iff_of_true rfl trivial
    | callerIP => exact iff_of_true rfl trivial
    | callerService => exact iff_of_true rfl trivial
    | header => exact iff_of_false (fun h => dot_append_ne key (congrArg TrafficArgument.key h)) id
    | query => exact iff_of_false (fun h => dot_append_ne key (congrArg TrafficArgument.key h)) id
    | cookie => exact iff_of_false (fun h => dot_append_ne key (congrArg TrafficArgument.key h)) id

/-! ## Labels that coincide -/

/-- A custom key that is the label of an argument of another kind. -/
def Imitates (self other : TrafficArgument) : Prop :=
  self.argType = .custom ∧ other.argType ≠ .custom ∧ self.key = other.labelKey

theorem readKey_inj {self other : TrafficArgument} (htype : self.argType = other.argType)
    (h : self.readKey = other.readKey) : self.key = other.key := by
  obtain ⟨argType, key, value⟩ := self
  obtain ⟨otherType, otherKey, otherValue⟩ := other
  obtain rfl : argType = otherType := htype
  cases argType with
  | custom => exact h
  | method => exact h
  | path => exact h
  | callerIP => exact h
  | callerService => exact h
  | header => exact (String.append_right_inj ".").mp h
  | query => exact (String.append_right_inj ".").mp h
  | cookie => exact (String.append_right_inj ".").mp h

/-- Two arguments of one label key are the same but for the value, unless one is custom. -/
theorem labelKey_eq_iff {self other : TrafficArgument} (hself : Built self)
    (hother : Built other) :
    self.labelKey = other.labelKey ↔
      (self.argType = other.argType ∧ self.key = other.key) ∨ Imitates self other ∨
        Imitates other self := by
  have hcustom : ∀ {a : TrafficArgument}, a.argType = .custom → a.labelKey = a.key := by
    intro a h
    rw [labelKey, h]
  constructor
  · intro h
    by_cases hs : self.argType = .custom
    · by_cases ho : other.argType = .custom
      · rw [hcustom hs, hcustom ho] at h
        exact .inl ⟨hs.trans ho.symm, h⟩
      · exact .inr (.inl ⟨hs, ho, (hcustom hs).symm.trans h⟩)
    · by_cases ho : other.argType = .custom
      · exact .inr (.inr ⟨ho, hs, (hcustom ho).symm.trans h.symm⟩)
      · left
        have hread := fromLabel_labelKey hself hs ""
        rw [h, fromLabel_labelKey hother ho] at hread
        obtain ⟨htype, hkey, -⟩ := TrafficArgument.mk.inj hread
        exact ⟨htype.symm, (readKey_inj htype hkey).symm⟩
  · rintro (⟨htype, hkey⟩ | ⟨hs, -, hkey⟩ | ⟨ho, -, hkey⟩)
    · rw [labelKey, labelKey, htype, hkey]
    · rw [hcustom hs, hkey]
    · rw [hcustom ho, hkey]

/-- Arguments come back from their label exactly if they are not a header, a query, a cookie or
a custom argument with a reserved key. Different arguments share a label key exactly if one is a
custom argument with the label of the other as its key. -/
theorem label_round_trip_iff (argument : TrafficArgument) :
    (Built argument →
      ((∀ key value, argument.toLabel .empty key = some value → fromLabel key value = argument) ↔
        ReadBack argument)) ∧
    (∀ other, Built argument → Built other →
      ¬ (argument.argType = other.argType ∧ argument.key = other.key) →
        ((∀ key, argument.toLabel .empty key = none ∨ other.toLabel .empty key = none) ↔
          ¬ Imitates argument other ∧ ¬ Imitates other argument)) := by
  constructor
  · intro hbuilt
    rw [← fromLabel_self_iff hbuilt]
    simp only [toLabel_empty_iff]
    constructor
    · intro h
      exact h _ _ ⟨rfl, rfl⟩
    · rintro h key value ⟨rfl, rfl⟩
      exact h
  · intro other hargument hother hdistinct
    have hnone : ∀ (self : TrafficArgument) key,
        self.toLabel .empty key = none ↔ key ≠ self.labelKey := by
      intro self key
      rw [Option.eq_none_iff_forall_ne_some]
      simp [toLabel_empty_iff]
    have hkeys : (∀ key, argument.toLabel .empty key = none ∨ other.toLabel .empty key = none) ↔
        ¬ argument.labelKey = other.labelKey := by
      simp only [hnone]
      constructor
      · intro h heq
        rcases h argument.labelKey with hself | hshared
        · exact hself rfl
        · exact hshared heq
      · intro h key
        by_cases hkey : key = argument.labelKey
        · exact .inr (hkey ▸ h)
        · exact .inl hkey
    rw [hkeys, labelKey_eq_iff hargument hother, or_iff_right hdistinct, not_or]

/-- The header k is read back as the header .k; a custom argument may have its label. -/
theorem header_not_read_back : ¬ ∀ argument, Built argument → ∀ key value,
    argument.toLabel .empty key = some value → fromLabel key value = argument := by
  intro h
  have hread := h (buildHeader "k" "v") (.header "k" "v") "header.k" "v" rfl
  exact absurd hread (by decide)

end TrafficArgument

end PoleClient
