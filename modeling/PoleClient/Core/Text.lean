import Mathlib.Algebra.GroupWithZero.Nat
import Mathlib.Algebra.Ring.Int.Defs

/-! # The string operations the rules rest on

`split`, `split_once`, `trim` and integer parsing as the standard library
documents them, over lists of characters.
-/

namespace PoleClient.Text

def splitChars (sep : Char) : List Char → List (List Char)
  | [] => [[]]
  | c :: cs =>
      if c = sep then [] :: splitChars sep cs
      else
        match splitChars sep cs with
        | [] => [[c]]
        | part :: parts => (c :: part) :: parts

/-- `str::split` by a character: always at least one part. -/
def split (s : String) (sep : Char) : List String :=
  (splitChars sep s.toList).map String.ofList

/-- The two parts of `splitn(2, sep)` when the separator occurs. -/
def splitOnce (s : String) (sep : Char) : Option (String × String) :=
  if sep ∈ s.toList then
    let head := s.toList.takeWhile (· ≠ sep)
    some (String.ofList head, String.ofList (s.toList.drop (head.length + 1)))
  else none

/-- Unicode `White_Space`. -/
def isWhitespace (c : Char) : Bool :=
  (0x09 ≤ c.toNat && c.toNat ≤ 0x0D) || c.toNat == 0x20 || c.toNat == 0x85 ||
    c.toNat == 0xA0 || c.toNat == 0x1680 || (0x2000 ≤ c.toNat && c.toNat ≤ 0x200A) ||
    c.toNat == 0x2028 || c.toNat == 0x2029 || c.toNat == 0x202F || c.toNat == 0x205F ||
    c.toNat == 0x3000

def trim (s : String) : String :=
  String.ofList (((s.toList.dropWhile isWhitespace).reverse.dropWhile isWhitespace).reverse)

def parseDigits : List Char → Option Nat
  | [] => none
  | cs =>
      if cs.all (·.isDigit) then some (cs.foldl (fun n c => 10 * n + (c.toNat - 48)) 0) else none

/-- `i64::from_str`: an optional sign, decimal digits, and no overflow. -/
def parseI64 (s : String) : Option Int :=
  let value : Option Int :=
    match s.toList with
    | '-' :: digits => (parseDigits digits).map fun n => -(n : Int)
    | '+' :: digits => (parseDigits digits).map fun n => (n : Int)
    | digits => (parseDigits digits).map fun n => (n : Int)
  value.filter fun n => -(2 ^ 63) ≤ n && n < 2 ^ 63

/-- `u64::from_str`. -/
def parseU64 (s : String) : Option UInt64 :=
  let value : Option Nat :=
    match s.toList with
    | '+' :: digits => parseDigits digits
    | digits => parseDigits digits
  (value.filter fun n => n < 2 ^ 64).map UInt64.ofNat

def isHexDigit (c : Char) : Bool :=
  c.isDigit || ('a' ≤ c && c ≤ 'f') || ('A' ≤ c && c ≤ 'F')

/-- `eq_ignore_ascii_case`: only the ASCII letters have two cases. -/
def eqIgnoreAsciiCase (s other : String) : Bool :=
  s.toList.map Char.toLower == other.toList.map Char.toLower

/-! ## Parts of a text -/

theorem splitChars_ne_nil (sep : Char) (cs : List Char) : splitChars sep cs ≠ [] := by
  cases cs with
  | nil => simp [splitChars]
  | cons c cs =>
      unfold splitChars
      split
      · simp
      · split <;> simp

theorem intercalate_splitChars (sep : Char) (cs : List Char) :
    [sep].intercalate (splitChars sep cs) = cs := by
  induction cs with
  | nil => rfl
  | cons c cs ih =>
      unfold splitChars
      cases hparts : splitChars sep cs with
      | nil => exact absurd hparts (splitChars_ne_nil sep cs)
      | cons part parts =>
          rw [hparts] at ih
          split
          · rename_i hsep
            rw [hsep]
            simpa using ih
          · cases parts with
            | nil => simpa using ih
            | cons next parts => simpa using ih

theorem not_mem_of_mem_splitChars {sep : Char} {cs part : List Char}
    (h : part ∈ splitChars sep cs) : sep ∉ part := by
  induction cs generalizing part with
  | nil =>
      simp only [splitChars, List.mem_singleton] at h
      simp [h]
  | cons c cs ih =>
      unfold splitChars at h
      split at h
      · rcases List.mem_cons.mp h with rfl | hpart
        · simp
        · exact ih hpart
      · rename_i hne
        cases hparts : splitChars sep cs with
        | nil => exact absurd hparts (splitChars_ne_nil sep cs)
        | cons first parts =>
            rw [hparts] at h ih
            rcases List.mem_cons.mp h with rfl | hpart
            · simp only [List.mem_cons, not_or]
              exact ⟨fun heq => hne heq.symm, ih List.mem_cons_self⟩
            · exact ih (List.mem_cons_of_mem first hpart)

theorem splitChars_append {sep : Char} {first : List Char} (h : sep ∉ first) (rest : List Char) :
    splitChars sep (first ++ sep :: rest) = first :: splitChars sep rest := by
  induction first with
  | nil => simp [splitChars]
  | cons c first ih =>
      simp only [List.mem_cons, not_or] at h
      obtain ⟨hne, hrest⟩ := h
      rw [List.cons_append, splitChars, if_neg (Ne.symm hne), ih hrest]

theorem splitChars_of_not_mem {sep : Char} {cs : List Char} (h : sep ∉ cs) :
    splitChars sep cs = [cs] := by
  induction cs with
  | nil => rfl
  | cons c cs ih =>
      simp only [List.mem_cons, not_or] at h
      obtain ⟨hne, hrest⟩ := h
      rw [splitChars, if_neg (Ne.symm hne), ih hrest]

/-- A text has three parts if and only if it is those parts with the separator between them. -/
theorem split_eq_three_iff {s first second third : String} {sep : Char} :
    split s sep = [first, second, third] ↔
      s = first ++ String.singleton sep ++ second ++ String.singleton sep ++ third ∧
        sep ∉ first.toList ∧ sep ∉ second.toList ∧ sep ∉ third.toList := by
  constructor
  · intro h
    have hparts : splitChars sep s.toList = [first.toList, second.toList, third.toList] := by
      have hmap := congrArg (List.map String.toList) h
      simpa [split, Function.comp_def] using hmap
    have hpart : ∀ part ∈ [first.toList, second.toList, third.toList], sep ∉ part :=
      fun part hmem => not_mem_of_mem_splitChars (hparts ▸ hmem)
    refine ⟨?_, by simpa using hpart⟩
    apply String.toList_inj.mp
    rw [← intercalate_splitChars sep s.toList, hparts]
    simp
  · rintro ⟨hs, hfirst, hsecond, hthird⟩
    have hlist : s.toList = first.toList ++ sep :: (second.toList ++ sep :: third.toList) := by
      simp [hs]
    rw [split, hlist, splitChars_append hfirst, splitChars_append hsecond,
      splitChars_of_not_mem hthird]
    simp

/-! ## Decimal text -/

theorem toString_nat_inj {m n : Nat} (h : toString m = toString n) : m = n := by
  have hdigits : Nat.toDigits 10 m = Nat.toDigits 10 n := by
    have hlist := congrArg String.toList h
    rwa [Nat.toString_eq_repr, Nat.toString_eq_repr, Nat.toList_repr, Nat.toList_repr] at hlist
  rw [← Nat.ofDigitChars_toDigits (b := 10) (n := m) (by decide) (by decide), hdigits,
    Nat.ofDigitChars_toDigits (by decide) (by decide)]

/-! ## Byte lengths -/

theorem utf8Size_of_isHexDigit {c : Char} (h : isHexDigit c = true) : c.utf8Size = 1 := by
  have hval : c.val ≤ 0x7f := by
    simp only [isHexDigit, Char.isDigit, Bool.or_eq_true, Bool.and_eq_true, decide_eq_true_eq,
      Char.le_def] at h
    rcases h with (⟨-, h⟩ | ⟨-, h⟩) | ⟨-, h⟩
    · exact UInt32.le_trans h (by decide)
    · exact UInt32.le_trans h (by decide)
    · exact UInt32.le_trans h (by decide)
  simp [Char.utf8Size, hval]

theorem utf8ByteSize_ofList (cs : List Char) (h : ∀ c ∈ cs, c.utf8Size = 1) :
    (String.ofList cs).utf8ByteSize = cs.length := by
  induction cs with
  | nil => rfl
  | cons c cs ih =>
      have hcons : String.ofList (c :: cs) = String.singleton c ++ String.ofList cs := by
        apply String.toList_inj.mp
        simp
      rw [hcons, String.utf8ByteSize_append, ih fun d hd => h d (List.mem_cons_of_mem c hd)]
      simp [h c List.mem_cons_self, Nat.add_comm]

theorem utf8ByteSize_of_isHexDigit {s : String} (h : ∀ c ∈ s.toList, isHexDigit c = true) :
    s.utf8ByteSize = s.length := by
  have bytes := utf8ByteSize_ofList s.toList fun c hc => utf8Size_of_isHexDigit (h c hc)
  rwa [String.ofList_toList, String.length_toList] at bytes

end PoleClient.Text
