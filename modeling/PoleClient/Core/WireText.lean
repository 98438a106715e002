import Mathlib.Data.List.Infix
import PoleClient.Core.Text

/-! # Texts on the wire

A peer reads some first part of the bytes that were written and takes words from
the first line of it. The operations of the standard library that probes,
endpoints and mirrors use for this, and what a reader finds of a text whose first
line begins with two words.
-/

namespace PoleClient.Text

/-! ## Operations -/

/-- `str::split_whitespace`. -/
def splitWhitespace (s : String) : List String :=
  ((s.toList.splitOnP isWhitespace).filter fun word => !word.isEmpty).map String.ofList

/-- `str::lines().next()`: a line ends with a line feed and the carriage return before it. -/
def firstLine (s : String) : Option String :=
  if s.isEmpty then none
  else if '\n' ∈ s.toList then
    let line := s.toList.takeWhile (· ≠ '\n')
    some (String.ofList (if line.getLast? = some '\r' then line.dropLast else line))
  else some s

/-- `str::contains` with a text. -/
def contains (s pattern : String) : Bool :=
  decide (pattern.toList <:+: s.toList)

/-- `u16::from_str`. -/
def parseU16 (s : String) : Option UInt16 :=
  let value : Option Nat :=
    match s.toList with
    | '+' :: digits => parseDigits digits
    | digits => parseDigits digits
  (value.filter fun n => n < 2 ^ 16).map UInt16.ofNat

/-- `to_ascii_uppercase`. -/
def toAsciiUppercase (s : String) : String :=
  String.ofList (s.toList.map Char.toUpper)

/-- `to_ascii_lowercase`. -/
def toAsciiLowercase (s : String) : String :=
  String.ofList (s.toList.map Char.toLower)

/-- `str::strip_prefix`. -/
def stripPrefix (s front : String) : Option String :=
  if front.toList <+: s.toList then some (String.ofList (s.toList.drop front.toList.length))
  else none

/-- `str::rsplit_once` by a character: the parts around its last occurrence. -/
def rsplitOnce (s : String) (sep : Char) : Option (String × String) :=
  if sep ∈ s.toList then
    let tail := (s.toList.reverse.takeWhile (· ≠ sep)).reverse
    some (String.ofList (s.toList.take (s.toList.length - (tail.length + 1))), String.ofList tail)
  else none

/-- `str::trim_end_matches` with a character. -/
def trimEndMatches (s : String) (c : Char) : String :=
  String.ofList ((s.toList.reverse.dropWhile (· = c)).reverse)

/-! ## Bytes that are no text -/

def isTail (byte : UInt8) : Bool :=
  0x80 ≤ byte && byte ≤ 0xBF

/-- The two bytes begin a character of three bytes. -/
def startsThree (first second : UInt8) : Bool :=
  (first == 0xE0 && 0xA0 ≤ second && second ≤ 0xBF) ||
    (0xE1 ≤ first && first ≤ 0xEC && isTail second) ||
    (first == 0xED && 0x80 ≤ second && second ≤ 0x9F) ||
    (0xEE ≤ first && first ≤ 0xEF && isTail second)

/-- The two bytes begin a character of four bytes. -/
def startsFour (first second : UInt8) : Bool :=
  (first == 0xF0 && 0x90 ≤ second && second ≤ 0xBF) ||
    (0xF1 ≤ first && first ≤ 0xF3 && isTail second) ||
    (first == 0xF4 && 0x80 ≤ second && second ≤ 0x8F)

/-- How many of the bytes, which do not begin with a character, one replacement stands for. -/
def invalidLength : List UInt8 → Nat
  | first :: second :: third :: _ =>
      if startsThree first second then 2
      else if startsFour first second then if isTail third then 3 else 2
      else 1
  | [first, second] => if startsThree first second || startsFour first second then 2 else 1
  | _ => 1

/-- The characters from an offset on, with the replacement character for what is none. -/
def lossyChars (bytes : ByteArray) : Nat → Nat → List Char
  | 0, _ => []
  | fuel + 1, offset =>
      if bytes.size ≤ offset then []
      else
        match bytes.utf8DecodeChar? offset with
        | some c => c :: lossyChars bytes fuel (offset + c.utf8Size)
        | none =>
            Char.ofNat 0xFFFD ::
              lossyChars bytes fuel (offset + invalidLength (bytes.data.toList.drop offset))

/-- `String::from_utf8_lossy`; every step goes on by a byte at least. -/
def fromUtf8Lossy (bytes : ByteArray) : String :=
  match String.fromUTF8? bytes with
  | some s => s
  | none => String.ofList (lossyChars bytes bytes.size 0)

-- A character that is cut off is one replacement.
example : fromUtf8Lossy ⟨#[0xE2, 0x82, 0x61]⟩ = String.ofList [Char.ofNat 0xFFFD, 'a'] := by decide

/-! ## Words -/

/-- The text is one word of `split_whitespace`. -/
def OneWord (s : String) : Prop :=
  s ≠ "" ∧ ∀ c ∈ s.toList, isWhitespace c = false

instance (s : String) : Decidable (OneWord s) :=
  @instDecidableAnd _ _ _ (List.decidableBAll _ s.toList)

/-- Nothing that would lengthen a word before it. -/
def StartsBlank (s : String) : Prop :=
  ∀ c ∈ s.toList.head?, isWhitespace c = true

theorem splitOnP_blank {c : Char} {cs : List Char} (h : isWhitespace c = true) :
    (c :: cs).splitOnP isWhitespace = [] :: cs.splitOnP isWhitespace := by
  have hsplit := List.splitOnP_append_cons [] cs h
  rwa [List.nil_append, List.splitOnP_nil] at hsplit

theorem splitWhitespace_word {word rest : String} (hword : OneWord word)
    (hrest : StartsBlank rest) : splitWhitespace (word ++ rest) = word :: splitWhitespace rest := by
  have hkept : (!word.toList.isEmpty) = true := by
    simpa using hword.1
  unfold splitWhitespace
  rw [String.toList_append]
  cases hlist : rest.toList with
  | nil =>
      rw [List.append_nil, List.splitOnP_eq_singleton hword.2, List.filter_cons, if_pos hkept]
      simp
  | cons c cs =>
      have hblank : isWhitespace c = true := hrest c (by rw [hlist]; rfl)
      rw [List.splitOnP_append_cons_of_forall_mem hword.2 c hblank, List.filter_cons, if_pos hkept,
        List.map_cons, String.ofList_toList]
      rw [splitOnP_blank hblank, List.filter_cons, if_neg (by simp)]

theorem splitWhitespace_blank (rest : String) : splitWhitespace (" " ++ rest) =
    splitWhitespace rest := by
  unfold splitWhitespace
  have hlist : (" " ++ rest).toList = ' ' :: rest.toList := by simp
  rw [hlist, splitOnP_blank (by decide), List.filter_cons, if_neg (by simp)]

theorem splitWhitespace_two {first second rest : String} (hfirst : OneWord first)
    (hsecond : OneWord second) (hrest : StartsBlank rest) :
    splitWhitespace (first ++ " " ++ second ++ rest) = first :: second :: splitWhitespace rest := by
  have hblank : StartsBlank (" " ++ (second ++ rest)) := by
    intro c hc
    have : c = ' ' := by simpa using hc.symm
    rw [this]
    decide
  rw [String.append_assoc, String.append_assoc, splitWhitespace_word hfirst hblank,
    splitWhitespace_blank, splitWhitespace_word hsecond hrest]

/-! ## Cutting at the ends -/

theorem stripPrefix_append (front rest : String) : stripPrefix (front ++ rest) front = some rest := by
  have hprefix : front.toList <+: (front ++ rest).toList := by
    rw [String.toList_append]
    exact List.prefix_append _ _
  rw [stripPrefix, if_pos hprefix, String.toList_append, List.drop_left, String.ofList_toList]

theorem rsplitOnce_append {first last : String} {sep : Char} (h : sep ∉ last.toList) :
    rsplitOnce (first ++ String.singleton sep ++ last) sep = some (first, last) := by
  have hlist : (first ++ String.singleton sep ++ last).toList =
      first.toList ++ sep :: last.toList := by
    simp
  have htake : (first.toList ++ sep :: last.toList).reverse.takeWhile (· ≠ sep) =
      last.toList.reverse := by
    have hkept : ∀ c ∈ last.toList.reverse, decide (c ≠ sep) = true := by
      intro c hc
      refine decide_eq_true fun heq => h ?_
      rw [← heq]
      exact List.mem_reverse.mp hc
    rw [List.reverse_append, List.reverse_cons, List.append_assoc,
      List.takeWhile_append_of_pos hkept]
    simp
  have hmem : sep ∈ first.toList ++ sep :: last.toList := by simp
  unfold rsplitOnce
  rw [hlist, if_pos hmem]
  simp only [htake, List.reverse_reverse]
  have hlength : (first.toList ++ sep :: last.toList).length - (last.toList.length + 1) =
      first.toList.length := by
    simp
  rw [hlength, List.take_left, String.ofList_toList, String.ofList_toList]

theorem trimEndMatches_append {first last : String} {c : Char} (hne : last ≠ "")
    (h : c ∉ last.toList) : trimEndMatches (first ++ last) c = first ++ last := by
  have hlist : (first ++ last).toList.reverse = last.toList.reverse ++ first.toList.reverse := by
    simp
  unfold trimEndMatches
  rw [hlist]
  cases hlast : last.toList.reverse with
  | nil =>
      have hnil : last.toList = [] := List.reverse_eq_nil_iff.mp hlast
      exact absurd (String.toList_eq_nil_iff.mp hnil) hne
  | cons d ds =>
      have hkept : d ≠ c := by
        rintro rfl
        exact h (List.mem_reverse.mp (hlast ▸ List.mem_cons_self))
      rw [List.cons_append, List.dropWhile_cons, if_neg (by simpa using hkept),
        ← List.cons_append, ← hlast, ← hlist, List.reverse_reverse, String.ofList_toList]

/-! ## The first line -/

/-- The first line of a text keeps a beginning that has no line feed and does not end with a
carriage return, and goes on with some part of what follows. -/
theorem firstLine_append {head rest : String} (hne : head ≠ "") (hfeed : '\n' ∉ head.toList)
    (hreturn : head.toList.getLast? ≠ some '\r') :
    ∃ line, line.toList <+: rest.toList ∧ firstLine (head ++ rest) = some (head ++ line) := by
  have hnonempty : (head ++ rest).isEmpty = false := by
    simp [hne]
  unfold firstLine
  rw [hnonempty, if_neg Bool.false_ne_true]
  split
  · have hsplit : (head ++ rest).toList.takeWhile (· ≠ '\n') =
        head.toList ++ rest.toList.takeWhile (· ≠ '\n') := by
      rw [String.toList_append]
      apply List.takeWhile_append_of_pos
      intro c hc
      simpa using fun heq : c = '\n' => hfeed (heq ▸ hc)
    simp only [hsplit]
    have hprefix := rest.toList.takeWhile_prefix (· ≠ '\n')
    generalize rest.toList.takeWhile (· ≠ '\n') = part at hprefix
    cases hpart : part.getLast? with
    | none =>
        obtain rfl : part = [] := List.getLast?_eq_none_iff.mp hpart
        refine ⟨"", List.nil_prefix, ?_⟩
        rw [List.append_nil, if_neg hreturn]
        simp
    | some last =>
        have hlast : (head.toList ++ part).getLast? = some last := by
          rw [List.getLast?_append, hpart, Option.some_or]
        have hpartNe : part ≠ [] := by
          rintro rfl
          cases hpart
        split
        · refine ⟨String.ofList part.dropLast, ?_, ?_⟩
          · rw [String.toList_ofList]
            exact part.dropLast_prefix.trans hprefix
          · rw [List.dropLast_append_of_ne_nil hpartNe, String.ofList_append, String.ofList_toList]
        · refine ⟨String.ofList part, ?_, ?_⟩
          · rw [String.toList_ofList]
            exact hprefix
          · rw [String.ofList_append, String.ofList_toList]
  · exact ⟨rest, List.prefix_refl _, rfl⟩

theorem StartsBlank.of_prefix {s rest : String} (h : s.toList <+: rest.toList)
    (hrest : StartsBlank rest) : StartsBlank s := by
  intro c hc
  obtain ⟨tail, htail⟩ := h
  apply hrest c
  cases hs : s.toList with
  | nil => simp [hs] at hc
  | cons d ds =>
      rw [hs] at hc
      rw [← htail, hs]
      exact hc

/-- The second word of the first line, which is where a request has its target and a response its
status. -/
def secondWord (s : String) : Option String :=
  (firstLine s).bind fun line => (splitWhitespace line)[1]?

theorem secondWord_append {first second rest : String} (hfirst : OneWord first)
    (hsecond : OneWord second) (hrest : StartsBlank rest) :
    secondWord (first ++ " " ++ second ++ rest) = some second := by
  have hfeed : '\n' ∉ (first ++ " " ++ second).toList := by
    intro hmem
    simp only [String.toList_append, List.mem_append] at hmem
    rcases hmem with (hmem | hmem) | hmem
    · exact absurd (hfirst.2 _ hmem) (by decide)
    · exact absurd hmem (by decide)
    · exact absurd (hsecond.2 _ hmem) (by decide)
  have hreturn : (first ++ " " ++ second).toList.getLast? ≠ some '\r' := by
    intro hlast
    have hne : second.toList ≠ [] := by simpa using hsecond.1
    rw [String.toList_append, List.getLast?_append, List.getLast?_eq_some_getLast hne,
      Option.some_or] at hlast
    have hblank := hsecond.2 _ (List.getLast_mem hne)
    rw [Option.some.inj hlast] at hblank
    exact absurd hblank (by decide)
  have hne : first ++ " " ++ second ≠ "" := by
    simp
  obtain ⟨line, hline, hfirstLine⟩ := @firstLine_append _ rest hne hfeed hreturn
  rw [secondWord, hfirstLine, Option.bind_some,
    splitWhitespace_two hfirst hsecond (hrest.of_prefix hline)]
  rfl

/-! ## What a read gives -/

/-- What a read has of a text that was written: its first bytes. -/
def firstBytes (s : String) (size : Nat) : ByteArray :=
  s.toUTF8.extract 0 size

theorem extract_all {bytes : ByteArray} {size : Nat} (h : bytes.size ≤ size) :
    bytes.extract 0 size = bytes := by
  apply ByteArray.ext
  rw [ByteArray.data_extract]
  exact Array.extract_eq_self_of_le h

theorem toList_prefix_of_bytes {front s : String} {tail : ByteArray}
    (h : front.toByteArray ++ tail = s.toByteArray) : front.toList <+: s.toList := by
  apply List.isPrefix_of_utf8Encode_append_eq_utf8Encode tail
  rw [String.utf8Encode_toList, String.utf8Encode_toList, h]

/-- A read that covers a beginning of a text, and does not end inside a character, gives the
beginning and some part of what follows. -/
theorem read_covers {head rest part : String} {size : Nat} (hsize : head.utf8ByteSize ≤ size)
    (h : String.fromUTF8? (firstBytes (head ++ rest) size) = some part) :
    ∃ later, part = head ++ later ∧ later.toList <+: rest.toList := by
  have hpart : part.toByteArray = (head ++ rest).toByteArray.extract 0 size := by
    unfold String.fromUTF8? at h
    split at h
    · rw [← Option.some.inj h]
      rfl
    · cases h
  have hwhole : part.toList <+: (head ++ rest).toList := by
    apply @toList_prefix_of_bytes _ _ ((head ++ rest).toByteArray.extract size
      (head ++ rest).toByteArray.size)
    rw [hpart, ByteArray.extract_append_extract, Nat.zero_min]
    exact extract_all (Nat.le_max_right size _)
  have hhead : head.toList <+: part.toList := by
    apply @toList_prefix_of_bytes _ _ (rest.toByteArray.extract 0 (size - head.utf8ByteSize))
    rw [hpart, String.toByteArray_append, ByteArray.extract_append, Nat.zero_sub,
      extract_all hsize, String.size_toByteArray]
  obtain ⟨later, hlater⟩ := hhead
  refine ⟨String.ofList later, ?_, ?_⟩
  · apply String.toList_inj.mp
    rw [String.toList_append, String.toList_ofList, hlater]
  · rw [← hlater, String.toList_append, List.prefix_append_right_inj] at hwhole
    rwa [String.toList_ofList]

/-- A reader finds the second word, if what it has read covers it and does not end inside a
character. -/
theorem secondWord_read {first second rest part : String} {size : Nat} (hfirst : OneWord first)
    (hsecond : OneWord second) (hrest : StartsBlank rest)
    (hsize : (first ++ " " ++ second).utf8ByteSize ≤ size)
    (h : String.fromUTF8? (firstBytes (first ++ " " ++ second ++ rest) size) = some part) :
    secondWord part = some second := by
  obtain ⟨later, rfl, hlater⟩ := read_covers hsize h
  exact secondWord_append hfirst hsecond (hrest.of_prefix hlater)

theorem isValidUTF8_iff {bytes : ByteArray} :
    bytes.IsValidUTF8 ↔ ∃ s, String.fromUTF8? bytes = some s := by
  unfold String.fromUTF8?
  constructor
  · intro h
    rw [dif_pos h]
    exact ⟨_, rfl⟩
  · rintro ⟨s, hs⟩
    by_contra h
    rw [dif_neg h] at hs
    cases hs

/-! ## Texts of one byte a character -/

def IsAscii (s : String) : Prop :=
  ∀ c ∈ s.toList, c.utf8Size = 1

instance (s : String) : Decidable (IsAscii s) :=
  List.decidableBAll _ s.toList

theorem isAscii_append {s t : String} (hs : IsAscii s) (ht : IsAscii t) : IsAscii (s ++ t) := by
  intro c hc
  rw [String.toList_append, List.mem_append] at hc
  rcases hc with hc | hc
  · exact hs c hc
  · exact ht c hc

theorem utf8Encode_take {cs : List Char} (h : ∀ c ∈ cs, c.utf8Size = 1) (size : Nat) :
    cs.utf8Encode.extract 0 size = (cs.take size).utf8Encode := by
  induction cs generalizing size with
  | nil => simp
  | cons c cs ih =>
      have hone : [c].utf8Encode.size = 1 := by
        rw [List.utf8Encode_singleton, List.size_toByteArray, String.length_utf8EncodeChar]
        exact h c List.mem_cons_self
      cases size with
      | zero => simp
      | succ size =>
          rw [List.utf8Encode_cons, ByteArray.extract_append, hone, extract_all (by omega),
            Nat.zero_sub, Nat.add_sub_cancel, ih fun d hd => h d (List.mem_cons_of_mem c hd),
            List.take_succ_cons]
          exact List.utf8Encode_cons.symm

theorem fromUTF8?_of_ascii {s : String} (h : IsAscii s) (size : Nat) :
    ∃ part, String.fromUTF8? (firstBytes s size) = some part := by
  apply isValidUTF8_iff.mp
  rw [firstBytes, String.toUTF8_eq_toByteArray, ← String.utf8Encode_toList, utf8Encode_take h]
  exact ByteArray.isValidUTF8_utf8Encode

theorem fromUtf8Lossy_of_some {bytes : ByteArray} {s : String}
    (h : String.fromUTF8? bytes = some s) : fromUtf8Lossy bytes = s := by
  unfold fromUtf8Lossy
  rw [h]

/-! ## Numbers -/

theorem not_whitespace_of_isDigit {c : Char} (h : c.isDigit = true) : isWhitespace c = false := by
  have hrange : 48 ≤ c.toNat ∧ c.toNat ≤ 57 := by
    simpa [Char.isDigit, UInt32.le_iff_toNat_le] using h
  simp only [isWhitespace, Bool.or_eq_false_iff, Bool.and_eq_false_iff, decide_eq_false_iff_not,
    beq_eq_false_iff_ne]
  omega

theorem toList_toString (n : Nat) : (toString n).toList = Nat.toDigits 10 n := by
  rw [Nat.toString_eq_repr, Nat.toList_repr]

theorem isDigit_of_mem_toString {n : Nat} {c : Char} (h : c ∈ (toString n).toList) :
    c.isDigit = true := by
  rw [toList_toString] at h
  exact Nat.isDigit_of_mem_toDigits (by decide) (by decide) h

theorem toString_ne_empty (n : Nat) : toString n ≠ "" := by
  intro h
  have hlist := congrArg String.toList h
  rw [toList_toString] at hlist
  exact Nat.toDigits_ne_nil hlist

theorem oneWord_toString (n : Nat) : OneWord (toString n) :=
  ⟨toString_ne_empty n, fun _ hc => not_whitespace_of_isDigit (isDigit_of_mem_toString hc)⟩

theorem isAscii_toString (n : Nat) : IsAscii (toString n) := by
  intro c hc
  apply utf8Size_of_isHexDigit
  simp [isHexDigit, isDigit_of_mem_toString hc]

theorem parseDigits_toString (n : Nat) : parseDigits (toString n).toList = some n := by
  have hall : (toString n).toList.all (·.isDigit) = true :=
    List.all_eq_true.mpr fun _ hc => isDigit_of_mem_toString hc
  have hvalue : (toString n).toList.foldl (fun n c => 10 * n + (c.toNat - 48)) 0 = n := by
    rw [toList_toString]
    exact Nat.ofDigitChars_toDigits (by decide) (by decide)
  cases hlist : (toString n).toList with
  | nil => exact absurd (String.toList_eq_nil_iff.mp hlist) (toString_ne_empty n)
  | cons c cs =>
      rw [hlist] at hall hvalue
      rw [parseDigits, if_pos hall, hvalue]
      simp

theorem parseU16_toString (n : Nat) :
    parseU16 (toString n) = if n < 2 ^ 16 then some (UInt16.ofNat n) else none := by
  have hvalue := parseDigits_toString n
  unfold parseU16
  cases hlist : (toString n).toList with
  | nil => exact absurd (String.toList_eq_nil_iff.mp hlist) (toString_ne_empty n)
  | cons c cs =>
      have hdigit : c.isDigit = true :=
        @isDigit_of_mem_toString n c (by rw [hlist]; exact List.mem_cons_self)
      have hplus : c ≠ '+' := by
        rintro rfl
        cases hdigit
      rw [hlist] at hvalue
      have hunsigned : (match c :: cs with
          | '+' :: digits => parseDigits digits
          | digits => parseDigits digits) = some n := by
        split
        · rename_i heq
          exact absurd (List.cons.inj heq).1 hplus
        · exact hvalue
      rw [hunsigned]
      simp only [Option.filter_some, decide_eq_true_eq]
      split
      · rfl
      · rfl

end PoleClient.Text
