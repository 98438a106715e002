import PoleClient.Core.Text
import Mathlib.Data.List.Basic

/-! # Texts joined by a separator

Keys, paths and file names of the client join user-chosen names by one
character. A joined text determines the parts of the names between separators,
and the names only if it is known how the separators are spread over them.
-/

namespace PoleClient.Text

def join (sep : Char) (names : List String) : String :=
  String.ofList ([sep].intercalate (names.map String.toList))

/-- All parts between separators, over the names in turn. -/
def cut (sep : Char) (names : List String) : List (List Char) :=
  names.flatMap fun name => splitChars sep name.toList

def separators (sep : Char) (names : List String) : List Nat :=
  names.map fun name => name.toList.count sep

/-! ## Joining -/

theorem join_singleton (sep : Char) (name : String) : join sep [name] = name := by
  apply String.toList_inj.mp
  simp [join]

theorem join_cons_cons (sep : Char) (first second : String) (names : List String) :
    join sep (first :: second :: names) =
      first ++ String.singleton sep ++ join sep (second :: names) := by
  apply String.toList_inj.mp
  simp [join]

theorem join_cons (sep : Char) (first : String) (names : List String) :
    join sep (first :: names) =
      first ++ String.join (names.map fun name => String.singleton sep ++ name) := by
  induction names generalizing first with
  | nil => simp [join_singleton]
  | cons second names ih =>
      rw [join_cons_cons, ih, List.map_cons, String.join_cons]
      simp only [String.append_assoc]

/-! ## Cutting -/

theorem splitChars_append_cons (sep : Char) (first rest : List Char) :
    splitChars sep (first ++ sep :: rest) = splitChars sep first ++ splitChars sep rest := by
  induction first with
  | nil => simp [splitChars]
  | cons c first ih =>
      rw [List.cons_append, splitChars]
      split
      · rename_i hsep
        rw [ih, hsep, splitChars, if_pos rfl, List.cons_append]
      · rename_i hsep
        rw [ih]
        cases hparts : splitChars sep first with
        | nil => exact absurd hparts (splitChars_ne_nil sep first)
        | cons part parts => simp [splitChars, hsep, hparts]

theorem splitChars_join (sep : Char) {names : List String} (h : names ≠ []) :
    splitChars sep (join sep names).toList = cut sep names := by
  induction names with
  | nil => exact absurd rfl h
  | cons first names ih =>
      cases names with
      | nil => simp [join_singleton, cut]
      | cons second names =>
          have hlist : (join sep (first :: second :: names)).toList =
              first.toList ++ sep :: (join sep (second :: names)).toList := by
            simp [join_cons_cons]
          rw [hlist, splitChars_append_cons, ih (List.cons_ne_nil second names)]
          rfl

theorem splitChars_injective (sep : Char) : Function.Injective (splitChars sep) := by
  intro first second h
  rw [← intercalate_splitChars sep first, h, intercalate_splitChars]

theorem length_splitChars (sep : Char) (cs : List Char) :
    (splitChars sep cs).length = cs.count sep + 1 := by
  induction cs with
  | nil => rfl
  | cons c cs ih =>
      rw [splitChars]
      split
      · rename_i hsep
        rw [List.length_cons, ih, hsep, List.count_cons_self]
      · rename_i hsep
        rw [List.count_cons_of_ne (fun heq => hsep heq)]
        cases hparts : splitChars sep cs with
        | nil => exact absurd hparts (splitChars_ne_nil sep cs)
        | cons part parts => simpa [hparts] using ih

/-! ## What a joined text determines -/

/-- Joined texts are the same exactly if the parts between separators are. -/
theorem join_eq_join_iff {sep : Char} {names others : List String} (hnames : names ≠ [])
    (hothers : others ≠ []) :
    join sep names = join sep others ↔ cut sep names = cut sep others := by
  rw [← splitChars_join sep hnames, ← splitChars_join sep hothers]
  constructor
  · exact fun h => by rw [h]
  · exact fun h => String.toList_inj.mp (splitChars_injective sep h)

/-- Names with the same parts are the same exactly if the separators are spread over them in the
same way. -/
theorem eq_iff_separators {sep : Char} {names others : List String}
    (h : cut sep names = cut sep others) :
    names = others ↔ separators sep names = separators sep others := by
  constructor
  · exact fun heq => by rw [heq]
  · intro hspread
    have hlengths : (names.map fun name => splitChars sep name.toList).map List.length =
        (others.map fun name => splitChars sep name.toList).map List.length := by
      have hsucc := congrArg (List.map (· + 1)) hspread
      simpa [separators, length_splitChars, Function.comp_def] using hsucc
    have hparts := List.eq_iff_flatten_eq.mpr ⟨h, hlengths⟩
    exact List.map_injective_iff.mpr
      ((splitChars_injective sep).comp fun _ _ => String.toList_inj.mp) hparts

theorem eq_of_append_sep {sep : Char} {first other rest otherRest : List Char}
    (hfirst : sep ∉ first) (hother : sep ∉ other)
    (h : first ++ sep :: rest = other ++ sep :: otherRest) : first = other ∧ rest = otherRest := by
  have hcut := congrArg (splitChars sep) h
  rw [splitChars_append hfirst, splitChars_append hother] at hcut
  obtain ⟨hhead, htail⟩ := List.cons.inj hcut
  exact ⟨hhead, splitChars_injective sep htail⟩

theorem eq_of_append_sep_last {sep : Char} {first other rest otherRest : List Char}
    (hrest : sep ∉ rest) (hother : sep ∉ otherRest)
    (h : first ++ sep :: rest = other ++ sep :: otherRest) : first = other ∧ rest = otherRest := by
  have hcut := congrArg (splitChars sep) h
  rw [splitChars_append_cons, splitChars_append_cons, splitChars_of_not_mem hrest,
    splitChars_of_not_mem hother] at hcut
  obtain ⟨hinit, hlast⟩ := List.append_inj' hcut rfl
  exact ⟨splitChars_injective sep hinit, (List.cons.inj hlast).1⟩

theorem cut_of_plain {sep : Char} {names : List String} (h : ∀ name ∈ names, sep ∉ name.toList) :
    cut sep names = names.map String.toList := by
  induction names with
  | nil => rfl
  | cons first names ih =>
      rw [cut, List.flatMap_cons, splitChars_of_not_mem (h first List.mem_cons_self)]
      exact congrArg _ (ih fun name hname => h name (List.mem_cons_of_mem first hname))

/-! ## Joined lists of one length -/

theorem length_cut (sep : Char) (names : List String) :
    (cut sep names).length = names.length + (separators sep names).sum := by
  induction names with
  | nil => rfl
  | cons first names ih =>
      have hcut : cut sep (first :: names) = splitChars sep first.toList ++ cut sep names := rfl
      rw [hcut, List.length_append, length_splitChars, ih]
      simp only [separators, List.map_cons, List.sum_cons, List.length_cons]
      omega

/-- Names without the separator are the only ones of their number with the joined text. -/
theorem eq_of_join_plain {sep : Char} {names others : List String}
    (plain : ∀ name ∈ names, sep ∉ name.toList) (hlength : others.length = names.length)
    (h : join sep others = join sep names) : others = names := by
  cases names with
  | nil => exact List.length_eq_zero_iff.mp hlength
  | cons first names =>
      have hothers : others ≠ [] := by
        intro hnil
        rw [hnil] at hlength
        cases hlength
      have hcut := (join_eq_join_iff hothers (List.cons_ne_nil _ _)).mp h
      rw [eq_iff_separators hcut]
      have hplain : ∀ count ∈ separators sep (first :: names), count = 0 := by
        intro count hcount
        rcases List.mem_map.mp hcount with ⟨name, hname, rfl⟩
        exact List.count_eq_zero.mpr (plain name hname)
      have hsum : (separators sep others).sum = 0 := by
        have hlengths := congrArg List.length hcut
        rw [length_cut, length_cut, List.sum_eq_zero_iff_forall_eq_nat.mpr hplain] at hlengths
        omega
      have hzero := List.sum_eq_zero_iff_forall_eq_nat.mp hsum
      rw [List.eq_replicate_of_mem hplain, List.eq_replicate_of_mem hzero]
      simp only [separators, List.length_map, hlength]

/-- Of two or more names, one with the separator lets the joined text be cut in another way. -/
theorem exists_other_join {sep : Char} {names : List String} (hlength : 2 ≤ names.length)
    (h : ∃ name ∈ names, sep ∈ name.toList) :
    ∃ others, others.length = names.length ∧ others ≠ names ∧
      join sep others = join sep names := by
  induction names with
  | nil => simp at hlength
  | cons first names ih =>
      cases names with
      | nil => simp at hlength
      | cons second names =>
          rcases h with ⟨name, hname, hsep⟩
          by_cases hfirst : sep ∈ first.toList
          · rcases List.append_of_mem hfirst with ⟨start, rest, heq⟩
            refine ⟨String.ofList start :: (String.ofList rest ++ String.singleton sep ++ second) ::
              names, rfl, ?_, ?_⟩
            · intro hsame
              have hstart := congrArg String.toList (List.cons.inj hsame).1
              rw [String.toList_ofList, heq] at hstart
              simp at hstart
            · apply String.toList_inj.mp
              cases names <;> simp [join, heq]
          · cases names with
            | nil =>
                have hsecond : sep ∈ second.toList := by
                  rcases List.mem_cons.mp hname with rfl | hname
                  · exact absurd hsep hfirst
                  · rw [List.mem_singleton.mp hname] at hsep
                    exact hsep
                rcases List.append_of_mem hsecond with ⟨start, rest, heq⟩
                refine ⟨[first ++ String.singleton sep ++ String.ofList start, String.ofList rest],
                  rfl, ?_, ?_⟩
                · intro hsame
                  have hlengths := congrArg String.length (List.cons.inj hsame).1
                  simp only [String.length_append, String.length_singleton] at hlengths
                  omega
                · apply String.toList_inj.mp
                  simp [join, heq]
            | cons third names =>
                have htail : ∃ name ∈ second :: third :: names, sep ∈ name.toList := by
                  rcases List.mem_cons.mp hname with rfl | hname
                  · exact absurd hsep hfirst
                  · exact ⟨name, hname, hsep⟩
                rcases ih (by simp) htail with ⟨others, hothers, hne, hjoin⟩
                have hother : first :: others ≠ first :: second :: third :: names := fun hsame =>
                  hne (List.cons.inj hsame).2
                refine ⟨first :: others, by simp [hothers], hother, ?_⟩
                cases others with
                | nil => simp at hothers
                | cons other others => rw [join_cons_cons, hjoin, ← join_cons_cons]

end PoleClient.Text
