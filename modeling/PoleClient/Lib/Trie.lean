import Mathlib.Logic.Function.Basic

/-! # Character tries with a list of values at each node

A node keeps the values stored under exactly its own path. Insertion appends at
the end of the path and lookup returns what is stored there, so a value filed
under one path is invisible under every other one, prefixes included.
-/

namespace Lib

/-- A trie over keys `κ`; the children of a node are a partial map. -/
inductive Trie (κ α : Type) where
  | node (children : κ → Option (Trie κ α)) (values : List α)

namespace Trie

variable {κ α : Type}

def empty : Trie κ α :=
  .node (fun _ => none) []

instance : Inhabited (Trie κ α) := ⟨empty⟩

def insert [DecidableEq κ] : List κ → α → Trie κ α → Trie κ α
  | [], a, .node children values => .node children (values ++ [a])
  | k :: path, a, .node children values =>
      .node (Function.update children k (some (insert path a ((children k).getD empty)))) values

def lookup : List κ → Trie κ α → List α
  | [], .node _ values => values
  | k :: path, .node children _ =>
      match children k with
      | none => []
      | some child => lookup path child

@[simp] theorem lookup_empty (path : List κ) : lookup path (empty : Trie κ α) = [] := by
  cases path <;> rfl

theorem lookup_cons (k : κ) (path : List κ) (children : κ → Option (Trie κ α))
    (values : List α) :
    lookup (k :: path) (.node children values) = lookup path ((children k).getD empty) := by
  cases h : children k with
  | none => simp [lookup, h]
  | some child => simp [lookup, h]

/-- Insertion changes the values of its own path only. -/
theorem lookup_insert [DecidableEq κ] (path query : List κ) (a : α) (t : Trie κ α) :
    lookup query (insert path a t) =
      if query = path then lookup query t ++ [a] else lookup query t := by
  induction path generalizing query t with
  | nil =>
      obtain ⟨children, values⟩ := t
      cases query <;> simp [insert, lookup]
  | cons k path ih =>
      obtain ⟨children, values⟩ := t
      cases query with
      | nil => simp [insert, lookup]
      | cons q query =>
          rw [insert, lookup_cons, lookup_cons]
          by_cases hq : q = k
          · subst hq
            simpa using ih query ((children q).getD empty)
          · simp [hq]

end Trie

end Lib
