import Mathlib.Logic.Function.Basic
import PoleClient.Lib.OrderedScan
import PoleClient.Lib.Trie
import PoleClient.Traffic.LabelMatch

/-! # The API candidate index

`ApiMatchIndex` files every API of every entry under its method and, for exact
text paths, under the path itself. A query collects the filed candidates and
restores the entry order. `indexMatches` is the predicate the buckets really
decide; the index is the linear scan by it. It differs from `apiMatches` on one
kind of API only: an exact text path `"*"`, which the plain matcher takes as a
wildcard and the index as a literal path.
-/

namespace PoleClient

open Lib

/-! ## Data model -/

structure ApiMatchInput where
  method : Option String
  path : Option String
deriving DecidableEq, Repr

abbrev Candidate (T : Type) : Type :=
  Ranked T

structure FallbackCandidate (T : Type) where
  order : Nat
  api : Api
  value : T

/-- Exact paths in a trie over their characters; values sit at full paths only. -/
abbrev PathTrie (T : Type) : Type :=
  Trie Char (Candidate T)

structure MethodApiIndex (T : Type) where
  pathless : List (Candidate T) := []
  exactPaths : PathTrie T := Trie.empty
  fallbackPaths : List (FallbackCandidate T) := []

structure ApiMatchIndex (T : Type) where
  matchAll : List (Candidate T) := []
  wildcardMethod : MethodApiIndex T := {}
  methods : String → Option (MethodApiIndex T) := fun _ => none

inductive PathIndexKind where
  | any
  | exact (path : String)
  | fallback
deriving DecidableEq, Repr

/-! ## The plain matcher -/

def methodUnconstrained (api : Api) : Bool :=
  api.method.isEmpty || api.method == "*"

def apiMatches (regex : RegexEngine) (input : ApiMatchInput) (api : Api) : Bool :=
  if !methodUnconstrained api && !(input.method == some api.method) then false
  else
    match api.path with
    | none => true
    | some pathRule =>
        match input.path with
        | none => false
        | some actualPath => matchLabelValue regex pathRule actualPath

/-! ## Building and querying the index -/

def exactTextPath (path : Option MatchString) : PathIndexKind :=
  match path with
  | none => .any
  | some path =>
      if path.type = .exact && path.valueType.get = .text then .exact path.value else .fallback

namespace MethodApiIndex

variable {T : Type}

def insertPathless (index : MethodApiIndex T) (candidate : Candidate T) : MethodApiIndex T :=
  { index with pathless := index.pathless ++ [candidate] }

def insertExactPath (index : MethodApiIndex T) (path : String) (candidate : Candidate T) :
    MethodApiIndex T :=
  { index with exactPaths := index.exactPaths.insert path.toList candidate }

def insertFallbackPath (index : MethodApiIndex T) (api : Api) (candidate : Candidate T) :
    MethodApiIndex T :=
  { index with
    fallbackPaths := index.fallbackPaths ++ [⟨candidate.order, api, candidate.value⟩] }

/-- The bucket that `insert_api` picks for the API's path. -/
def insertApi (index : MethodApiIndex T) (api : Api) (candidate : Candidate T) :
    MethodApiIndex T :=
  match exactTextPath api.path with
  | .any => index.insertPathless candidate
  | .exact path => index.insertExactPath path candidate
  | .fallback => index.insertFallbackPath api candidate

def candidates (regex : RegexEngine) (index : MethodApiIndex T) (input : ApiMatchInput) :
    List (Candidate T) :=
  index.pathless ++
    (match input.path with
      | none => []
      | some path => index.exactPaths.lookup path.toList) ++
    (index.fallbackPaths.filter fun candidate => apiMatches regex input candidate.api).map
      fun candidate => ⟨candidate.order, candidate.value⟩

end MethodApiIndex

namespace ApiMatchIndex

variable {T : Type}

def insertApi (index : ApiMatchIndex T) (api : Api) (candidate : Candidate T) :
    ApiMatchIndex T :=
  if methodUnconstrained api then
    { index with wildcardMethod := index.wildcardMethod.insertApi api candidate }
  else
    { index with
      methods := Function.update index.methods api.method
        (some (((index.methods api.method).getD {}).insertApi api candidate)) }

def insertEntry (index : ApiMatchIndex T) (candidate : Candidate T) (apis : List Api) :
    ApiMatchIndex T :=
  if apis.isEmpty then { index with matchAll := index.matchAll ++ [candidate] }
  else apis.foldl (fun index api => index.insertApi api candidate) index

/-- The loop of `new` from entry number `order` on. -/
def insertEntries : Nat → ApiMatchIndex T → List (T × List Api) → ApiMatchIndex T
  | _, index, [] => index
  | order, index, (value, apis) :: entries =>
      insertEntries (order + 1) (index.insertEntry ⟨order, value⟩ apis) entries

def new (entries : List (T × List Api)) : ApiMatchIndex T :=
  insertEntries 0 {} entries

/-- Everything a query collects, before the entry order is restored. -/
def collected (regex : RegexEngine) (index : ApiMatchIndex T) (input : ApiMatchInput) :
    List (Candidate T) :=
  index.matchAll ++ index.wildcardMethod.candidates regex input ++
    (match input.method with
      | none => []
      | some method =>
          match index.methods method with
          | none => []
          | some methodIndex => methodIndex.candidates regex input)

def candidates (regex : RegexEngine) (index : ApiMatchIndex T) (input : ApiMatchInput) : List T :=
  (Ranked.distinct [] (Ranked.sort (index.collected regex input))).map Ranked.value

end ApiMatchIndex

end PoleClient
