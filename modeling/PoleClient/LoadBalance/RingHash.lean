import Mathlib.Logic.Function.Basic
import Mathlib.Order.Fin.Basic
import PoleClient.Core.Naming
import PoleClient.Lib.OrderedMap
import PoleClient.Lib.Run

/-! # The ring hash

One ring a service, kept under the text of the service and rebuilt when a list
comes with another revision. Every instance stands on the ring at five points.
The hasher of the standard library is written out; the results hold for any
points of the instances.
-/

namespace PoleClient.LoadBalance

open Lib

/-! ## The hasher -/

/-- SipHash with one round a word and three rounds at the end, and both keys zero. -/
structure SipState where
  v0 : UInt64
  v1 : UInt64
  v2 : UInt64
  v3 : UInt64

namespace SipState

def rotateLeft (x : UInt64) (bits : UInt64) : UInt64 := (x <<< bits) ||| (x >>> (64 - bits))

def new : SipState :=
  ⟨0x736f6d6570736575, 0x646f72616e646f6d, 0x6c7967656e657261, 0x7465646279746573⟩

def round (s : SipState) : SipState :=
  let v0 := s.v0 + s.v1
  let v1 := rotateLeft s.v1 13 ^^^ v0
  let v0 := rotateLeft v0 32
  let v2 := s.v2 + s.v3
  let v3 := rotateLeft s.v3 16 ^^^ v2
  let v0 := v0 + v3
  let v3 := rotateLeft v3 21 ^^^ v0
  let v2 := v2 + v1
  let v1 := rotateLeft v1 17 ^^^ v2
  let v2 := rotateLeft v2 32
  ⟨v0, v1, v2, v3⟩

def compress (s : SipState) (word : UInt64) : SipState :=
  let s := { s with v3 := s.v3 ^^^ word }.round
  { s with v0 := s.v0 ^^^ word }

def finish (s : SipState) : UInt64 :=
  let s := { s with v2 := s.v2 ^^^ 0xff }.round.round.round
  s.v0 ^^^ s.v1 ^^^ s.v2 ^^^ s.v3

end SipState

/-- Eight bytes, the lowest first. -/
def word (bytes : List UInt8) : UInt64 :=
  bytes.foldr (fun byte value => value <<< 8 ||| byte.toUInt64) 0

/-- All whole words, then the rest with the length in the highest byte. -/
def hashWords (length : Nat) : SipState → List UInt8 → UInt64
  | s, b₀ :: b₁ :: b₂ :: b₃ :: b₄ :: b₅ :: b₆ :: b₇ :: rest =>
      hashWords length (s.compress (word [b₀, b₁, b₂, b₃, b₄, b₅, b₆, b₇])) rest
  | s, rest => (s.compress (word rest ||| (UInt64.ofNat length <<< 56))).finish

def defaultHasher (bytes : List UInt8) : UInt64 := hashWords bytes.length .new bytes

/-- A text is hashed as its bytes and one byte that no text holds. -/
def stringBytes (s : String) : List UInt8 := s.toUTF8.data.toList ++ [0xff]

def usizeBytes (n : Nat) : List UInt8 :=
  (List.range 8).map fun i => UInt8.ofNat (n / 2 ^ (8 * i))

abbrev HashCode : Type := Fin UInt64.size

/-- `hash(&criteria.hash_key)` -/
def hashOfKey (key : String) : HashCode := (defaultHasher (stringBytes key)).toFin

/-- `hash(&(node.id.clone(), i))` -/
def hashOfNode (id : String) (i : Nat) : HashCode :=
  (defaultHasher (stringBytes id ++ usizeBytes i)).toFin

/-! ## The ring -/

def defaultReplicas : Nat := 5

structure RingHash where
  nodes : OrderedMap HashCode Instance
  replicas : Nat
  revision : String

namespace RingHash

def new (replicas : Nat) (revision : String) : RingHash := ⟨.empty, replicas, revision⟩

variable (hashNode : String → Nat → HashCode)

def addNode (ring : RingHash) (node : Instance) : RingHash :=
  { ring with
    nodes := (List.range ring.replicas).foldl
      (fun nodes i => nodes.insert (hashNode node.id i) node) ring.nodes }

def addNodes (ring : RingHash) (instances : List Instance) : RingHash :=
  instances.foldl (addNode hashNode) ring

def getNode (ring : RingHash) (hash : HashCode) : Option Instance :=
  (ring.nodes.lastUpTo hash).map Prod.snd

def Holds (ring : RingHash) (ins : Instance) : Prop := ∃ point, (point, ins) ∈ ring.nodes.entries

/-- What some hash finds on a ring is what stands on it. -/
theorem exists_getNode_iff (ring : RingHash) (ins : Instance) :
    (∃ hash, ring.getNode hash = some ins) ↔ ring.Holds ins := by
  constructor
  · rintro ⟨hash, h⟩
    obtain ⟨⟨point, found⟩, hentry, rfl⟩ := Option.map_eq_some_iff.mp h
    exact ⟨point, OrderedMap.mem_of_lastUpTo hentry⟩
  · rintro ⟨point, h⟩
    refine ⟨point, ?_⟩
    rw [getNode, OrderedMap.lastUpTo_of_mem h]
    rfl

theorem holds_addNode {ring : RingHash} {node ins : Instance}
    (h : (ring.addNode hashNode node).Holds ins) : ring.Holds ins ∨ ins = node := by
  obtain ⟨point, hpoint⟩ := h
  have hfold : ∀ (replicas : List Nat) (nodes : OrderedMap HashCode Instance),
      (point, ins) ∈ (replicas.foldl
        (fun nodes i => nodes.insert (hashNode node.id i) node) nodes).entries →
      (point, ins) ∈ nodes.entries ∨ ins = node := by
    intro replicas
    induction replicas with
    | nil => exact fun _ h => .inl h
    | cons i replicas ih =>
        intro nodes h
        rcases ih _ h with hinsert | heq
        · rcases OrderedMap.mem_insert hinsert with hnew | hold
          · exact .inr (congrArg Prod.snd hnew)
          · exact .inl hold
        · exact .inr heq
  exact (hfold _ _ hpoint).imp_left fun hold => ⟨point, hold⟩

theorem holds_addNodes {ring : RingHash} {instances : List Instance} {ins : Instance}
    (h : (ring.addNodes hashNode instances).Holds ins) : ring.Holds ins ∨ ins ∈ instances := by
  induction instances generalizing ring with
  | nil => exact .inl h
  | cons node instances ih =>
      rcases ih h with hnode | hrest
      · rcases holds_addNode hashNode hnode with hold | rfl
        · exact .inl hold
        · exact .inr List.mem_cons_self
      · exact .inr (List.mem_cons_of_mem node hrest)

theorem not_holds_of_nil {ring : RingHash} (h : ring.nodes = .empty) (ins : Instance) :
    ¬ ring.Holds ins := by
  rintro ⟨point, hpoint⟩
  rw [h] at hpoint
  cases hpoint

end RingHash

/-! ## The balancer -/

abbrev ConsistentHashLoadBalancer : Type := String → Option RingHash

namespace ConsistentHashLoadBalancer

def new : ConsistentHashLoadBalancer := fun _ => none

/-- One call of `choose_instance`. -/
structure Offer where
  hashKey : String
  instances : ServiceInstances

section Calls

variable (hashNode : String → Nat → HashCode) (hashKey : String → HashCode)

/-- The ring that a call consults: the cached one, unless the revision is another. -/
def ringOf (instances : ServiceInstances) : Option RingHash → RingHash
  | none =>
      (RingHash.new defaultReplicas instances.service.revision).addNodes hashNode
        instances.instances
  | some ring =>
      if ring.revision ≠ instances.service.revision then
        { ({ ring with nodes := .empty } : RingHash).addNodes hashNode instances.instances with
          revision := instances.service.revision }
      else ring

def consulted (balancer : ConsistentHashLoadBalancer) (offer : Offer) : RingHash :=
  ringOf hashNode offer.instances (balancer offer.instances.getCacheKey)

/-- No answer stands for the panic of `unwrap`; it happens under a read guard and changes
nothing. -/
def chooseInstance (balancer : ConsistentHashLoadBalancer) (offer : Offer) :
    ConsistentHashLoadBalancer × Option Instance :=
  let ring := consulted hashNode balancer offer
  (Function.update balancer offer.instances.getCacheKey (some ring),
    ring.getNode (hashKey offer.hashKey))

/-- The cache after a call does not depend on the hash key. -/
def step (balancer : ConsistentHashLoadBalancer) (offer : Offer) : ConsistentHashLoadBalancer :=
  Function.update balancer offer.instances.getCacheKey (some (consulted hashNode balancer offer))

def Selects (balancer : ConsistentHashLoadBalancer) (offer : Offer) : Prop :=
  ∀ ins, (chooseInstance hashNode hashKey balancer offer).2 = some ins →
    ins ∈ offer.instances.instances

end Calls

def OffersRing (balancer : ConsistentHashLoadBalancer) (offer : Offer) : Prop :=
  ∀ ring, balancer offer.instances.getCacheKey = some ring →
    ring.revision = offer.instances.service.revision →
      ∀ ins, ring.Holds ins → ins ∈ offer.instances.instances

variable {hashNode : String → Nat → HashCode}

/-- A call consults a ring of its own list, or the cached one at its revision. -/
theorem consulted_cases (balancer : ConsistentHashLoadBalancer) (offer : Offer) :
    (∀ ins, (consulted hashNode balancer offer).Holds ins → ins ∈ offer.instances.instances) ∨
      ∃ ring, balancer offer.instances.getCacheKey = some ring ∧
        ring.revision = offer.instances.service.revision ∧
          consulted hashNode balancer offer = ring := by
  unfold consulted ringOf
  cases hring : balancer offer.instances.getCacheKey with
  | none =>
      left
      intro ins hins
      rcases RingHash.holds_addNodes hashNode hins with hempty | hmem
      · exact absurd hempty (RingHash.not_holds_of_nil rfl ins)
      · exact hmem
  | some ring =>
      simp only
      by_cases hrevision : ring.revision = offer.instances.service.revision
      · rw [if_neg (not_not_intro hrevision)]
        exact .inr ⟨ring, rfl, hrevision, rfl⟩
      · rw [if_pos hrevision]
        left
        intro ins hins
        obtain ⟨point, hpoint⟩ := hins
        rcases @RingHash.holds_addNodes hashNode { ring with nodes := .empty } _ ins
            ⟨point, hpoint⟩ with hempty | hmem
        · exact absurd hempty (RingHash.not_holds_of_nil rfl ins)
        · exact hmem

theorem consulted_of_cached {balancer : ConsistentHashLoadBalancer} {offer : Offer}
    {ring : RingHash} (h : balancer offer.instances.getCacheKey = some ring)
    (revision : ring.revision = offer.instances.service.revision) :
    consulted hashNode balancer offer = ring := by
  rw [consulted, h, ringOf, if_neg (not_not_intro revision)]

theorem consulted_holds_iff (balancer : ConsistentHashLoadBalancer) (offer : Offer) :
    (∀ ins, (consulted hashNode balancer offer).Holds ins → ins ∈ offer.instances.instances) ↔
      OffersRing balancer offer := by
  constructor
  · intro h ring hring hrevision ins hins
    exact h ins (by rwa [consulted_of_cached hring hrevision])
  · intro h
    rcases consulted_cases balancer offer with hown | ⟨ring, hring, hrevision, heq⟩
    · exact hown
    · rw [heq]
      exact h ring hring hrevision

/-- Whatever the keys hash to, a call selects from its list exactly if the ring it consults
stands for the list. -/
theorem selects_iff (balancer : ConsistentHashLoadBalancer) (offer : Offer) :
    (∀ hashKey, Selects hashNode hashKey balancer offer) ↔ OffersRing balancer offer := by
  rw [← @consulted_holds_iff hashNode]
  constructor
  · intro h ins hins
    obtain ⟨hash, hnode⟩ := (RingHash.exists_getNode_iff _ ins).mpr hins
    exact h (fun _ => hash) ins hnode
  · intro h hashKey ins hnode
    exact h ins ((RingHash.exists_getNode_iff _ ins).mp ⟨_, hnode⟩)

/-- Every call of a history selects from its own list, for every way the keys may hash, exactly
if each finds no ring at its revision that holds anything else. -/
theorem selects_in_history_iff (hashNode : String → Nat → HashCode) (history : List Offer) :
    (∀ hashKey first offer, first ++ [offer] <+: history →
      Selects hashNode hashKey (run (step hashNode) new first) offer) ↔
      Along (step hashNode) OffersRing new history := by
  rw [along_iff]
  constructor
  · intro h first offer hpart
    exact (selects_iff _ offer).mp fun hashKey => h hashKey first offer hpart
  · intro h hashKey first offer hpart
    exact (selects_iff _ offer).mpr (h first offer hpart) hashKey

/-! ## Where the rings come from -/

/-- The ring of a service is one of a list that was offered for it at the ring's revision. -/
def Built (balancer : ConsistentHashLoadBalancer) (offers : List Offer) : Prop :=
  ∀ key ring, balancer key = some ring → ∃ offer ∈ offers,
    offer.instances.getCacheKey = key ∧ offer.instances.service.revision = ring.revision ∧
      ∀ ins, ring.Holds ins → ins ∈ offer.instances.instances

theorem revision_addNodes (hashNode : String → Nat → HashCode) (ring : RingHash)
    (instances : List Instance) : (ring.addNodes hashNode instances).revision = ring.revision := by
  induction instances generalizing ring with
  | nil => rfl
  | cons node instances ih => exact ih (ring.addNode hashNode node)

theorem revision_consulted (balancer : ConsistentHashLoadBalancer) (offer : Offer) :
    (consulted hashNode balancer offer).revision = offer.instances.service.revision := by
  unfold consulted ringOf
  cases balancer offer.instances.getCacheKey with
  | none => exact revision_addNodes hashNode _ _
  | some ring =>
      simp only
      split
      · rfl
      · rename_i h
        exact not_not.mp h

theorem built_step {balancer : ConsistentHashLoadBalancer} {offers : List Offer}
    (built : Built balancer offers) (offer : Offer) :
    Built (step hashNode balancer offer) (offers ++ [offer]) := by
  intro key ring hring
  rw [step] at hring
  by_cases hkey : key = offer.instances.getCacheKey
  · rw [hkey, Function.update_self] at hring
    obtain rfl := Option.some.inj hring
    rcases @consulted_cases hashNode balancer offer with hown | ⟨ring, hold, -, heq⟩
    · exact ⟨offer, by simp, hkey.symm, (revision_consulted balancer offer).symm, hown⟩
    · rw [heq]
      obtain ⟨earlier, hmem, hearlier, hrest⟩ := built _ ring hold
      exact ⟨earlier, List.mem_append_left _ hmem, hearlier.trans hkey.symm, hrest⟩
  · rw [Function.update_of_ne hkey] at hring
    obtain ⟨earlier, hmem, hrest⟩ := built key ring hring
    exact ⟨earlier, List.mem_append_left _ hmem, hrest⟩

theorem built_run {balancer : ConsistentHashLoadBalancer} {offers : List Offer}
    (built : Built balancer offers) (history : List Offer) :
    Built (run (step hashNode) balancer history) (offers ++ history) := by
  induction history generalizing balancer offers with
  | nil => rwa [List.append_nil]
  | cons offer history ih =>
      rw [List.append_cons]
      exact ih (built_step built offer)

/-- Lists that agree whenever their texts and revisions do are safe to offer. -/
theorem selects_of_steady_revisions (hashNode : String → Nat → HashCode) {history : List Offer}
    (steady : ∀ offer ∈ history, ∀ other ∈ history,
      offer.instances.getCacheKey = other.instances.getCacheKey →
      offer.instances.service.revision = other.instances.service.revision →
      ∀ ins ∈ offer.instances.instances, ins ∈ other.instances.instances) :
    Along (step hashNode) OffersRing new history := by
  rw [along_iff]
  intro first offer hpart ring hring hrevision ins hins
  have built : Built (run (step hashNode) new first) first :=
    @built_run hashNode new [] (fun _ _ h => by cases h) first
  obtain ⟨earlier, hmem, hkey, hsame, hholds⟩ := built _ ring hring
  have hearlier := hpart.subset (List.mem_append_left _ hmem)
  have hoffer := hpart.subset (List.mem_append_right first List.mem_cons_self)
  exact steady earlier hearlier offer hoffer hkey (hsame.trans hrevision) ins (hholds ins hins)

/-! ## A subset at the same revision -/

def soleOffer (id : String) : Offer where
  hashKey := "k"
  instances := .new ⟨"", "default", "orders", .empty, "rev-1"⟩
    [⟨id, "default", "orders", "127.0.0.1", 8080, "", "", "", true, false, 1, 0, .empty, default,
      ""⟩]

/-- A router has kept only the instance b: the call still gets a. -/
theorem filtered_instance_selected : ¬ ∀ first offer,
    first ++ [offer] <+: [soleOffer "a", soleOffer "b"] →
      Selects hashOfNode hashOfKey (run (step hashOfNode) new first) offer := by
  intro h
  have hfound : ((chooseInstance hashOfNode hashOfKey
      (run (step hashOfNode) new [soleOffer "a"]) (soleOffer "b")).2.map Instance.id) =
        some "a" := by decide +kernel
  obtain ⟨ins, hins, hid⟩ := Option.map_eq_some_iff.mp hfound
  have hmem := h [soleOffer "a"] (soleOffer "b") ⟨[], rfl⟩ ins hins
  rw [List.mem_singleton.mp hmem] at hid
  exact absurd hid (by decide)

end ConsistentHashLoadBalancer

end PoleClient.LoadBalance
