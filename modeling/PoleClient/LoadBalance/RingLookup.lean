import PoleClient.LoadBalance.RingHash

/-! # Lookups on the hash ring

A node enters the ring at its own points and takes over what stood there. A
lookup finds the greatest point that is not above the hash, so a further node
moves lookups to itself only. There is no way around the end of the ring.
-/

namespace PoleClient.LoadBalance

open Lib

namespace RingHash

/-! ## The points of a node -/

def PointOf (hashNode : String → Nat → HashCode) (replicas : Nat) (node : Instance)
    (key : HashCode) : Prop := ∃ i < replicas, hashNode node.id i = key

section Entries

variable (hashNode : String → Nat → HashCode)

theorem mem_insertPoints_iff (node : Instance) (replicas : List Nat)
    (nodes : OrderedMap HashCode Instance) (key : HashCode) (ins : Instance) :
    (key, ins) ∈ (replicas.foldl
        (fun nodes i => nodes.insert (hashNode node.id i) node) nodes).entries ↔
      (∃ i ∈ replicas, hashNode node.id i = key) ∧ ins = node ∨
        (¬ ∃ i ∈ replicas, hashNode node.id i = key) ∧ (key, ins) ∈ nodes.entries := by
  induction replicas generalizing nodes with
  | nil => simp
  | cons i replicas ih =>
      have hcons : (∃ j ∈ i :: replicas, hashNode node.id j = key) ↔
          hashNode node.id i = key ∨ ∃ j ∈ replicas, hashNode node.id j = key := by
        simp only [List.mem_cons, or_and_right, exists_or, exists_eq_left]
      rw [List.foldl_cons, ih, OrderedMap.mem_insert_iff, Prod.mk.injEq, hcons]
      by_cases hkey : hashNode node.id i = key
      · by_cases hrest : ∃ j ∈ replicas, hashNode node.id j = key
        · simp [hrest]
        · simp [hrest, hkey]
      · simp only [hkey, Ne.symm hkey, false_and, false_or, ne_eq, not_false_eq_true, true_and]

/-- After a node is added, it stands at its own points and everything else where it stood. -/
theorem mem_addNode_iff (ring : RingHash) (node : Instance) (key : HashCode) (ins : Instance) :
    (key, ins) ∈ (ring.addNode hashNode node).nodes.entries ↔
      PointOf hashNode ring.replicas node key ∧ ins = node ∨
        ¬ PointOf hashNode ring.replicas node key ∧ (key, ins) ∈ ring.nodes.entries := by
  rw [addNode, mem_insertPoints_iff]
  simp only [PointOf, List.mem_range]

/-- Something stands at a key exactly if it did before or if the key is a point of a node. -/
theorem occupied_addNodes_iff (ring : RingHash) (instances : List Instance) (key : HashCode) :
    (∃ ins, (key, ins) ∈ (ring.addNodes hashNode instances).nodes.entries) ↔
      (∃ ins, (key, ins) ∈ ring.nodes.entries) ∨
        ∃ node ∈ instances, PointOf hashNode ring.replicas node key := by
  induction instances generalizing ring with
  | nil => simp [addNodes]
  | cons node instances ih =>
      have hhead : (∃ ins, (key, ins) ∈ (ring.addNode hashNode node).nodes.entries) ↔
          PointOf hashNode ring.replicas node key ∨ ∃ ins, (key, ins) ∈ ring.nodes.entries := by
        simp only [mem_addNode_iff]
        by_cases hpoint : PointOf hashNode ring.replicas node key
        · simp [hpoint]
        · simp [hpoint]
      have hstep := ih (ring.addNode hashNode node)
      rw [hhead] at hstep
      have hcons : (∃ other ∈ node :: instances, PointOf hashNode ring.replicas other key) ↔
          PointOf hashNode ring.replicas node key ∨
            ∃ other ∈ instances, PointOf hashNode ring.replicas other key := by
        simp only [List.mem_cons, or_and_right, exists_or, exists_eq_left]
      rw [hcons, or_left_comm, ← or_assoc]
      exact hstep

/-! ## The order of insertion -/

def Apart (replicas : Nat) (node other : Instance) : Prop :=
  ∀ key, PointOf hashNode replicas node key → ¬ PointOf hashNode replicas other key

theorem addNode_comm (ring : RingHash) {node other : Instance}
    (apart : Apart hashNode ring.replicas node other) :
    (ring.addNode hashNode node).addNode hashNode other =
      (ring.addNode hashNode other).addNode hashNode node := by
  have hnodes : ((ring.addNode hashNode node).addNode hashNode other).nodes =
      ((ring.addNode hashNode other).addNode hashNode node).nodes := by
    apply OrderedMap.ext_of_mem
    rintro ⟨key, ins⟩
    rw [mem_addNode_iff, mem_addNode_iff, mem_addNode_iff, mem_addNode_iff]
    change PointOf hashNode ring.replicas other key ∧ _ ∨
        ¬ PointOf hashNode ring.replicas other key ∧ _ ↔
      PointOf hashNode ring.replicas node key ∧ _ ∨
        ¬ PointOf hashNode ring.replicas node key ∧ _
    have hkey := apart key
    by_cases hnode : PointOf hashNode ring.replicas node key
    · simp [hnode, hkey hnode]
    · simp [hnode]
  calc (ring.addNode hashNode node).addNode hashNode other
      = ⟨((ring.addNode hashNode node).addNode hashNode other).nodes, ring.replicas,
          ring.revision⟩ := rfl
    _ = (ring.addNode hashNode other).addNode hashNode node := by rw [hnodes]; rfl

theorem addNodes_perm {nodes others : List Instance} (hperm : nodes.Perm others) (ring : RingHash)
    (apart : ∀ node ∈ nodes, ∀ other ∈ nodes, node ≠ other →
      Apart hashNode ring.replicas node other) :
    ring.addNodes hashNode nodes = ring.addNodes hashNode others := by
  induction hperm generalizing ring with
  | nil => rfl
  | cons node _ ih =>
      apply ih (ring.addNode hashNode node)
      intro first hfirst second hsecond
      exact apart first (List.mem_cons_of_mem _ hfirst) second (List.mem_cons_of_mem _ hsecond)
  | swap node other rest =>
      have hswap : (ring.addNode hashNode other).addNode hashNode node =
          (ring.addNode hashNode node).addNode hashNode other := by
        by_cases heq : other = node
        · rw [heq]
        · apply addNode_comm
          exact apart other List.mem_cons_self node
            (List.mem_cons_of_mem _ List.mem_cons_self) heq
      exact congrArg (fun start => start.addNodes hashNode rest) hswap
  | trans hfirst _ ihFirst ihSecond =>
      rw [ihFirst ring apart]
      apply ihSecond ring
      intro node hnode other hother
      exact apart node (hfirst.symm.subset hnode) other (hfirst.symm.subset hother)

end Entries

/-! ## Minimal disruption -/

theorem getNode_insertPoints (hashNode : String → Nat → HashCode) (node : Instance)
    (replicas : List Nat) (nodes : OrderedMap HashCode Instance) (hash : HashCode) :
    ((replicas.foldl (fun nodes i => nodes.insert (hashNode node.id i) node) nodes).lastUpTo
        hash).map Prod.snd = (nodes.lastUpTo hash).map Prod.snd ∨
      ((replicas.foldl (fun nodes i => nodes.insert (hashNode node.id i) node) nodes).lastUpTo
        hash).map Prod.snd = some node := by
  induction replicas generalizing nodes with
  | nil => exact .inl rfl
  | cons i replicas ih =>
      rcases ih (nodes.insert (hashNode node.id i) node) with hkept | hnode
      · rcases OrderedMap.lastUpTo_insert nodes (hashNode node.id i) node hash with hsame | hnew
        · left
          rw [← hsame]
          exact hkept
        · right
          rw [List.foldl_cons, hkept, hnew]
          rfl
      · exact .inr hnode

/-- A further node takes lookups over for itself and leaves all others alone. Nodes without
common points make the same ring in every order. -/
theorem minimal_disruption (hashNode : String → Nat → HashCode) (ring : RingHash) :
    (∀ node hash, (ring.addNode hashNode node).getNode hash = ring.getNode hash ∨
      (ring.addNode hashNode node).getNode hash = some node) ∧
    (∀ nodes others : List Instance, nodes.Perm others →
      (∀ node ∈ nodes, ∀ other ∈ nodes, node ≠ other →
        ∀ i < ring.replicas, ∀ j < ring.replicas, hashNode node.id i ≠ hashNode other.id j) →
      ring.addNodes hashNode nodes = ring.addNodes hashNode others ∧
        ∀ hash, (ring.addNodes hashNode nodes).getNode hash =
          (ring.addNodes hashNode others).getNode hash) := by
  constructor
  · intro node hash
    exact getNode_insertPoints hashNode node _ ring.nodes hash
  · intro nodes others hperm distinct
    have hring : ring.addNodes hashNode nodes = ring.addNodes hashNode others := by
      apply addNodes_perm hashNode hperm ring
      rintro node hnode other hother hne key ⟨i, hi, hnodePoint⟩ ⟨j, hj, hotherPoint⟩
      exact distinct node hnode other hother hne i hi j hj (hnodePoint.trans hotherPoint.symm)
    exact ⟨hring, fun hash => by rw [hring]⟩

/-! ## Where a lookup finds nothing -/

theorem getNode_isSome_iff (ring : RingHash) (hash : HashCode) :
    (∃ ins, ring.getNode hash = some ins ∧ ring.Holds ins) ↔
      ∃ point ins, (point, ins) ∈ ring.nodes.entries ∧ point ≤ hash := by
  constructor
  · rintro ⟨ins, hfound, -⟩
    obtain ⟨⟨point, found⟩, hentry, -⟩ := Option.map_eq_some_iff.mp hfound
    exact ⟨point, found, OrderedMap.mem_of_lastUpTo hentry, OrderedMap.le_of_lastUpTo hentry⟩
  · rintro ⟨point, ins, hmem, hle⟩
    cases hfound : ring.nodes.lastUpTo hash with
    | none =>
        rw [OrderedMap.lastUpTo_eq_none_iff] at hfound
        exact absurd hle (not_le.mpr (hfound (point, ins) hmem))
    | some entry =>
        have hentry := OrderedMap.mem_of_lastUpTo hfound
        exact ⟨entry.2, by rw [getNode, hfound]; rfl, entry.1, hentry⟩

theorem getNode_addNodes_isSome_iff (hashNode : String → Nat → HashCode) {ring : RingHash}
    (empty : ring.nodes = .empty) (nodes : List Instance) (hash : HashCode) :
    (∃ node ∈ nodes, (ring.addNodes hashNode nodes).getNode hash = some node) ↔
      ∃ node ∈ nodes, ∃ i < ring.replicas, hashNode node.id i ≤ hash := by
  have hheld : ∀ ins, (ring.addNodes hashNode nodes).Holds ins → ins ∈ nodes := by
    intro ins hins
    rcases holds_addNodes hashNode hins with hempty | hmem
    · exact absurd hempty (not_holds_of_nil empty ins)
    · exact hmem
  have hpoint : ∀ point, (∃ ins, (point, ins) ∈ (ring.addNodes hashNode nodes).nodes.entries) ↔
      ∃ node ∈ nodes, PointOf hashNode ring.replicas node point := by
    intro point
    rw [occupied_addNodes_iff, empty]
    simp [OrderedMap.empty]
  calc (∃ node ∈ nodes, (ring.addNodes hashNode nodes).getNode hash = some node)
      ↔ ∃ ins, (ring.addNodes hashNode nodes).getNode hash = some ins ∧
          (ring.addNodes hashNode nodes).Holds ins := by
        constructor
        · rintro ⟨node, -, hfound⟩
          exact ⟨node, hfound, (exists_getNode_iff _ node).mp ⟨hash, hfound⟩⟩
        · rintro ⟨ins, hfound, hins⟩
          exact ⟨ins, hheld ins hins, hfound⟩
    _ ↔ ∃ point, (∃ ins, (point, ins) ∈ (ring.addNodes hashNode nodes).nodes.entries) ∧
          point ≤ hash := by
        rw [getNode_isSome_iff]
        simp only [exists_and_right]
    _ ↔ ∃ node ∈ nodes, ∃ i < ring.replicas, hashNode node.id i ≤ hash := by
        simp only [hpoint]
        constructor
        · rintro ⟨point, ⟨node, hnode, i, hi, rfl⟩, hle⟩
          exact ⟨node, hnode, i, hi, hle⟩
        · rintro ⟨node, hnode, i, hi, hle⟩
          exact ⟨_, ⟨node, hnode, i, hi, rfl⟩, hle⟩

end RingHash

namespace ConsistentHashLoadBalancer

/-- A lookup answers exactly from the lowest point on: on every ring, on the rings of a list, and
for a call that finds no ring of its service. -/
theorem lookup_answers_iff (hashNode : String → Nat → HashCode) (hashKey : String → HashCode) :
    (∀ (ring : RingHash) (hash : HashCode),
      (∃ ins, ring.getNode hash = some ins ∧ ring.Holds ins) ↔
        ∃ point ins, (point, ins) ∈ ring.nodes.entries ∧ point ≤ hash) ∧
    (∀ (replicas : Nat) (revision : String) (nodes : List Instance) (hash : HashCode),
      (∃ node ∈ nodes,
        ((RingHash.new replicas revision).addNodes hashNode nodes).getNode hash = some node) ↔
          ∃ node ∈ nodes, ∃ i < replicas, hashNode node.id i ≤ hash) ∧
    (∀ (balancer : ConsistentHashLoadBalancer) (offer : Offer),
      balancer offer.instances.getCacheKey = none →
        ((∃ ins ∈ offer.instances.instances,
          (chooseInstance hashNode hashKey balancer offer).2 = some ins) ↔
            ∃ ins ∈ offer.instances.instances, ∃ i < defaultReplicas,
              hashNode ins.id i ≤ hashKey offer.hashKey)) := by
  constructor
  · exact RingHash.getNode_isSome_iff
  constructor
  · intro replicas revision nodes hash
    exact RingHash.getNode_addNodes_isSome_iff hashNode rfl nodes hash
  · intro balancer offer hnone
    have hfresh := @RingHash.getNode_addNodes_isSome_iff hashNode
      (.new defaultReplicas offer.instances.service.revision) rfl offer.instances.instances
      (hashKey offer.hashKey)
    rw [chooseInstance, consulted, hnone]
    exact hfresh

/-- The key hashes below all five points of the only instance: the lookup finds nothing, and
the call has no answer to unwrap. -/
theorem no_answer_below_the_ring :
    (¬ ∀ (nodes : List Instance) (hash : HashCode), nodes ≠ [] → ∃ node ∈ nodes,
      ((RingHash.new defaultReplicas "rev-1").addNodes hashOfNode nodes).getNode hash =
        some node) ∧
    (¬ ∀ offer : Offer, offer.instances.instances ≠ [] →
      ∃ ins, (chooseInstance hashOfNode hashOfKey new offer).2 = some ins) := by
  constructor
  · intro h
    obtain ⟨node, -, hfound⟩ := h (soleOffer "a").instances.instances (hashOfKey "key1") (by decide)
    have hnone : (((RingHash.new defaultReplicas "rev-1").addNodes hashOfNode
        (soleOffer "a").instances.instances).getNode (hashOfKey "key1")).isNone = true := by
      decide +kernel
    rw [hfound] at hnone
    cases hnone
  · intro h
    obtain ⟨ins, hfound⟩ := h { soleOffer "a" with hashKey := "key1" } (by decide)
    have hnone : (chooseInstance hashOfNode hashOfKey new
        { soleOffer "a" with hashKey := "key1" }).2.isNone = true := by decide +kernel
    rw [hfound] at hnone
    cases hnone

end ConsistentHashLoadBalancer

end PoleClient.LoadBalance
