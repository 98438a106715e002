import Mathlib.Logic.Function.Basic
import PoleClient.Core.Model
import PoleClient.Core.Naming
import PoleClient.Lib.Run

/-! # Weighted round robin

One map of entries a service, one entry an instance id. A call brings the
entries of its service up to its list under the write locks, then walks the list
once more and takes the instance whose current weight is the largest. A call
takes place at one moment, counted in nanoseconds; what may pass between two
calls is arbitrary. Weights are added as 64-bit numbers, with or without
overflow checks.
-/

namespace PoleClient.LoadBalance

/-! ## Entries -/

structure WeightedRoundRobin where
  curWeight : Int64
  weight : UInt32
  lastFetch : Nat
deriving DecidableEq

namespace WeightedRoundRobin

def new (now : Nat) (weight : UInt32) : WeightedRoundRobin := ⟨0, weight, now⟩

def reset (self : WeightedRoundRobin) (weight : UInt32) : WeightedRoundRobin :=
  { self with curWeight := 0, weight := weight }

/-- What `increase_cur_weight` has to store, before it is brought into 64 bits. -/
def increasedWeight (self : WeightedRoundRobin) : Int :=
  self.curWeight.toInt + self.weight.toNat

def increaseCurWeight (self : WeightedRoundRobin) : WeightedRoundRobin :=
  { self with curWeight := Int64.ofInt self.increasedWeight }

def decreaseCurWeight (self : WeightedRoundRobin) (weight : UInt32) : WeightedRoundRobin :=
  { self with curWeight := Int64.ofInt (self.curWeight.toInt - weight.toNat) }

/-- An entry that has not expired follows a changed weight. -/
def followWeight (self : WeightedRoundRobin) (weight : UInt32) : WeightedRoundRobin :=
  if self.weight ≠ weight then self.reset weight else self

def updateLastFetch (self : WeightedRoundRobin) (now : Nat) : WeightedRoundRobin :=
  { self with lastFetch := now }

/-- More than sixty whole seconds without use. -/
def isExpire (self : WeightedRoundRobin) (now : Nat) : Bool :=
  60 < (now - self.lastFetch) / 1000000000

theorem isExpire_followWeight (self : WeightedRoundRobin) (weight : UInt32) (now : Nat) :
    (self.followWeight weight).isExpire now = self.isExpire now := by
  unfold followWeight
  split <;> rfl

theorem isExpire_new (now : Nat) (weight : UInt32) : (new now weight).isExpire now = false := by
  simp [new, isExpire]

end WeightedRoundRobin

/-! ## The balancer -/

abbrev RoundRobins : Type := String → Option WeightedRoundRobin

/-- A panic under the write guard of the entries poisons their lock. -/
structure WeightedRoundRobins where
  roundRobins : RoundRobins
  poisoned : Bool

def insertNew (now : Nat) (robins : RoundRobins) (ins : Instance) : RoundRobins :=
  Function.update robins ins.id (some (.new now ins.weight))

def WeightedRoundRobins.new (now : Nat) (instances : List Instance) : WeightedRoundRobins where
  roundRobins := instances.foldl (insertNew now) fun _ => none
  poisoned := false

/-- `held` is a write guard of a call that never returns. -/
inductive LockState where
  | free
  | held
  | poisoned
deriving DecidableEq, Repr

structure WeightedRoundRobinBalancer where
  roundRobinCache : String → Option WeightedRoundRobins
  lock : LockState

/-- Why a call neither returns an instance nor an error. -/
inductive Failure where
  | lockHeld
  | lockPoisoned
  /-- The call asks for the write lock whose guard it holds. -/
  | lockRequestedAgain
  | missingEntry
  | weightOverflow
  | noneSelected
deriving DecidableEq, Repr

inductive Outcome where
  | ok (selected : Instance)
  | err (error : PoleError)
  | failed (failure : Failure)

structure Call where
  now : Nat
  instances : ServiceInstances

/-- The list holds nothing to choose from. -/
def Call.isEmpty (call : Call) : Bool :=
  call.instances.instances.isEmpty || call.instances.getTotalWeight == 0

def emptyError : PoleError :=
  .new .instanceInfoError "instances is empty or total weight is 0"

namespace WeightedRoundRobinBalancer

def new : WeightedRoundRobinBalancer := ⟨fun _ => none, .free⟩

/-- The loop of `and_modify`. It ends at the first expired entry, with a second request for the
lock of the entries. -/
def refresh (now : Nat) : List Instance → RoundRobins → Except Failure RoundRobins
  | [], robins => .ok robins
  | ins :: instances, robins =>
      let robin := (robins ins.id).getD (.new now ins.weight)
      if robin.isExpire now then .error .lockRequestedAgain
      else
        refresh now instances
          (Function.update robins ins.id (some (robin.followWeight ins.weight)))

structure Selection where
  maxWeight : Int64
  selected : Option Instance

/-- The loop that picks the largest current weight, the first one of equals. -/
def select (overflowChecks : Bool) (now : Nat) :
    List Instance → RoundRobins → Selection → Except Failure (RoundRobins × Selection)
  | [], robins, selection => .ok (robins, selection)
  | ins :: instances, robins, selection =>
      match robins ins.id with
      | none => .error .missingEntry
      | some robin =>
          if overflowChecks && decide (2 ^ 63 ≤ robin.increasedWeight) then .error .weightOverflow
          else
            let robin := robin.increaseCurWeight
            select overflowChecks now instances
              (Function.update robins ins.id (some (robin.updateLastFetch now)))
              (if selection.maxWeight < robin.curWeight then ⟨robin.curWeight, some ins⟩
                else selection)

/-- The first half of a call: the entries of the service, made or brought up to the list. -/
def prepare (balancer : WeightedRoundRobinBalancer) (call : Call) :
    Except Failure WeightedRoundRobins :=
  match balancer.roundRobinCache call.instances.getCacheKey with
  | none => .ok (.new call.now call.instances.instances)
  | some robins =>
      if robins.poisoned then .error .lockPoisoned
      else
        match refresh call.now call.instances.instances robins.roundRobins with
        | .error failure => .error failure
        | .ok roundRobins => .ok ⟨roundRobins, false⟩

def setRobins (balancer : WeightedRoundRobinBalancer) (key : String)
    (robins : WeightedRoundRobins) : WeightedRoundRobinBalancer :=
  { balancer with
    roundRobinCache := Function.update balancer.roundRobinCache key (some robins) }

/-- The second half. The selected entry is shared with the map, so that it is the entry of the
map whose weight falls by the total, cut to 32 bits. -/
def pick (overflowChecks : Bool) (balancer : WeightedRoundRobinBalancer) (call : Call)
    (robins : WeightedRoundRobins) : WeightedRoundRobinBalancer × Outcome :=
  let key := call.instances.getCacheKey
  match select overflowChecks call.now call.instances.instances robins.roundRobins
      ⟨Int64.minValue, none⟩ with
  | .error failure => (balancer.setRobins key { robins with poisoned := true }, .failed failure)
  | .ok (roundRobins, selection) =>
      match selection.selected with
      | none => (balancer.setRobins key ⟨roundRobins, robins.poisoned⟩, .failed .noneSelected)
      | some ins =>
          let total := UInt32.ofNat call.instances.getTotalWeight
          let decreased := (roundRobins ins.id).map fun robin => robin.decreaseCurWeight total
          (balancer.setRobins key
            ⟨Function.update roundRobins ins.id decreased, robins.poisoned⟩, .ok ins)

/-- A failure of the first half leaves the outer write lock behind: held by the call that waits
for itself, or poisoned by a panic. -/
def chooseInstance (overflowChecks : Bool) (balancer : WeightedRoundRobinBalancer) (call : Call) :
    WeightedRoundRobinBalancer × Outcome :=
  if call.isEmpty then (balancer, .err emptyError)
  else
    match balancer.lock with
    | .held => (balancer, .failed .lockHeld)
    | .poisoned => (balancer, .failed .lockPoisoned)
    | .free =>
        match balancer.prepare call with
        | .error .lockRequestedAgain =>
            ({ balancer with lock := .held }, .failed .lockRequestedAgain)
        | .error failure => ({ balancer with lock := .poisoned }, .failed failure)
        | .ok robins => pick overflowChecks balancer call robins

def choose (overflowChecks : Bool) (balancer : WeightedRoundRobinBalancer) (call : Call) :
    WeightedRoundRobinBalancer :=
  (chooseInstance overflowChecks balancer call).1

def outcome (overflowChecks : Bool) (balancer : WeightedRoundRobinBalancer) (call : Call) :
    Outcome :=
  (chooseInstance overflowChecks balancer call).2

/-! ## What a call needs -/

/-- The entries that a list finds when none of them has expired. -/
def upToDate (now : Nat) : List Instance → RoundRobins → RoundRobins
  | [], robins => robins
  | ins :: instances, robins =>
      let robin := (robins ins.id).getD (.new now ins.weight)
      upToDate now instances
        (Function.update robins ins.id (some (robin.followWeight ins.weight)))

/-- The weights as the selection adds them up, one sum an instance. -/
def weightSums (now : Nat) : List Instance → RoundRobins → List Int
  | [], _ => []
  | ins :: instances, robins =>
      match robins ins.id with
      | none => []
      | some robin =>
          robin.increasedWeight ::
            weightSums now instances (Function.update robins ins.id
              (some (robin.increaseCurWeight.updateLastFetch now)))

/-- One sum has to be above the weight that the selection starts from, and with overflow checks
every sum has to fit. -/
structure Fits (overflowChecks : Bool) (sums : List Int) : Prop where
  above : ∃ sum ∈ sums, Int64.minValue < Int64.ofInt sum
  checked : overflowChecks = true → ∀ sum ∈ sums, sum < 2 ^ 63

def entries (balancer : WeightedRoundRobinBalancer) (call : Call) : RoundRobins :=
  ((balancer.roundRobinCache call.instances.getCacheKey).map
    WeightedRoundRobins.roundRobins).getD fun _ => none

def Unexpired (balancer : WeightedRoundRobinBalancer) (call : Call) : Prop :=
  ∀ ins ∈ call.instances.instances, ∀ robin,
    balancer.entries call ins.id = some robin → robin.isExpire call.now = false

def brought (balancer : WeightedRoundRobinBalancer) (call : Call) : RoundRobins :=
  upToDate call.now call.instances.instances (balancer.entries call)

/-- A call that can make its choice. -/
structure Choosable (overflowChecks : Bool) (balancer : WeightedRoundRobinBalancer)
    (call : Call) : Prop where
  unexpired : balancer.Unexpired call
  fits : Fits overflowChecks
    (weightSums call.now call.instances.instances (balancer.brought call))

/-- A member of the list, or the error exactly for a list with nothing to choose from. -/
def Returns (call : Call) : Outcome → Prop
  | .ok selected => call.isEmpty = false ∧ selected ∈ call.instances.instances
  | .err _ => call.isEmpty = true
  | .failed _ => False

/-- No lock is held or poisoned between two calls. -/
structure Sound (balancer : WeightedRoundRobinBalancer) : Prop where
  lock : balancer.lock = .free
  robins : ∀ key robins, balancer.roundRobinCache key = some robins → robins.poisoned = false

theorem sound_new : Sound new where
  lock := rfl
  robins := fun _ _ h => by cases h

/-! ## The first half -/

theorem refresh_cons_of_expired {now : Nat} {ins : Instance} {robins : RoundRobins}
    {robin : WeightedRoundRobin} (h : robins ins.id = some robin)
    (expired : robin.isExpire now = true) (instances : List Instance) :
    refresh now (ins :: instances) robins = .error .lockRequestedAgain := by
  simp [refresh, h, expired]

/-- An entry after its visit is expired only if it was before. -/
theorem isExpire_visited {now : Nat} {ins : Instance} {robins : RoundRobins}
    (h : ∀ robin, robins ins.id = some robin → robin.isExpire now = false) :
    ((robins ins.id).getD (.new now ins.weight)).isExpire now = false := by
  cases hrobin : robins ins.id with
  | none => exact WeightedRoundRobin.isExpire_new now ins.weight
  | some robin => exact h robin hrobin

theorem refresh_eq_ok_iff (now : Nat) (instances : List Instance) (robins : RoundRobins) :
    refresh now instances robins = .ok (upToDate now instances robins) ↔
      ∀ ins ∈ instances, ∀ robin, robins ins.id = some robin → robin.isExpire now = false := by
  induction instances generalizing robins with
  | nil => simp [refresh, upToDate]
  | cons ins instances ih =>
      by_cases hhead : ∀ robin, robins ins.id = some robin → robin.isExpire now = false
      · have hvisited := isExpire_visited hhead
        rw [refresh, upToDate]
        simp only [hvisited, Bool.false_eq_true, if_false]
        rw [ih]
        constructor
        · intro h other hother robin hrobin
          rcases List.mem_cons.mp hother with rfl | htail
          · exact hhead robin hrobin
          · by_cases hid : other.id = ins.id
            · exact hhead robin (hid ▸ hrobin)
            · exact h other htail robin (by rwa [Function.update_of_ne hid])
        · intro h other hother robin hrobin
          by_cases hid : other.id = ins.id
          · rw [hid, Function.update_self] at hrobin
            rw [← Option.some.inj hrobin, WeightedRoundRobin.isExpire_followWeight]
            exact hvisited
          · rw [Function.update_of_ne hid] at hrobin
            exact h other (List.mem_cons_of_mem ins hother) robin hrobin
      · obtain ⟨robin, hrobin, hexpired⟩ : ∃ robin, robins ins.id = some robin ∧
            robin.isExpire now = true := by simpa using hhead
        rw [refresh_cons_of_expired hrobin hexpired]
        constructor
        · intro h
          cases h
        · intro h
          have hfresh := h ins List.mem_cons_self robin hrobin
          rw [hexpired] at hfresh
          cases hfresh

theorem refresh_cases (now : Nat) (instances : List Instance) (robins : RoundRobins) :
    refresh now instances robins = .ok (upToDate now instances robins) ∨
      refresh now instances robins = .error .lockRequestedAgain := by
  induction instances generalizing robins with
  | nil => exact .inl rfl
  | cons ins instances ih =>
      rw [refresh, upToDate]
      split
      · exact .inr rfl
      · exact ih _

theorem upToDate_mono {now : Nat} {instances : List Instance} {robins : RoundRobins} {id : String}
    (h : (robins id).isSome = true) : (upToDate now instances robins id).isSome = true := by
  induction instances generalizing robins with
  | nil => exact h
  | cons ins instances ih =>
      rw [upToDate]
      apply ih
      by_cases hid : id = ins.id
      · rw [hid, Function.update_self]
        rfl
      · rwa [Function.update_of_ne hid]

theorem upToDate_isSome {now : Nat} {instances : List Instance} {robins : RoundRobins}
    {ins : Instance} (h : ins ∈ instances) :
    (upToDate now instances robins ins.id).isSome = true := by
  induction instances generalizing robins with
  | nil => cases h
  | cons head instances ih =>
      rw [upToDate]
      rcases List.mem_cons.mp h with rfl | htail
      · apply upToDate_mono
        rw [Function.update_self]
        rfl
      · exact ih htail

theorem followWeight_of_fresh {now : Nat} {robin : WeightedRoundRobin}
    (hweight : robin.curWeight = 0) (hfetch : robin.lastFetch = now) (weight : UInt32) :
    robin.followWeight weight = .new now weight := by
  obtain ⟨curWeight, old, lastFetch⟩ := robin
  obtain rfl : curWeight = 0 := hweight
  obtain rfl : lastFetch = now := hfetch
  unfold WeightedRoundRobin.followWeight
  split
  · rfl
  · rename_i hsame
    obtain rfl : old = weight := by simpa using hsame
    rfl

theorem foldl_insertNew (now : Nat) (instances : List Instance) (robins : RoundRobins)
    (fresh : ∀ id robin, robins id = some robin →
      robin.curWeight = 0 ∧ robin.lastFetch = now) :
    instances.foldl (insertNew now) robins = upToDate now instances robins := by
  induction instances generalizing robins with
  | nil => rfl
  | cons ins instances ih =>
      have hvisited : ((robins ins.id).getD (.new now ins.weight)).followWeight ins.weight =
          .new now ins.weight := by
        cases hrobin : robins ins.id with
        | none => exact followWeight_of_fresh rfl rfl ins.weight
        | some robin =>
            obtain ⟨hweight, hfetch⟩ := fresh ins.id robin hrobin
            exact followWeight_of_fresh hweight hfetch ins.weight
      rw [List.foldl_cons, upToDate]
      simp only [hvisited]
      apply ih
      intro id robin hrobin
      rw [insertNew] at hrobin
      by_cases hid : id = ins.id
      · rw [hid, Function.update_self] at hrobin
        rw [← Option.some.inj hrobin]
        exact ⟨rfl, rfl⟩
      · rw [Function.update_of_ne hid] at hrobin
        exact fresh id robin hrobin

/-- The entries of a new service are those that the loop makes where there are none. -/
theorem new_roundRobins (now : Nat) (instances : List Instance) :
    (WeightedRoundRobins.new now instances).roundRobins =
      upToDate now instances fun _ => none :=
  foldl_insertNew now instances _ fun _ _ h => by cases h

theorem prepare_cases {balancer : WeightedRoundRobinBalancer} (sound : Sound balancer)
    (call : Call) :
    (Unexpired balancer call ∧ balancer.prepare call = .ok ⟨brought balancer call, false⟩) ∨
      (¬ Unexpired balancer call ∧ balancer.prepare call = .error .lockRequestedAgain) := by
  unfold Unexpired brought prepare entries
  cases hrobins : balancer.roundRobinCache call.instances.getCacheKey with
  | none =>
      refine .inl ⟨fun _ _ _ h => (by cases h), ?_⟩
      simp only [Option.map_none, Option.getD_none, ← new_roundRobins]
      rfl
  | some robins =>
      have hlock := sound.robins _ robins hrobins
      simp only [hlock, Bool.false_eq_true, if_false, Option.map_some, Option.getD_some]
      rw [← refresh_eq_ok_iff]
      rcases refresh_cases call.now call.instances.instances robins.roundRobins with hok | herror
      · rw [hok]
        exact .inl ⟨rfl, rfl⟩
      · rw [herror]
        exact .inr ⟨fun h => (by cases h), rfl⟩

/-! ## The second half -/

section Select

variable {overflowChecks : Bool} {now : Nat}

theorem present_update {instances : List Instance} {robins : RoundRobins}
    (present : ∀ ins ∈ instances, (robins ins.id).isSome = true) (id : String)
    (robin : WeightedRoundRobin) :
    ∀ ins ∈ instances, (Function.update robins id (some robin) ins.id).isSome = true := by
  intro ins hins
  by_cases hid : ins.id = id
  · rw [hid, Function.update_self]
    rfl
  · rw [Function.update_of_ne hid]
    exact present ins hins

theorem select_of_overflow {instances : List Instance} {robins : RoundRobins}
    (present : ∀ ins ∈ instances, (robins ins.id).isSome = true)
    (overflow : ∃ sum ∈ weightSums now instances robins, 2 ^ 63 ≤ sum) (selection : Selection) :
    select true now instances robins selection = .error .weightOverflow := by
  induction instances generalizing robins selection with
  | nil =>
      obtain ⟨sum, hsum, -⟩ := overflow
      cases hsum
  | cons ins instances ih =>
      obtain ⟨robin, hrobin⟩ := Option.isSome_iff_exists.mp (present ins List.mem_cons_self)
      have hrest := present_update
        (fun other hother => present other (List.mem_cons_of_mem ins hother)) ins.id
        (robin.increaseCurWeight.updateLastFetch now)
      simp only [weightSums, hrobin] at overflow
      obtain ⟨sum, hsum, hlarge⟩ := overflow
      simp only [select, hrobin, Bool.true_and, decide_eq_true_eq]
      split
      · rfl
      · rename_i hsmall
        rcases List.mem_cons.mp hsum with rfl | hsum
        · exact absurd hlarge hsmall
        · exact ih hrest ⟨sum, hsum, hlarge⟩ _

/-- Without an overflow the walk ends. It selects an instance of the list as soon as one sum is
above the weight it started from. -/
theorem select_spec {instances : List Instance} {robins : RoundRobins}
    (present : ∀ ins ∈ instances, (robins ins.id).isSome = true)
    (checked : overflowChecks = true → ∀ sum ∈ weightSums now instances robins, sum < 2 ^ 63)
    (selection : Selection) :
    ∃ after result, select overflowChecks now instances robins selection = .ok (after, result) ∧
      (result.selected = none ↔ selection.selected = none ∧
        ∀ sum ∈ weightSums now instances robins, ¬ selection.maxWeight < Int64.ofInt sum) ∧
      ∀ ins, result.selected = some ins → selection.selected = some ins ∨ ins ∈ instances := by
  induction instances generalizing robins selection with
  | nil => exact ⟨robins, selection, rfl, by simp [weightSums], fun _ h => .inl h⟩
  | cons ins instances ih =>
      obtain ⟨robin, hrobin⟩ := Option.isSome_iff_exists.mp (present ins List.mem_cons_self)
      have hrest := present_update
        (fun other hother => present other (List.mem_cons_of_mem ins hother)) ins.id
        (robin.increaseCurWeight.updateLastFetch now)
      simp only [weightSums, hrobin] at checked ⊢
      have hsmall : ¬ (overflowChecks && decide (2 ^ 63 ≤ robin.increasedWeight)) = true := by
        intro h
        simp only [Bool.and_eq_true, decide_eq_true_eq] at h
        have hhead := checked h.1 _ List.mem_cons_self
        omega
      obtain ⟨after, result, hselect, hnone, hsome⟩ := ih hrest
        (fun h sum hsum => checked h sum (List.mem_cons_of_mem _ hsum))
        (if selection.maxWeight < robin.increaseCurWeight.curWeight then
          ⟨robin.increaseCurWeight.curWeight, some ins⟩ else selection)
      refine ⟨after, result, ?_, ?_, ?_⟩
      · simp only [select, hrobin, if_neg hsmall]
        exact hselect
      · rw [hnone, List.forall_mem_cons]
        by_cases habove : selection.maxWeight < Int64.ofInt robin.increasedWeight
        · simp [WeightedRoundRobin.increaseCurWeight, habove]
        · simp [WeightedRoundRobin.increaseCurWeight, habove]
      · intro other hother
        rcases hsome other hother with hbefore | hlater
        · split at hbefore
          · obtain rfl := Option.some.inj hbefore
            exact .inr List.mem_cons_self
          · exact .inl hbefore
        · exact .inr (List.mem_cons_of_mem ins hlater)

end Select

/-- The second half returns a member of the list exactly if the weights can be added up. -/
theorem pick_cases (overflowChecks : Bool) (balancer : WeightedRoundRobinBalancer) (call : Call)
    {robins : RoundRobins}
    (present : ∀ ins ∈ call.instances.instances, (robins ins.id).isSome = true) :
    (Fits overflowChecks (weightSums call.now call.instances.instances robins) ∧
      ∃ after, ∃ ins ∈ call.instances.instances, pick overflowChecks balancer call ⟨robins, false⟩ =
        (balancer.setRobins call.instances.getCacheKey ⟨after, false⟩, .ok ins)) ∨
    (¬ Fits overflowChecks (weightSums call.now call.instances.instances robins) ∧
      ∃ after, ∃ failure ∈ [Failure.weightOverflow, .noneSelected],
        pick overflowChecks balancer call ⟨robins, false⟩ = (after, .failed failure)) := by
  by_cases hchecked : overflowChecks = true →
      ∀ sum ∈ weightSums call.now call.instances.instances robins, sum < 2 ^ 63
  · obtain ⟨after, result, hselect, hnone, hsome⟩ := select_spec present hchecked
      ⟨Int64.minValue, none⟩
    cases hresult : result.selected with
    | none =>
        refine .inr ⟨fun fits => ?_, balancer.setRobins call.instances.getCacheKey ⟨after, false⟩,
          .noneSelected, by simp, ?_⟩
        · obtain ⟨sum, hsum, habove⟩ := fits.above
          exact (hnone.mp hresult).2 sum hsum habove
        · simp only [pick, hselect, hresult]
    | some ins =>
        have hmem : ins ∈ call.instances.instances := by
          rcases hsome ins hresult with hstart | hmem
          · cases hstart
          · exact hmem
        refine .inl ⟨⟨?_, hchecked⟩, _, ins, hmem, by simp only [pick, hselect, hresult]; rfl⟩
        by_contra hbelow
        have hsel := hnone.mpr ⟨rfl, fun sum hsum habove => hbelow ⟨sum, hsum, habove⟩⟩
        rw [hresult] at hsel
        cases hsel
  · obtain ⟨hchecks, sum, hsum, hlarge⟩ : overflowChecks = true ∧
        ∃ sum ∈ weightSums call.now call.instances.instances robins, 2 ^ 63 ≤ sum := by
      simpa using hchecked
    subst hchecks
    have hselect : select true call.now call.instances.instances robins ⟨Int64.minValue, none⟩ =
        .error .weightOverflow := select_of_overflow present ⟨sum, hsum, hlarge⟩ _
    refine .inr ⟨fun fits => hchecked fits.checked,
      balancer.setRobins call.instances.getCacheKey ⟨robins, true⟩, .weightOverflow, by simp, ?_⟩
    simp only [pick, hselect]

theorem sound_setRobins {balancer : WeightedRoundRobinBalancer} (sound : Sound balancer)
    (key : String) (robins : RoundRobins) : Sound (balancer.setRobins key ⟨robins, false⟩) where
  lock := sound.lock
  robins := by
    intro other found hfound
    simp only [setRobins] at hfound
    by_cases hkey : other = key
    · rw [hkey, Function.update_self] at hfound
      rw [← Option.some.inj hfound]
    · rw [Function.update_of_ne hkey] at hfound
      exact sound.robins other found hfound

/-! ## Whole calls and histories -/

theorem chooseInstance_of_isEmpty (overflowChecks : Bool) (balancer : WeightedRoundRobinBalancer)
    {call : Call} (h : call.isEmpty = true) :
    chooseInstance overflowChecks balancer call = (balancer, .err emptyError) := by
  rw [chooseInstance, if_pos h]

theorem chooseInstance_of_prepared (overflowChecks : Bool) {balancer : WeightedRoundRobinBalancer}
    (sound : Sound balancer) {call : Call} (h : call.isEmpty = false)
    {robins : WeightedRoundRobins} (prepared : balancer.prepare call = .ok robins) :
    chooseInstance overflowChecks balancer call = pick overflowChecks balancer call robins := by
  simp only [chooseInstance, h, Bool.false_eq_true, if_false, sound.lock, prepared]

/-- What a call on a sound balancer does: it returns and leaves the balancer sound if the choice
can be made, and otherwise it waits for itself or panics; an entry is missing in no case. -/
theorem chooseInstance_cases (overflowChecks : Bool) {balancer : WeightedRoundRobinBalancer}
    (sound : Sound balancer) {call : Call} (h : call.isEmpty = false) :
    (Choosable overflowChecks balancer call ∧ Sound (choose overflowChecks balancer call) ∧
      ∃ ins ∈ call.instances.instances, outcome overflowChecks balancer call = .ok ins) ∨
    (¬ Choosable overflowChecks balancer call ∧
      ∃ failure ∈ [Failure.lockRequestedAgain, .weightOverflow, .noneSelected],
        outcome overflowChecks balancer call = .failed failure) := by
  unfold choose outcome
  rcases prepare_cases sound call with ⟨hfresh, hprepare⟩ | ⟨hexpired, hprepare⟩
  · rw [chooseInstance_of_prepared overflowChecks sound h hprepare]
    rcases pick_cases overflowChecks balancer call fun ins hins => upToDate_isSome hins with
      ⟨hfits, after, ins, hins, hpick⟩ | ⟨hfits, after, failure, hfailure, hpick⟩
    · exact .inl ⟨⟨hfresh, hfits⟩, hpick ▸ sound_setRobins sound _ after, ins, hins, by
        rw [brought, hpick]⟩
    · exact .inr ⟨fun choosable => hfits choosable.fits, failure,
        List.mem_cons_of_mem _ hfailure, by rw [brought, hpick]⟩
  · refine .inr ⟨fun choosable => hexpired choosable.unexpired, .lockRequestedAgain,
      List.mem_cons_self, ?_⟩
    simp only [chooseInstance, h, Bool.false_eq_true, if_false, sound.lock, hprepare]

def Served (overflowChecks : Bool) (balancer : WeightedRoundRobinBalancer) (call : Call) : Prop :=
  call.isEmpty = true ∨ Choosable overflowChecks balancer call

theorem returns_iff_served (overflowChecks : Bool) {balancer : WeightedRoundRobinBalancer}
    (sound : Sound balancer) (call : Call) :
    Returns call (outcome overflowChecks balancer call) ↔
      Served overflowChecks balancer call := by
  unfold Served
  cases h : call.isEmpty with
  | true =>
      rw [outcome, chooseInstance_of_isEmpty overflowChecks balancer h]
      simp [Returns, h]
  | false =>
      rcases chooseInstance_cases overflowChecks sound h with
        ⟨hchoosable, -, ins, hins, houtcome⟩ | ⟨hchoosable, failure, -, houtcome⟩
      · rw [houtcome]
        simp [Returns, h, hins, hchoosable]
      · rw [houtcome]
        simp [Returns, hchoosable]

theorem sound_choose (overflowChecks : Bool) (balancer : WeightedRoundRobinBalancer) (call : Call)
    (sound : Sound balancer) (served : Served overflowChecks balancer call) :
    Sound (choose overflowChecks balancer call) := by
  cases h : call.isEmpty with
  | true =>
      rw [choose, chooseInstance_of_isEmpty overflowChecks balancer h]
      exact sound
  | false =>
      rcases chooseInstance_cases overflowChecks sound h with ⟨-, hsound, -⟩ | ⟨hchoosable, -⟩
      · exact hsound
      · rcases served with hempty | hserved
        · rw [h] at hempty
          cases hempty
        · exact absurd hserved hchoosable

/-- Every call of a history returns as it should exactly if each finds unexpired entries whose
weights can be added up, or has nothing to choose from. -/
theorem returns_in_history_iff (overflowChecks : Bool) (history : List Call) :
    (∀ first call, first ++ [call] <+: history →
      Returns call (outcome overflowChecks (Lib.run (choose overflowChecks) new first) call)) ↔
      Lib.Along (choose overflowChecks) (Served overflowChecks) new history := by
  have hreturns := @Lib.along_iff _ _ (choose overflowChecks)
    (fun balancer call => Returns call (outcome overflowChecks balancer call)) new history
  rw [← hreturns]
  exact Lib.along_iff_along (sound_choose overflowChecks)
    (fun _ call sound => returns_iff_served overflowChecks sound call) sound_new

def soleCall (now : Nat) : Call where
  now := now
  instances := .new ⟨"", "default", "orders", .empty, "rev-1"⟩
    [⟨"a", "default", "orders", "127.0.0.1", 8080, "", "", "", true, false, 1, 0, .empty, default,
      ""⟩]

/-- A service that has been idle for a little more than a minute: the next call asks for the
lock that it holds. -/
theorem idle_service_locks_itself : ¬ ∀ first call,
    first ++ [call] <+: [soleCall 0, soleCall 61000000000] →
      Returns call (outcome true (Lib.run (choose true) new first) call) := by
  intro h
  exact h [soleCall 0] (soleCall 61000000000) ⟨[], rfl⟩

end WeightedRoundRobinBalancer

end PoleClient.LoadBalance
