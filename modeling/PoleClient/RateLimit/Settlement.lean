import Mathlib.Data.List.Pairwise
import Mathlib.Data.List.Sort
import PoleClient.Lib.Collected
import PoleClient.RateLimit.LeaseTotals
import PoleClient.RateLimit.MultiReserve
import PoleClient.RateLimit.Session

/-! # Settling a distributed lease

The client checks what the server settled against what it sent. The settlements
are collected by counter key first, and so of several entries for one counter
only the last is checked.
-/

namespace PoleClient.RateLimit

open Lib

/-! ## Messages -/

inductive QuotaAccounting where
  | consumable
  | occupancy
deriving DecidableEq, Repr

structure RemoteQuotaConsumption where
  counterKey : UInt32
  consumedTotal : UInt32
deriving DecidableEq, Repr

structure QuotaSettlement where
  counterKey : UInt32
  consumedTotal : UInt32
  returnedAmount : UInt32
deriving DecidableEq, Repr

structure QuotaSettleRequest where
  clientKey : UInt32
  leaseId : String
  consumptions : List RemoteQuotaConsumption
  sequence : Nat
  timestamp : Int
deriving DecidableEq, Repr

structure QuotaSettleResponse where
  code : UInt32
  settlements : List QuotaSettlement
deriving DecidableEq, Repr

/-! ## Leases -/

structure LeaseCounterGroup where
  resource : QuotaResource
  amount : UInt32
  accounting : QuotaAccounting
  counterKeys : List UInt32
deriving DecidableEq, Repr

structure DistributedLeaseBackend where
  clientKey : UInt32
  leaseId : String
  groups : List LeaseCounterGroup
deriving DecidableEq, Repr

def leasedCounters (groups : List LeaseCounterGroup) : List UInt32 :=
  groups.flatMap LeaseCounterGroup.counterKeys

def quotaAccounting : LimitResource → QuotaAccounting
  | .concurrency => .occupancy
  | _ => .consumable

def unsupportedResourceError : PoleError :=
  .new .invalidRule "unsupported distributed quota resource"

def clientKeyError : PoleError :=
  .new .invalidResponse "rate limit init responses disagree on client key"

def duplicateCounterError : PoleError :=
  .new .invalidResponse "rate limit init returned duplicate counter keys"

/-- The counter keys inserted one by one, up to the first that is there already. -/
def insertCounters : List UInt32 → List UInt32 → Option (List UInt32)
  | seen, [] => some seen
  | seen, key :: keys => if key ∈ seen then none else insertCounters (key :: seen) keys

/-- The loop of `reserve_many`, with the client key and the counter keys so far. `ensureWindow`
readies the window of a spec and answers with the client key and the counters. -/
def leaseGroups (ensureWindow : QuotaSpec → Except PoleError (UInt32 × List UInt32)) :
    Option UInt32 → List UInt32 → List QuotaSpec →
      Except PoleError (Option UInt32 × List LeaseCounterGroup)
  | clientKey, _, [] => .ok (clientKey, [])
  | clientKey, seen, spec :: specs =>
      match ensureWindow spec with
      | .error err => .error err
      | .ok (currentClientKey, counters) =>
          if clientKey.any (· ≠ currentClientKey) then .error clientKeyError
          else
            match insertCounters seen counters with
            | none => .error duplicateCounterError
            | some seen =>
                match quotaResource spec.trigger.resource with
                | none => .error unsupportedResourceError
                | some resource =>
                    (leaseGroups ensureWindow (some currentClientKey) seen specs).map
                      fun (clientKey, groups) =>
                        (clientKey, ⟨resource, spec.amount, quotaAccounting spec.trigger.resource,
                          counters⟩ :: groups)

/-! ## The settlement -/

def missingConsumptionError (resource : QuotaResource) : PoleError :=
  .new .apiInvalidArgument ("quota consumption for " ++ resource.debugName ++ " is missing")

def expandConsumptions :
    List LeaseCounterGroup → List QuotaConsumption → Except PoleError (List RemoteQuotaConsumption)
  | [], _ => .ok []
  | group :: groups, consumptions =>
      match totalOf consumptions group.resource with
      | none => .error (missingConsumptionError group.resource)
      | some consumedTotal =>
          (expandConsumptions groups consumptions).map fun expanded =>
            group.counterKeys.map (⟨·, consumedTotal⟩) ++ expanded

def normalizeConsumptions (consumptions : List RemoteQuotaConsumption) : List (UInt32 × UInt32) :=
  (consumptions.map fun consumption =>
    (consumption.counterKey, consumption.consumedTotal)).insertionSort fun a b =>
      a.1 < b.1 ∨ a.1 = b.1 ∧ a.2 ≤ b.2

/-- `u32::saturating_sub`. -/
def saturatingSub (a b : UInt32) : UInt32 :=
  if b ≤ a then a - b else 0

def expectedReturned (group : LeaseCounterGroup) (consumedTotal : UInt32) : UInt32 :=
  match group.accounting with
  | .consumable => saturatingSub group.amount consumedTotal
  | .occupancy => group.amount

def missingSettleError : PoleError :=
  .new .invalidResponse "quota settle response is missing"

def settleCodeError (code : UInt32) : PoleError :=
  .new .serverError ("quota settle returned code " ++ toString code)

def settleMismatchError : PoleError :=
  .new .invalidResponse "quota settle response does not match the request"

/-- The check of the settlements against the normalized consumptions. -/
def settlementsValid (groups : List LeaseCounterGroup) (requested : List (UInt32 × UInt32))
    (settled : List QuotaSettlement) : Bool :=
  let settlements := Table.collect QuotaSettlement.counterKey
    (fun settlement => (settlement.consumedTotal, settlement.returnedAmount)) settled
  (groups.all fun group => group.counterKeys.all fun counterKey =>
    let consumedTotal :=
      ((requested.find? fun entry => entry.1 = counterKey).map Prod.snd).getD 0xffffffff
    settlements.lookup counterKey = some (consumedTotal, expectedReturned group consumedTotal)) &&
    settlements.rows.length = (groups.map fun group => group.counterKeys.length).sum

/-- `roundTrip` sends a request on the session and answers with the settle part of the
response. -/
def settleLease (roundTrip : QuotaSettleRequest → Except PoleError (Option QuotaSettleResponse))
    (clientKey : UInt32) (leaseId : String) (groups : List LeaseCounterGroup)
    (consumptions : List RemoteQuotaConsumption) (sequence : Nat) (serverTimestamp : Int) :
    Except PoleError Unit :=
  let requested := normalizeConsumptions consumptions
  match roundTrip ⟨clientKey, leaseId, consumptions, sequence, serverTimestamp⟩ with
  | .error err => .error err
  | .ok none => .error missingSettleError
  | .ok (some settle) =>
      if settle.code ≠ rateLimitSuccessCode then .error (settleCodeError settle.code)
      else if settlementsValid groups requested settle.settlements then .ok ()
      else .error settleMismatchError

def DistributedLeaseBackend.finish (self : DistributedLeaseBackend)
    (roundTrip : QuotaSettleRequest → Except PoleError (Option QuotaSettleResponse))
    (consumptions : List QuotaConsumption) (sequence : Nat) (serverTimestamp : Int) :
    Except PoleError Unit :=
  match expandConsumptions self.groups consumptions with
  | .error err => .error err
  | .ok remote =>
      settleLease roundTrip self.clientKey self.leaseId self.groups remote sequence serverTimestamp

/-! ## What an exact settlement is -/

def LeaseCounterGroup.returned (group : LeaseCounterGroup) (consumed : Nat) : Nat :=
  match group.accounting with
  | .consumable => group.amount.toNat - consumed
  | .occupancy => group.amount.toNat

/-- In some order, one entry per leased counter and nothing else, each with the total sent for the
counter and the amount that comes back. -/
structure ExactlySettled (groups : List LeaseCounterGroup) (sent : List RemoteQuotaConsumption)
    (settlements : List QuotaSettlement) : Prop where
  counters : (settlements.map QuotaSettlement.counterKey).Perm (leasedCounters groups)
  entries : ∀ settlement ∈ settlements, ∃ group ∈ groups,
    settlement.counterKey ∈ group.counterKeys ∧
      ⟨settlement.counterKey, settlement.consumedTotal⟩ ∈ sent ∧
      settlement.returnedAmount.toNat = group.returned settlement.consumedTotal.toNat

/-- A counter has several entries, and the last ones of all counters are an exact settlement. -/
def HidesDuplicates (groups : List LeaseCounterGroup) (sent : List RemoteQuotaConsumption)
    (settlements : List QuotaSettlement) : Prop :=
  ¬(settlements.map QuotaSettlement.counterKey).Nodup ∧
    ExactlySettled groups sent (lastOfKeys QuotaSettlement.counterKey settlements)

/-! ## Distinct counters -/

theorem insertCounters_spec {seen keys after : List UInt32}
    (h : insertCounters seen keys = some after) :
    keys.Nodup ∧ (∀ key ∈ keys, key ∉ seen) ∧ ∀ key, key ∈ after ↔ key ∈ keys ∨ key ∈ seen := by
  induction keys generalizing seen with
  | nil =>
      obtain rfl := Option.some.inj h
      simp
  | cons first keys ih =>
      rw [insertCounters] at h
      by_cases hseen : first ∈ seen
      · rw [if_pos hseen] at h
        cases h
      · rw [if_neg hseen] at h
        obtain ⟨hnodup, hfresh, hafter⟩ := ih h
        have hfirst : first ∉ keys := fun hmem => hfresh first hmem List.mem_cons_self
        refine ⟨List.nodup_cons.mpr ⟨hfirst, hnodup⟩, ?_, ?_⟩
        · intro key hkey
          rcases List.mem_cons.mp hkey with rfl | hkey
          · exact hseen
          · exact fun hmem => hfresh key hkey (List.mem_cons_of_mem first hmem)
        · intro key
          rw [hafter, List.mem_cons, List.mem_cons]
          tauto

theorem leaseGroups_cons {ensureWindow : QuotaSpec → Except PoleError (UInt32 × List UInt32)}
    {clientKey last : Option UInt32} {seen : List UInt32} {spec : QuotaSpec}
    {specs : List QuotaSpec} {groups : List LeaseCounterGroup}
    (h : leaseGroups ensureWindow clientKey seen (spec :: specs) = .ok (last, groups)) :
    ∃ current after group rest, groups = group :: rest ∧
      insertCounters seen group.counterKeys = some after ∧
      leaseGroups ensureWindow (some current) after specs = .ok (last, rest) := by
  rw [leaseGroups] at h
  cases hwindow : ensureWindow spec with
  | error err =>
      simp only [hwindow] at h
      cases h
  | ok answer =>
      obtain ⟨current, counters⟩ := answer
      simp only [hwindow] at h
      by_cases hkey : clientKey.any (· ≠ current) = true
      · rw [if_pos hkey] at h
        cases h
      · rw [if_neg hkey] at h
        cases hinsert : insertCounters seen counters with
        | none =>
            simp only [hinsert] at h
            cases h
        | some after =>
            simp only [hinsert] at h
            cases hresource : quotaResource spec.trigger.resource with
            | none =>
                simp only [hresource] at h
                cases h
            | some resource =>
                simp only [hresource] at h
                cases hrest : leaseGroups ensureWindow (some current) after specs with
                | error err =>
                    rw [hrest] at h
                    cases h
                | ok rest =>
                    rw [hrest] at h
                    cases h
                    exact ⟨current, after, _, rest.2, rfl, hinsert, hrest⟩

theorem nodup_leaseGroups {ensureWindow : QuotaSpec → Except PoleError (UInt32 × List UInt32)}
    {clientKey last : Option UInt32} {seen : List UInt32} {specs : List QuotaSpec}
    {groups : List LeaseCounterGroup}
    (h : leaseGroups ensureWindow clientKey seen specs = .ok (last, groups)) :
    (leasedCounters groups).Nodup ∧ ∀ key ∈ leasedCounters groups, key ∉ seen := by
  induction specs generalizing clientKey seen groups with
  | nil =>
      cases h
      exact ⟨List.nodup_nil, nofun⟩
  | cons spec specs ih =>
      obtain ⟨current, after, group, rest, rfl, hinsert, hrest⟩ := leaseGroups_cons h
      obtain ⟨hnodup, hfresh, hafter⟩ := insertCounters_spec hinsert
      obtain ⟨hrestNodup, hrestFresh⟩ := ih hrest
      rw [leasedCounters, List.flatMap_cons]
      constructor
      · apply hnodup.append hrestNodup
        intro key hmem hlater
        exact hrestFresh key hlater ((hafter key).mpr (.inl hmem))
      · intro key hmem
        rcases List.mem_append.mp hmem with hmem | hlater
        · exact hfresh key hmem
        · exact fun hseen => hrestFresh key hlater ((hafter key).mpr (.inr hseen))

theorem group_unique {groups : List LeaseCounterGroup} (distinct : (leasedCounters groups).Nodup)
    {group other : LeaseCounterGroup} (hgroup : group ∈ groups) (hother : other ∈ groups)
    {key : UInt32} (hkey : key ∈ group.counterKeys) (hotherKey : key ∈ other.counterKeys) :
    group = other := by
  by_contra hne
  have hpairwise := (List.nodup_flatMap.mp distinct).2
  have symmetric : Std.Symm (Function.onFun List.Disjoint LeaseCounterGroup.counterKeys) :=
    ⟨fun _ _ h _ hfirst hsecond => h hsecond hfirst⟩
  exact hpairwise.forall hgroup hother hne hkey hotherKey

/-! ## What was sent -/

theorem keys_expandConsumptions {groups : List LeaseCounterGroup}
    {consumptions : List QuotaConsumption} {remote : List RemoteQuotaConsumption}
    (h : expandConsumptions groups consumptions = .ok remote) :
    remote.map RemoteQuotaConsumption.counterKey = leasedCounters groups := by
  induction groups generalizing remote with
  | nil =>
      cases h
      rfl
  | cons group groups ih =>
      rw [expandConsumptions] at h
      cases htotal : totalOf consumptions group.resource with
      | none =>
          simp only [htotal] at h
          cases h
      | some total =>
          simp only [htotal] at h
          cases hrest : expandConsumptions groups consumptions with
          | error err =>
              rw [hrest] at h
              cases h
          | ok rest =>
              rw [hrest] at h
              cases h
              rw [List.map_append, ih hrest, leasedCounters, leasedCounters, List.flatMap_cons,
                List.map_map, Function.comp_def, List.map_id']

theorem mem_normalizeConsumptions {sent : List RemoteQuotaConsumption} {key total : UInt32} :
    (key, total) ∈ normalizeConsumptions sent ↔ ⟨key, total⟩ ∈ sent := by
  rw [normalizeConsumptions, List.mem_insertionSort, List.mem_map]
  constructor
  · rintro ⟨consumption, hmem, heq⟩
    cases heq
    exact hmem
  · intro h
    exact ⟨⟨key, total⟩, h, rfl⟩

/-- A counter that one total was sent for is found with that total. -/
theorem find_normalizeConsumptions {sent : List RemoteQuotaConsumption}
    (distinct : (sent.map RemoteQuotaConsumption.counterKey).Nodup) {key total : UInt32} :
    ((normalizeConsumptions sent).find? fun entry => entry.1 = key).map Prod.snd = some total ↔
      ⟨key, total⟩ ∈ sent := by
  have hkeys : ((normalizeConsumptions sent).map Prod.fst).Nodup := by
    have hperm := (List.perm_insertionSort (fun a b : UInt32 × UInt32 =>
      a.1 < b.1 ∨ a.1 = b.1 ∧ a.2 ≤ b.2) (sent.map fun consumption =>
        (consumption.counterKey, consumption.consumedTotal))).map Prod.fst
    rw [List.map_map] at hperm
    exact hperm.nodup_iff.mpr distinct
  rw [← mem_normalizeConsumptions]
  exact AList.find_eq_some_iff hkeys

/-! ## The check -/

theorem toNat_expectedReturned (group : LeaseCounterGroup) (total : UInt32) :
    (expectedReturned group total).toNat = group.returned total.toNat := by
  unfold expectedReturned LeaseCounterGroup.returned saturatingSub
  cases group.accounting with
  | occupancy => rfl
  | consumable =>
      by_cases hle : total ≤ group.amount
      · simp only [if_pos hle]
        exact UInt32.toNat_sub_of_le _ _ hle
      · have hlt : group.amount.toNat < total.toNat := UInt32.not_le.mp hle
        simp only [if_neg hle]
        show 0 = group.amount.toNat - total.toNat
        omega

section Check

variable {groups : List LeaseCounterGroup} {sent : List RemoteQuotaConsumption}
variable {settled : List QuotaSettlement}

/-- The check passes if and only if every leased counter has the expected entry among the last
ones, and there are no others. -/
theorem settlementsValid_iff (distinct : (leasedCounters groups).Nodup)
    (hsent : (sent.map RemoteQuotaConsumption.counterKey).Perm (leasedCounters groups)) :
    settlementsValid groups (normalizeConsumptions sent) settled = true ↔
      (∀ group ∈ groups, ∀ key ∈ group.counterKeys, ∃ total, ⟨key, total⟩ ∈ sent ∧
        ⟨key, total, expectedReturned group total⟩ ∈
          lastOfKeys QuotaSettlement.counterKey settled) ∧
      (lastOfKeys QuotaSettlement.counterKey settled).length = (leasedCounters groups).length := by
  have hsentDistinct := hsent.nodup_iff.mpr distinct
  unfold settlementsValid
  simp only [Bool.and_eq_true, List.all_eq_true, decide_eq_true_eq, Table.length_collect]
  rw [leasedCounters, List.length_flatMap]
  apply and_congr_left'
  apply forall₄_congr
  intro group hgroup key hkey
  have hleased : key ∈ sent.map RemoteQuotaConsumption.counterKey :=
    hsent.mem_iff.mpr (List.mem_flatMap.mpr ⟨group, hgroup, hkey⟩)
  obtain ⟨consumption, hconsumption, rfl⟩ := List.mem_map.mp hleased
  have hfind := (find_normalizeConsumptions hsentDistinct).mpr hconsumption
  rw [hfind, Option.getD_some, Table.lookup_collect]
  constructor
  · rintro ⟨settlement, hmem, hkeys, hvalue⟩
    refine ⟨consumption.consumedTotal, hconsumption, ?_⟩
    obtain ⟨counterKey, consumedTotal, returnedAmount⟩ := settlement
    cases hkeys
    cases hvalue
    exact hmem
  · rintro ⟨total, htotal, hmem⟩
    have hsame := (find_normalizeConsumptions hsentDistinct).mpr htotal
    rw [hfind] at hsame
    cases hsame
    exact ⟨_, hmem, rfl, rfl⟩

theorem settlementsValid_iff_exact (distinct : (leasedCounters groups).Nodup)
    (hsent : (sent.map RemoteQuotaConsumption.counterKey).Perm (leasedCounters groups)) :
    settlementsValid groups (normalizeConsumptions sent) settled = true ↔
      ExactlySettled groups sent (lastOfKeys QuotaSettlement.counterKey settled) := by
  have hsentDistinct := hsent.nodup_iff.mpr distinct
  have hlast := nodup_map_lastOfKeys QuotaSettlement.counterKey settled
  rw [settlementsValid_iff distinct hsent]
  constructor
  · rintro ⟨hentries, hlength⟩
    have hcounters : (leasedCounters groups).Perm
        ((lastOfKeys QuotaSettlement.counterKey settled).map QuotaSettlement.counterKey) := by
      apply (List.subperm_of_subset distinct ?_).perm_of_length_le
      · rw [List.length_map, hlength]
      · intro key hkey
        obtain ⟨group, hgroup, hkey⟩ := List.mem_flatMap.mp hkey
        obtain ⟨total, -, hmem⟩ := hentries group hgroup key hkey
        exact List.mem_map_of_mem hmem
    refine ⟨hcounters.symm, ?_⟩
    intro settlement hmem
    have hleased := hcounters.symm.subset (List.mem_map_of_mem hmem)
    obtain ⟨group, hgroup, hkey⟩ := List.mem_flatMap.mp hleased
    obtain ⟨total, htotal, hexpected⟩ := hentries group hgroup _ hkey
    have hsame := eq_of_mem_lastOfKeys hmem hexpected rfl
    rw [hsame]
    exact ⟨group, hgroup, hkey, htotal, toNat_expectedReturned group total⟩
  · intro settles
    constructor
    · intro group hgroup key hkey
      have hleased : key ∈ leasedCounters groups := List.mem_flatMap.mpr ⟨group, hgroup, hkey⟩
      obtain ⟨settlement, hmem, rfl⟩ := List.mem_map.mp (settles.counters.symm.subset hleased)
      obtain ⟨other, hother, hotherKey, htotal, hreturned⟩ := settles.entries settlement hmem
      obtain rfl := group_unique distinct hgroup hother hkey hotherKey
      refine ⟨settlement.consumedTotal, htotal, ?_⟩
      have hamount : expectedReturned group settlement.consumedTotal = settlement.returnedAmount :=
        UInt32.toNat_inj.mp ((toNat_expectedReturned _ _).trans hreturned.symm)
      rw [hamount]
      exact hmem
    · rw [← settles.counters.length_eq, List.length_map]

/-- An exact settlement has one entry for each counter. -/
theorem ExactlySettled.nodup (distinct : (leasedCounters groups).Nodup)
    (settles : ExactlySettled groups sent settled) :
    (settled.map QuotaSettlement.counterKey).Nodup :=
  settles.counters.nodup_iff.mpr distinct

theorem settleLease_ok_iff {roundTrip : QuotaSettleRequest → Except PoleError
      (Option QuotaSettleResponse)} {clientKey : UInt32} {leaseId : String} {sequence : Nat}
    {serverTimestamp : Int} :
    settleLease roundTrip clientKey leaseId groups sent sequence serverTimestamp = .ok () ↔
      ∃ settled, roundTrip ⟨clientKey, leaseId, sent, sequence, serverTimestamp⟩ =
          .ok (some ⟨rateLimitSuccessCode, settled⟩) ∧
        settlementsValid groups (normalizeConsumptions sent) settled = true := by
  unfold settleLease
  cases roundTrip ⟨clientKey, leaseId, sent, sequence, serverTimestamp⟩ with
  | error err => simp
  | ok response =>
      cases response with
      | none => simp
      | some settle =>
          obtain ⟨code, settled⟩ := settle
          by_cases hcode : code = rateLimitSuccessCode
          · cases hvalid : settlementsValid groups (normalizeConsumptions sent) settled with
            | true => simp [hcode, hvalid]
            | false => simp [hcode, hvalid]
          · simp [hcode]

end Check

/-- When a lease that `reserve_many` built is finished, the last entries of the response settle
each of its counters exactly. -/
theorem settled_of_finish {ensureWindow : QuotaSpec → Except PoleError (UInt32 × List UInt32)}
    {last : Option UInt32} {specs : List QuotaSpec} {self : DistributedLeaseBackend}
    (built : leaseGroups ensureWindow none [] specs = .ok (last, self.groups))
    {roundTrip : QuotaSettleRequest → Except PoleError (Option QuotaSettleResponse)}
    {consumptions : List QuotaConsumption} {sequence : Nat} {serverTimestamp : Int}
    (h : self.finish roundTrip consumptions sequence serverTimestamp = .ok ()) :
    ∃ remote settlements, expandConsumptions self.groups consumptions = .ok remote ∧
      roundTrip ⟨self.clientKey, self.leaseId, remote, sequence, serverTimestamp⟩ =
        .ok (some ⟨rateLimitSuccessCode, settlements⟩) ∧
      ExactlySettled self.groups remote (lastOfKeys QuotaSettlement.counterKey settlements) := by
  unfold DistributedLeaseBackend.finish at h
  cases hexpanded : expandConsumptions self.groups consumptions with
  | error err =>
      rw [hexpanded] at h
      cases h
  | ok remote =>
      rw [hexpanded] at h
      obtain ⟨settlements, hanswered, hvalid⟩ := settleLease_ok_iff.mp h
      have hsent := List.Perm.of_eq (keys_expandConsumptions hexpanded)
      exact ⟨remote, settlements, rfl, hanswered,
        (settlementsValid_iff_exact (nodup_leaseGroups built).1 hsent).mp hvalid⟩

/-- A success-coded response is checked exactly if and only if it does not hide duplicates. -/
theorem settle_exact_iff {groups : List LeaseCounterGroup}
    (distinct : (leasedCounters groups).Nodup) {consumptions : List QuotaConsumption}
    {remote : List RemoteQuotaConsumption}
    (expanded : expandConsumptions groups consumptions = .ok remote)
    {roundTrip : QuotaSettleRequest → Except PoleError (Option QuotaSettleResponse)}
    {clientKey : UInt32} {leaseId : String} {sequence : Nat} {serverTimestamp : Int}
    {settlements : List QuotaSettlement}
    (answered : roundTrip ⟨clientKey, leaseId, remote, sequence, serverTimestamp⟩ =
      .ok (some ⟨rateLimitSuccessCode, settlements⟩)) :
    (settleLease roundTrip clientKey leaseId groups remote sequence serverTimestamp = .ok () ↔
      ExactlySettled groups remote settlements) ↔ ¬HidesDuplicates groups remote settlements := by
  have hsettle : settleLease roundTrip clientKey leaseId groups remote sequence serverTimestamp =
      .ok () ↔ ExactlySettled groups remote
        (lastOfKeys QuotaSettlement.counterKey settlements) := by
    have hsent := List.Perm.of_eq (keys_expandConsumptions expanded)
    rw [settleLease_ok_iff, answered, ← settlementsValid_iff_exact distinct hsent]
    simp
  rw [hsettle]
  constructor
  · rintro hiff ⟨hrepeated, hlast⟩
    exact hrepeated ((hiff.mp hlast).nodup distinct)
  · intro hhides
    constructor
    · intro hlast
      by_cases hnodup : (settlements.map QuotaSettlement.counterKey).Nodup
      · rwa [lastOfKeys_eq_self hnodup] at hlast
      · exact absurd ⟨hnodup, hlast⟩ hhides
    · intro settles
      rwa [lastOfKeys_eq_self (settles.nodup distinct)]

/-- Tokens and concurrent calls, counted by two counters each. -/
def mixedGroups : List LeaseCounterGroup :=
  [⟨.token, 10, .consumable, [7, 8]⟩, ⟨.concurrency, 3, .occupancy, [9, 11]⟩]

def mixedConsumptions : List RemoteQuotaConsumption := [⟨7, 4⟩, ⟨8, 4⟩, ⟨9, 2⟩, ⟨11, 2⟩]

def mixedSettlements : List QuotaSettlement := [⟨11, 2, 3⟩, ⟨8, 4, 6⟩, ⟨9, 2, 3⟩, ⟨7, 4, 6⟩]

def settleMixed : Except PoleError Unit :=
  settleLease (fun _ => .ok (some ⟨rateLimitSuccessCode, mixedSettlements⟩)) 1 "lease" mixedGroups
    mixedConsumptions 1 0

/-- A response without repetition is checked exactly. -/
theorem mixedGroups_exact :
    settleMixed = .ok () ∧ ExactlySettled mixedGroups mixedConsumptions mixedSettlements := by
  have expanded : expandConsumptions mixedGroups [⟨.concurrency, 2⟩, ⟨.token, 4⟩] =
      .ok mixedConsumptions := rfl
  have hexact : settleMixed = .ok () ↔
      ExactlySettled mixedGroups mixedConsumptions mixedSettlements := by
    apply (settle_exact_iff (by decide) expanded rfl).mpr
    intro hides
    exact hides.1 (by decide)
  have hsettled : settleMixed = .ok () := rfl
  exact ⟨hsettled, hexact.mp hsettled⟩

def tokenGroup : LeaseCounterGroup := ⟨.token, 10, .consumable, [7]⟩

/-- A wrong entry before the right one is accepted. -/
theorem tokenGroup_wrong_accepted :
    expandConsumptions [tokenGroup] [⟨.token, 4⟩] = .ok [⟨7, 4⟩] ∧
    settleLease (fun _ => .ok (some ⟨rateLimitSuccessCode, [⟨7, 9, 1⟩, ⟨7, 4, 6⟩]⟩)) 1 "lease"
      [tokenGroup] [⟨7, 4⟩] 1 0 = .ok () ∧
    ¬ExactlySettled [tokenGroup] [⟨7, 4⟩] [⟨7, 9, 1⟩, ⟨7, 4, 6⟩] := by
  refine ⟨rfl, rfl, ?_⟩
  intro settles
  exact absurd (settles.nodup (by decide)) (by decide)

end PoleClient.RateLimit
