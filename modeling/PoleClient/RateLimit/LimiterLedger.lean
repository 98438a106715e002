import PoleClient.RateLimit.LimiterChanges

/-! # The ledger of the limiter

On each counter the leases hold what they have reserved, and what was settled is
charged, up to the total that the counter was handed out with. Requests that name
each counter once keep the books; a settlement of less than was reserved on each
counter of its lease cannot panic.
-/

namespace PoleClient.RateLimit

open Lib

/-! ## What a request does -/

/-- What a settlement leaves of the limiter, and the leases it makes it forget. -/
inductive SettleOutcome (s : ServerState) (settle : QuotaSettleRequest) :
    ServerState → List ServerLease → Prop where
  | unchanged : SettleOutcome s settle s []
  | forgotten (lease : ServerLease) (held : s.leases.lookup settle.leaseId = some lease) :
      SettleOutcome s settle { s with leases := s.leases.erase settle.leaseId } [lease]
  | settled (lease : ServerLease) (held : s.leases.lookup settle.leaseId = some lease)
      (unsettled : s.settled.lookup settle.leaseId = none)
      (consumed : Table UInt32 UInt32) (counters : Table UInt32 CounterState)
      (settlements : List QuotaSettlement)
      (counted : settleCounters consumed s.counters lease.reservations.rows =
        some (counters, settlements)) :
      SettleOutcome s settle
        { s with
          counters := counters
          leases := s.leases.erase settle.leaseId
          settled := s.settled.insert settle.leaseId settlements } []

section Outcomes

variable {s t : ServerState}

theorem handleInit_cases {totals : List QuotaTotal} {response : RateLimitInitResponse}
    (h : s.handleInit totals = some (t, response)) :
    s.firstCounterKey + totals.length ≤ 2 ^ 32 ∧
      t = { s with
        counters := (countersFrom s.firstCounterKey totals).foldl
          (fun t e => t.insert e.1 e.2) s.counters } := by
  unfold ServerState.handleInit at h
  simp only at h
  by_cases hroom : s.firstCounterKey < 2 ^ 32 ∧ s.firstCounterKey + totals.length ≤ 2 ^ 32
  · rw [if_pos hroom] at h
    cases h
    exact ⟨hroom.2, rfl⟩
  · rw [if_neg hroom] at h
    cases h

theorem handleReserve_cases {reservations : List QuotaReservation}
    {response : QuotaReserveResponse}
    (h : s.handleReserve reservations = some (t, response)) :
    t = s ∧ response = ⟨rejectedCode, ""⟩ ∨
      ∃ counters, reservations.foldlM reserveCounter s.counters = some counters ∧
        reservations.all s.admits = true ∧ reservations.all (hasLeft counters) = true ∧
        t = { s with
          counters := counters
          leases := s.leases.insert (leaseIdOf (s.nextLease + 1)) (newLease reservations)
          nextLease := s.nextLease + 1 } ∧
        response = ⟨rateLimitSuccessCode, leaseIdOf (s.nextLease + 1)⟩ := by
  unfold ServerState.handleReserve at h
  by_cases hadmits : reservations.all s.admits = true
  · rw [if_pos hadmits] at h
    cases hcounters : reservations.foldlM reserveCounter s.counters with
    | none => simp only [hcounters, reduceCtorEq] at h
    | some counters =>
        simp only [hcounters] at h
        by_cases hleft : reservations.all (hasLeft counters) = true
        · rw [if_pos hleft] at h
          cases h
          exact .inr ⟨counters, rfl, hadmits, hleft, rfl, rfl⟩
        · rw [if_neg hleft] at h
          cases h
  · rw [if_neg hadmits] at h
    cases h
    exact .inl ⟨rfl, rfl⟩

theorem handleUpdate_cases (s : ServerState) (update : QuotaUpdateRequest) :
    (s.handleUpdate update).1 = s ∨
      ∃ lease, s.leases.lookup update.leaseId = some lease ∧ (s.handleUpdate update).1 =
        { s with leases := s.leases.modify update.leaseId fun lease => lease.update update } := by
  unfold ServerState.handleUpdate
  cases hlookup : s.leases.lookup update.leaseId with
  | none => exact .inl rfl
  | some lease =>
      by_cases haccepts : lease.accepts update = true
      · dsimp only
        rw [if_pos haccepts]
        exact .inr ⟨lease, rfl, rfl⟩
      · dsimp only
        rw [if_neg haccepts]
        exact .inl rfl

theorem settleOutcome_of_handle {settle : QuotaSettleRequest}
    (h : s.handleLease (.settle settle) = some t) :
    SettleOutcome s settle t (s.forfeited (.settle settle)) := by
  unfold ServerState.handleLease ServerState.handleSettle at h
  unfold ServerState.forfeited
  cases hsettled : s.settled.lookup settle.leaseId with
  | some previous =>
      simp only [hsettled] at h ⊢
      cases h
      exact .unchanged
  | none =>
      cases hlookup : s.leases.lookup settle.leaseId with
      | none =>
          simp only [hsettled, hlookup] at h ⊢
          cases h
          exact .unchanged
      | some lease =>
          simp only [hsettled, hlookup] at h ⊢
          by_cases hsequence : settle.sequence ≠ lease.sequence + 1
          · rw [if_pos hsequence] at h ⊢
            cases h
            exact .forgotten lease hlookup
          · rw [if_neg hsequence] at h ⊢
            cases hcounters : settleCounters (Table.collect RemoteQuotaConsumption.counterKey
                RemoteQuotaConsumption.consumedTotal settle.consumptions) s.counters
                lease.reservations.rows with
            | none => simp only [hcounters, Option.map_none, reduceCtorEq] at h
            | some result =>
                simp only [hcounters] at h
                cases h
                exact .settled lease hlookup hsettled _ _ _ hcounters

end Outcomes

/-! ## The books -/

/-- On every counter the leases that are held or forfeited have what is reserved, what was settled
is charged, and both are within the total. -/
structure Books (s : ServerState) (forfeits : List ServerLease) : Prop where
  fresh : ∀ key ∈ s.counters.keys, key.toNat < s.firstCounterKey
  reserved : ∀ key counter, s.counters.lookup key = some counter → counter.reserved =
    s.leases.sum (ServerLease.held key) + (forfeits.map (ServerLease.held key)).sum
  committed : ∀ key counter, s.counters.lookup key = some counter →
    counter.committed = s.settled.sum (charged counter.accounting key)
  within : ∀ key counter, s.counters.lookup key = some counter →
    counter.committed + counter.reserved ≤ counter.maxAmount.toNat
  held : ∀ lease, ((∃ leaseId, s.leases.lookup leaseId = some lease) ∨ lease ∈ forfeits) →
    ∀ key ∈ lease.reservations.keys, key ∈ s.counters.keys
  settled : ∀ leaseId settlements, s.settled.lookup leaseId = some settlements →
    ∀ settlement ∈ settlements, settlement.counterKey ∈ s.counters.keys
  numbered : ∀ leaseId, leaseId ∈ s.leases.keys ∨ leaseId ∈ s.settled.keys →
    ∃ number ≤ s.nextLease, leaseId = leaseIdOf number

theorem books_new : Books .new [] := by
  constructor
  · exact fun _ h => absurd h List.not_mem_nil
  · exact fun _ _ h => by cases h
  · exact fun _ _ h => by cases h
  · exact fun _ _ h => by cases h
  · rintro lease (⟨leaseId, h⟩ | h)
    · cases h
    · cases h
  · exact fun _ _ h => by cases h
  · rintro leaseId (h | h)
    · cases h
    · cases h

section Books

variable {s : ServerState} {forfeits : List ServerLease}

/-! ### Init -/

theorem countersFrom_spec {next : Nat} {totals : List QuotaTotal}
    (fits : next + totals.length ≤ 2 ^ 32) :
    ((countersFrom next totals).map Prod.fst).Nodup ∧
      (countersFrom next totals).length = totals.length ∧
      ∀ entry ∈ countersFrom next totals, next ≤ entry.1.toNat ∧
        entry.1.toNat < next + totals.length ∧ entry.2.committed = 0 ∧ entry.2.reserved = 0 ∧
        ∃ total ∈ totals, entry.2.maxAmount = total.maxAmount := by
  induction totals generalizing next with
  | nil => exact ⟨List.nodup_nil, rfl, fun _ h => absurd h List.not_mem_nil⟩
  | cons total totals ih =>
      rw [List.length_cons] at fits ⊢
      obtain ⟨hnodup, hlength, hentries⟩ := @ih (next + 1) (by omega)
      have hfirst : (UInt32.ofNat next).toNat = next :=
        UInt32.toNat_ofNat_of_lt' (by simp only [UInt32.size]; omega)
      refine ⟨List.nodup_cons.mpr ⟨fun hmem => ?_, hnodup⟩, ?_, ?_⟩
      · obtain ⟨entry, hentry, heq⟩ := List.mem_map.mp hmem
        have hle := (hentries entry hentry).1
        rw [heq] at hle
        simp only [hfirst] at hle
        omega
      · rw [countersFrom, List.length_cons, hlength]
      · intro entry hentry
        rcases List.mem_cons.mp hentry with rfl | hrest
        · simp only [hfirst]
          exact ⟨Nat.le_refl _, by omega, trivial, trivial, total, List.mem_cons_self, rfl⟩
        · obtain ⟨hlow, hhigh, hcommitted, hreserved, other, hother, hmax⟩ := hentries entry hrest
          exact ⟨by omega, by omega, hcommitted, hreserved, other,
            List.mem_cons_of_mem _ hother, hmax⟩

theorem held_of_not_mem {lease : ServerLease} {key : UInt32}
    (h : key ∉ lease.reservations.keys) : lease.held key = 0 := by
  rw [← AList.map_fst_rows] at h
  exact amountAt_of_not_mem h

theorem Books.unknown (books : Books s forfeits) {key : UInt32} (h : key ∉ s.counters.keys) :
    s.leases.sum (ServerLease.held key) + (forfeits.map (ServerLease.held key)).sum = 0 ∧
      ∀ accounting, s.settled.sum (charged accounting key) = 0 := by
  have hleases : s.leases.sum (ServerLease.held key) = 0 := by
    apply AList.sum_eq_zero
    intro entry hentry
    apply held_of_not_mem
    exact fun hmem => h (books.held entry.2
      (.inl ⟨entry.1, AList.lookup_eq_some_iff.mpr hentry⟩) key hmem)
  have hforfeits : (forfeits.map (ServerLease.held key)).sum = 0 := by
    apply List.sum_eq_zero
    intro amount hamount
    obtain ⟨lease, hlease, rfl⟩ := List.mem_map.mp hamount
    exact held_of_not_mem fun hmem => h (books.held lease (.inr hlease) key hmem)
  refine ⟨by rw [hleases, hforfeits], fun accounting => ?_⟩
  apply AList.sum_eq_zero
  intro entry hentry
  apply charged_of_not_mem
  intro hmem
  obtain ⟨settlement, hsettlement, rfl⟩ := List.mem_map.mp hmem
  exact h (books.settled entry.1 entry.2 (AList.lookup_eq_some_iff.mpr hentry) settlement
    hsettlement)

theorem countersFrom_added {counters : Table UInt32 CounterState} {next : Nat}
    {totals : List QuotaTotal} (fits : next + totals.length ≤ 2 ^ 32)
    (below : ∀ key ∈ counters.keys, key.toNat < next) :
    let after := (countersFrom next totals).foldl (fun t e => t.insert e.1 e.2) counters
    after.rows.length = counters.rows.length + totals.length ∧
      (∀ key counter, after.lookup key = some counter → counters.lookup key = some counter ∨
        key ∉ counters.keys ∧ (key, counter) ∈ countersFrom next totals) ∧
      ∀ key ∈ counters.keys, key ∈ after.keys := by
  intro after
  obtain ⟨hnodup, hcount, hentries⟩ := countersFrom_spec fits
  have hfresh : ∀ entry ∈ countersFrom next totals, entry.1 ∉ counters.keys := by
    intro entry hentry hmem
    have hlow := (hentries entry hentry).1
    have hhigh := below entry.1 hmem
    omega
  refine ⟨?_, ?_, ?_⟩
  · rw [@Table.length_foldl_insert _ _ _ _ Prod.fst Prod.snd _ _ hnodup
      fun entry hentry => AList.lookup_eq_none.mpr (hfresh entry hentry), hcount]
  · intro key counter hcounter
    rw [Table.lookup_foldl_insert Prod.fst Prod.snd, lastOfKeys_eq_self hnodup] at hcounter
    rcases hcounter with ⟨entry, hentry, rfl, rfl⟩ | ⟨-, hold⟩
    · exact .inr ⟨hfresh entry hentry, hentry⟩
    · exact .inl hold
  · intro key hkey
    obtain ⟨counter, hcounter⟩ := AList.mem_keys_iff.mp hkey
    refine AList.mem_keys_iff.mpr ⟨counter, ?_⟩
    rw [Table.lookup_foldl_insert Prod.fst Prod.snd]
    refine .inr ⟨fun hmem => ?_, hcounter⟩
    obtain ⟨entry, hentry, rfl⟩ := List.mem_map.mp hmem
    exact hfresh entry hentry hkey

theorem books_handleInit (books : Books s forfeits) {totals : List QuotaTotal} {t : ServerState}
    {response : RateLimitInitResponse} (h : s.handleInit totals = some (t, response)) :
    Books t forfeits := by
  obtain ⟨fits, rfl⟩ := handleInit_cases h
  obtain ⟨-, -, hentries⟩ := countersFrom_spec fits
  obtain ⟨hlength, hlookup, hkeys⟩ := countersFrom_added fits books.fresh
  constructor
  · intro key hkey
    obtain ⟨counter, hcounter⟩ := AList.mem_keys_iff.mp hkey
    show key.toNat < 100 + _
    rw [hlength]
    rcases hlookup key counter hcounter with hold | ⟨-, hnew⟩
    · have hlow := books.fresh key (AList.mem_keys_iff.mpr ⟨counter, hold⟩)
      unfold ServerState.firstCounterKey at hlow
      omega
    · have hhigh := (hentries (key, counter) hnew).2.1
      unfold ServerState.firstCounterKey at hhigh
      simp only at hhigh
      omega
  · intro key counter hcounter
    rcases hlookup key counter hcounter with hold | ⟨hfresh, hnew⟩
    · exact books.reserved key counter hold
    · exact (hentries (key, counter) hnew).2.2.2.1.trans (books.unknown hfresh).1.symm
  · intro key counter hcounter
    rcases hlookup key counter hcounter with hold | ⟨hfresh, hnew⟩
    · exact books.committed key counter hold
    · exact (hentries (key, counter) hnew).2.2.1.trans ((books.unknown hfresh).2 _).symm
  · intro key counter hcounter
    rcases hlookup key counter hcounter with hold | ⟨-, hnew⟩
    · exact books.within key counter hold
    · obtain ⟨-, -, hcommitted, hreserved, -⟩ := hentries (key, counter) hnew
      simp only at hcommitted hreserved
      omega
  · exact fun lease hlease key hkey => hkeys key (books.held lease hlease key hkey)
  · exact fun leaseId settlements hsettled settlement hmem =>
      hkeys _ (books.settled leaseId settlements hsettled settlement hmem)
  · exact books.numbered

/-! ### Reserve -/

theorem leaseIdOf_injective : Function.Injective leaseIdOf := by
  intro first second h
  exact Text.toString_nat_inj (String.append_right_inj _ |>.mp h)

theorem Books.unused (books : Books s forfeits) :
    leaseIdOf (s.nextLease + 1) ∉ s.leases.keys ∧ leaseIdOf (s.nextLease + 1) ∉ s.settled.keys := by
  rw [← not_or]
  intro hused
  obtain ⟨number, hle, heq⟩ := books.numbered _ hused
  rw [← leaseIdOf_injective heq] at hle
  omega

theorem Books.fresh_of_keys (books : Books s forfeits) {counters : Table UInt32 CounterState}
    (keys : counters.keys = s.counters.keys) :
    ∀ key ∈ counters.keys, key.toNat < 100 + counters.rows.length := by
  intro key hkey
  rw [AList.length_rows, keys, ← AList.length_rows]
  exact books.fresh key (keys ▸ hkey)

theorem mem_keys_newLease {reservations : List QuotaReservation}
    (nodup : (reservations.map QuotaReservation.counterKey).Nodup) {key : UInt32}
    (h : key ∈ (newLease reservations).reservations.keys) :
    ∃ reservation ∈ reservations, reservation.counterKey = key := by
  obtain ⟨amount, hamount⟩ := AList.mem_keys_iff.mp h
  exact ⟨_, (lookup_newLease nodup).mp hamount, rfl⟩

theorem books_handleReserve (books : Books s forfeits) {reservations : List QuotaReservation}
    {t : ServerState} {response : QuotaReserveResponse}
    (nodup : (reservations.map QuotaReservation.counterKey).Nodup)
    (h : s.handleReserve reservations = some (t, response)) : Books t forfeits := by
  rcases handleReserve_cases h with ⟨rfl, -⟩ | ⟨counters, hcounters, hadmits, hleft, rfl, -⟩
  · exact books
  have changed := changed_reserveCounters nodup hcounters
  have hunused := AList.lookup_eq_none.mpr books.unused.1
  constructor
  · exact books.fresh_of_keys changed.keys
  · intro key counter hcounter
    obtain ⟨old, hold, -, -, -, hreserved⟩ := changed.counters key counter hcounter
    rw [hreserved, books.reserved key old hold, AList.sum_insert_of_none _ _ hunused,
      held_newLease nodup]
    omega
  · intro key counter hcounter
    obtain ⟨old, hold, -, haccounting, hcommitted, -⟩ := changed.counters key counter hcounter
    rw [hcommitted, haccounting]
    exact books.committed key old hold
  · intro key counter hcounter
    by_cases hkey : key ∈ reservations.map QuotaReservation.counterKey
    · -- the answer has the difference
      obtain ⟨reservation, hreservation, rfl⟩ := List.mem_map.mp hkey
      have hroom := List.all_eq_true.mp hleft reservation hreservation
      simp only [hasLeft, hcounter, decide_eq_true_eq] at hroom
      exact hroom
    · obtain ⟨old, hold, hmax, -, hcommitted, hreserved⟩ := changed.counters key counter hcounter
      rw [amountAt_of_not_mem (by rwa [List.map_map]), Nat.add_zero] at hreserved
      rw [hcommitted, hreserved, hmax]
      exact books.within key old hold
  · intro lease hlease key hkey
    rw [changed.keys]
    rcases hlease with ⟨leaseId, hlookup⟩ | hforfeit
    · rw [AList.lookup_insert_ite] at hlookup
      split at hlookup
      · cases hlookup
        obtain ⟨reservation, hreservation, rfl⟩ := mem_keys_newLease nodup hkey
        have hadmitted := List.all_eq_true.mp hadmits reservation hreservation
        unfold ServerState.admits at hadmitted
        cases hcounter : s.counters.lookup reservation.counterKey with
        | none => simp only [hcounter, Bool.false_eq_true] at hadmitted
        | some counter => exact AList.mem_keys_iff.mpr ⟨counter, hcounter⟩
      · exact books.held lease (.inl ⟨leaseId, hlookup⟩) key hkey
    · exact books.held lease (.inr hforfeit) key hkey
  · intro leaseId settlements hsettled settlement hmem
    rw [changed.keys]
    exact books.settled leaseId settlements hsettled settlement hmem
  · intro leaseId hmem
    rw [AList.keys_insert_of_none _ hunused, List.mem_cons] at hmem
    rcases hmem with (rfl | hlease) | hsettled
    · exact ⟨s.nextLease + 1, Nat.le_refl _, rfl⟩
    · obtain ⟨number, hle, heq⟩ := books.numbered leaseId (.inl hlease)
      exact ⟨number, Nat.le_succ_of_le hle, heq⟩
    · obtain ⟨number, hle, heq⟩ := books.numbered leaseId (.inr hsettled)
      exact ⟨number, Nat.le_succ_of_le hle, heq⟩

/-! ### Update and settle -/

theorem books_handleUpdate (books : Books s forfeits) (update : QuotaUpdateRequest) :
    Books (s.handleUpdate update).1 forfeits := by
  rcases handleUpdate_cases s update with hsame | ⟨lease, hlookup, hmodified⟩
  · rw [hsame]
    exact books
  rw [hmodified]
  constructor
  · exact books.fresh
  · intro key counter hcounter
    have hsum := AList.sum_modify_add (ServerLease.held key)
      (fun lease => lease.update update) hlookup
    have hheld : ServerLease.held key (lease.update update) = ServerLease.held key lease := rfl
    have hreserved := books.reserved key counter hcounter
    simp only at hsum ⊢
    omega
  · exact books.committed
  · exact books.within
  · intro other hother key hkey
    rcases hother with ⟨leaseId, hfound⟩ | hforfeit
    · rw [AList.lookup_modify] at hfound
      by_cases hid : leaseId = update.leaseId
      · rw [if_pos hid, hlookup] at hfound
        cases hfound
        exact books.held lease (.inl ⟨_, hlookup⟩) key hkey
      · rw [if_neg hid] at hfound
        exact books.held other (.inl ⟨leaseId, hfound⟩) key hkey
    · exact books.held other (.inr hforfeit) key hkey
  · exact books.settled
  · intro leaseId hmem
    rw [AList.keys_modify] at hmem
    exact books.numbered leaseId hmem

/-- A lease that is forgotten holds on to what it had reserved. -/
theorem books_forfeit (books : Books s forfeits) {leaseId : String} {lease : ServerLease}
    (h : s.leases.lookup leaseId = some lease) :
    Books { s with leases := s.leases.erase leaseId } (forfeits ++ [lease]) := by
  constructor
  · exact books.fresh
  · intro key counter hcounter
    have herased := AList.sum_erase_add (ServerLease.held key) h
    have hreserved := books.reserved key counter hcounter
    rw [List.map_append, List.sum_append, List.map_singleton, List.sum_singleton]
    simp only
    omega
  · exact books.committed
  · exact books.within
  · intro other hother key hkey
    rcases hother with ⟨id, hlookup⟩ | hforfeit
    · rw [AList.lookup_erase_ite] at hlookup
      split at hlookup
      · cases hlookup
      · exact books.held other (.inl ⟨id, hlookup⟩) key hkey
    · rcases List.mem_append.mp hforfeit with hold | hnew
      · exact books.held other (.inr hold) key hkey
      · rw [List.mem_singleton.mp hnew] at hkey
        exact books.held lease (.inl ⟨leaseId, h⟩) key hkey
  · exact books.settled
  · intro id hmem
    rw [AList.keys_erase] at hmem
    exact books.numbered id (hmem.imp_left List.mem_of_mem_erase)

theorem books_settled (books : Books s forfeits) {leaseId : String} {lease : ServerLease}
    {consumed : Table UInt32 UInt32} {counters : Table UInt32 CounterState}
    {settlements : List QuotaSettlement} (h : s.leases.lookup leaseId = some lease)
    (unsettled : s.settled.lookup leaseId = none)
    (hsettled : settleCounters consumed s.counters lease.reservations.rows =
      some (counters, settlements)) :
    Books { s with
      counters := counters
      leases := s.leases.erase leaseId
      settled := s.settled.insert leaseId settlements } forfeits := by
  obtain ⟨hkeys, changed⟩ := changed_settleCounters lease.reservations.nodup_fst_rows hsettled
  constructor
  · exact books.fresh_of_keys changed.keys
  · intro key counter hcounter
    obtain ⟨old, hold, -, -, hreserved, -⟩ := changed.counters key counter hcounter
    have herased := AList.sum_erase_add (ServerLease.held key) h
    have hheld : ServerLease.held key lease = amountAt lease.reservations.rows key := rfl
    have hbefore := books.reserved key old hold
    simp only
    omega
  · intro key counter hcounter
    obtain ⟨old, hold, -, haccounting, -, hcommitted, -⟩ := changed.counters key counter hcounter
    rw [hcommitted, haccounting, AList.sum_insert_of_none _ _ unsettled,
      books.committed key old hold, Nat.add_comm]
  · intro key counter hcounter
    obtain ⟨old, hold, hmax, -, hreserved, hcommitted, hle⟩ :=
      changed.counters key counter hcounter
    have hbefore := books.within key old hold
    rw [hmax]
    omega
  · intro other hother key hkey
    rw [changed.keys]
    rcases hother with ⟨id, hlookup⟩ | hforfeit
    · rw [AList.lookup_erase_ite] at hlookup
      split at hlookup
      · cases hlookup
      · exact books.held other (.inl ⟨id, hlookup⟩) key hkey
    · exact books.held other (.inr hforfeit) key hkey
  · intro id others hlookup settlement hmem
    rw [changed.keys]
    rw [AList.lookup_insert_ite] at hlookup
    split at hlookup
    · cases hlookup
      apply books.held lease (.inl ⟨leaseId, h⟩)
      have hkey := List.mem_map_of_mem (f := QuotaSettlement.counterKey) hmem
      rw [hkeys, AList.map_fst_rows] at hkey
      exact hkey
    · exact books.settled id others hlookup settlement hmem
  · intro id hmem
    rw [AList.keys_erase, AList.keys_insert_of_none _ unsettled, List.mem_cons] at hmem
    rcases hmem with hlease | rfl | hold
    · exact books.numbered id (.inl (List.mem_of_mem_erase hlease))
    · exact books.numbered _ (.inl (AList.mem_keys_iff.mpr ⟨lease, h⟩))
    · exact books.numbered id (.inr hold)

theorem books_handleLease (books : Books s forfeits) {request : LeaseRequest} {t : ServerState}
    (h : s.handleLease request = some t) : Books t (forfeits ++ s.forfeited request) := by
  cases request with
  | update update =>
      cases h
      rw [ServerState.forfeited, List.append_nil]
      exact books_handleUpdate books update
  | settle settle =>
      have outcome := settleOutcome_of_handle h
      generalize s.forfeited (.settle settle) = lost at outcome ⊢
      cases outcome with
      | unchanged =>
          rw [List.append_nil]
          exact books
      | forgotten lease held => exact books_forfeit books held
      | settled lease held unsettled consumed counters settlements counted =>
          rw [List.append_nil]
          exact books_settled books held unsettled counted

/-! ## What cannot panic -/

theorem settleCounter_some {consumed : Table UInt32 UInt32}
    {counters : Table UInt32 CounterState} {key amount total : UInt32} {counter : CounterState}
    (htotal : consumed.lookup key = some total) (hcounter : counters.lookup key = some counter)
    (le : total ≤ amount) (held : amount.toNat ≤ counter.reserved)
    (fits : counter.committed + amount.toNat ≤ CounterArith.u32Max) :
    ∃ f settlement,
      settleCounter consumed counters key amount = some (counters.modify key f, settlement) := by
  unfold settleCounter
  simp only [htotal, hcounter, if_neg (Nat.not_lt.mpr held)]
  cases counter.accounting with
  | occupancy => exact ⟨_, _, rfl⟩
  | consumable =>
      have hle := UInt32.le_iff_toNat_le.mp le
      have hfits : ¬ (CounterArith.u32Max < counter.committed + total.toNat ∨ amount < total) := by
        rw [not_or, UInt32.not_lt]
        exact ⟨by omega, le⟩
      simp only [if_neg hfits]
      exact ⟨_, _, rfl⟩

theorem settleCounters_some {consumed : Table UInt32 UInt32}
    {counters : Table UInt32 CounterState} {entries : List (UInt32 × UInt32)}
    (nodup : (entries.map Prod.fst).Nodup)
    (h : ∀ entry ∈ entries, ∃ total counter, consumed.lookup entry.1 = some total ∧
      total ≤ entry.2 ∧ counters.lookup entry.1 = some counter ∧
      entry.2.toNat ≤ counter.reserved ∧
      counter.committed + entry.2.toNat ≤ CounterArith.u32Max) :
    ∃ result, settleCounters consumed counters entries = some result := by
  induction entries generalizing counters with
  | nil => exact ⟨_, rfl⟩
  | cons entry entries ih =>
      obtain ⟨key, amount⟩ := entry
      obtain ⟨hnot, hnodup⟩ := List.nodup_cons.mp nodup
      obtain ⟨total, counter, htotal, hle, hcounter, hheld, hfits⟩ := h _ List.mem_cons_self
      obtain ⟨f, settlement, hone⟩ := settleCounter_some htotal hcounter hle hheld hfits
      have hrest : ∃ result, settleCounters consumed (counters.modify key f) entries =
          some result := by
        apply ih hnodup
        intro other hother
        have hne : other.1 ≠ key := fun heq => hnot (List.mem_map.mpr ⟨other, hother, heq⟩)
        rw [AList.lookup_modify, if_neg hne]
        exact h other (List.mem_cons_of_mem _ hother)
      obtain ⟨result, hresult⟩ := hrest
      rw [settleCounters]
      simp only [hone, hresult]
      exact ⟨_, rfl⟩

theorem reserveCounters_some {counters : Table UInt32 CounterState}
    {reservations : List QuotaReservation}
    (nodup : (reservations.map QuotaReservation.counterKey).Nodup)
    (h : ∀ reservation ∈ reservations, ∃ counter,
      counters.lookup reservation.counterKey = some counter ∧
      counter.reserved + reservation.amount.toNat ≤ CounterArith.u32Max) :
    ∃ after, reservations.foldlM reserveCounter counters = some after := by
  induction reservations generalizing counters with
  | nil => exact ⟨_, rfl⟩
  | cons reservation reservations ih =>
      obtain ⟨hnot, hnodup⟩ := List.nodup_cons.mp nodup
      obtain ⟨counter, hcounter, hfits⟩ := h _ List.mem_cons_self
      have hone : reserveCounter counters reservation =
          some (counters.modify reservation.counterKey fun counter =>
            { counter with reserved := counter.reserved + reservation.amount.toNat }) := by
        unfold reserveCounter
        simp only [hcounter, if_pos hfits]
      rw [List.foldlM_cons, hone]
      apply ih hnodup
      intro other hother
      have hne : other.counterKey ≠ reservation.counterKey := fun heq =>
        hnot (heq ▸ List.mem_map_of_mem hother)
      rw [AList.lookup_modify, if_neg hne]
      exact h other (List.mem_cons_of_mem _ hother)

/-- Where no total is the greatest word, an admitted reservation fits as it is. -/
theorem fits_of_admits {reservation : QuotaReservation}
    (small : ∀ key counter, s.counters.lookup key = some counter →
      counter.maxAmount.toNat < CounterArith.u32Max)
    (h : s.admits reservation = true) :
    ∃ counter, s.counters.lookup reservation.counterKey = some counter ∧
      counter.committed + counter.reserved + reservation.amount.toNat ≤
        counter.maxAmount.toNat := by
  unfold ServerState.admits at h
  cases hcounter : s.counters.lookup reservation.counterKey with
  | none => simp only [hcounter, Bool.false_eq_true] at h
  | some counter =>
      have hsmall := small _ counter hcounter
      simp only [hcounter, decide_eq_true_eq] at h
      simp only [CounterArith.u32] at h
      exact ⟨counter, rfl, by omega⟩

/-- What was admitted is reserved on every counter, and the rest of each counter is known. -/
theorem reserveCounters_of_fits {reservations : List QuotaReservation}
    (nodup : (reservations.map QuotaReservation.counterKey).Nodup)
    (small : ∀ key counter, s.counters.lookup key = some counter →
      counter.maxAmount.toNat < CounterArith.u32Max)
    (fits : ∀ reservation ∈ reservations, ∃ counter,
      s.counters.lookup reservation.counterKey = some counter ∧
      counter.committed + counter.reserved + reservation.amount.toNat ≤
        counter.maxAmount.toNat) :
    ∃ after, reservations.foldlM reserveCounter s.counters = some after ∧
      reservations.all (hasLeft after) = true := by
  have hreserved : ∃ after, reservations.foldlM reserveCounter s.counters = some after := by
    apply reserveCounters_some nodup
    intro reservation hreservation
    obtain ⟨counter, hcounter, hle⟩ := fits reservation hreservation
    have hsmall := small _ counter hcounter
    exact ⟨counter, hcounter, by omega⟩
  obtain ⟨after, hafter⟩ := hreserved
  have changed := changed_reserveCounters nodup hafter
  refine ⟨after, hafter, ?_⟩
  rw [List.all_eq_true]
  intro reservation hreservation
  obtain ⟨counter, hcounter, hle⟩ := fits reservation hreservation
  have hmem : reservation.counterKey ∈ after.keys := by
    rw [changed.keys]
    exact AList.mem_keys_iff.mpr ⟨counter, hcounter⟩
  obtain ⟨new, hnew⟩ := AList.mem_keys_iff.mp hmem
  obtain ⟨old, hold, hmax, -, hcommitted, hnewReserved⟩ := changed.counters _ new hnew
  obtain rfl := Option.some.inj (hcounter.symm.trans hold)
  rw [amountAt_of_mem (by rwa [List.map_map])
    (List.mem_map_of_mem (f := fun reservation : QuotaReservation =>
      (reservation.counterKey, reservation.amount)) hreservation)] at hnewReserved
  simp only [hasLeft, hnew, decide_eq_true_eq, hmax]
  omega

theorem handleReserve_some {reservations : List QuotaReservation}
    (nodup : (reservations.map QuotaReservation.counterKey).Nodup)
    (small : ∀ key counter, s.counters.lookup key = some counter →
      counter.maxAmount.toNat < CounterArith.u32Max) :
    ∃ result, s.handleReserve reservations = some result := by
  unfold ServerState.handleReserve
  by_cases hadmits : reservations.all s.admits = true
  · obtain ⟨after, hafter, hleft⟩ := reserveCounters_of_fits nodup small
      fun reservation hreservation =>
        fits_of_admits small (List.all_eq_true.mp hadmits reservation hreservation)
    rw [if_pos hadmits]
    simp only [hafter, if_pos hleft]
    exact ⟨_, rfl⟩
  · rw [if_neg hadmits]
    exact ⟨_, rfl⟩

theorem amountAt_le_sum {leases : Table String ServerLease} {leaseId : String}
    {lease : ServerLease} (h : leases.lookup leaseId = some lease) (key : UInt32) :
    ServerLease.held key lease ≤ leases.sum (ServerLease.held key) := by
  have herased := AList.sum_erase_add (ServerLease.held key) h
  omega

theorem settleCounters_of_held (books : Books s forfeits) {leaseId : String} {lease : ServerLease}
    (h : s.leases.lookup leaseId = some lease) {consumed : Table UInt32 UInt32}
    (lawful : ∀ key amount, lease.reservations.lookup key = some amount →
      ∃ total, consumed.lookup key = some total ∧ total ≤ amount) :
    ∃ result, settleCounters consumed s.counters lease.reservations.rows = some result := by
  apply settleCounters_some lease.reservations.nodup_fst_rows
  intro entry hentry
  have hamount : lease.reservations.lookup entry.1 = some entry.2 :=
    AList.lookup_eq_some_iff.mpr hentry
  obtain ⟨total, htotal, hle⟩ := lawful entry.1 entry.2 hamount
  obtain ⟨counter, hcounter⟩ := AList.mem_keys_iff.mp
    (books.held lease (.inl ⟨_, h⟩) entry.1 (AList.mem_keys_iff.mpr ⟨entry.2, hamount⟩))
  have hheld : ServerLease.held entry.1 lease = entry.2.toNat :=
    amountAt_of_mem lease.reservations.nodup_fst_rows hentry
  have hsum := amountAt_le_sum h entry.1
  have hreserved := books.reserved entry.1 counter hcounter
  have hwithin := books.within entry.1 counter hcounter
  have hmax : counter.maxAmount.toNat ≤ CounterArith.u32Max :=
    Nat.le_sub_one_of_lt counter.maxAmount.toNat_lt
  exact ⟨total, counter, htotal, hle, hcounter, by omega, by omega⟩

/-- A settlement of at most what the lease has reserved on each counter. -/
theorem handleSettle_some (books : Books s forfeits) {settle : QuotaSettleRequest}
    (lawful : ∀ lease, s.leases.lookup settle.leaseId = some lease →
      ∀ key amount, lease.reservations.lookup key = some amount →
        ∃ total, (Table.collect RemoteQuotaConsumption.counterKey
          RemoteQuotaConsumption.consumedTotal settle.consumptions).lookup key = some total ∧
          total ≤ amount) :
    ∃ result, s.handleSettle settle = some result := by
  unfold ServerState.handleSettle
  cases hsettled : s.settled.lookup settle.leaseId with
  | some previous => exact ⟨_, rfl⟩
  | none =>
      cases hlookup : s.leases.lookup settle.leaseId with
      | none => exact ⟨_, rfl⟩
      | some lease =>
          obtain ⟨result, hresult⟩ := settleCounters_of_held books hlookup (lawful lease hlookup)
          simp only
          by_cases hsequence : settle.sequence ≠ lease.sequence + 1
          · rw [if_pos hsequence]
            exact ⟨_, rfl⟩
          · rw [if_neg hsequence]
            simp only [hresult]
            exact ⟨_, rfl⟩

end Books

/-! ## Every run -/

theorem books_handle {s t : Limiter} {request : LimiterRequest} (books : Books s.server s.forfeits)
    (distinct : ∀ reservations, request = .reserve reservations →
      (reservations.map QuotaReservation.counterKey).Nodup)
    (h : s.handle request = some t) : Books t.server t.forfeits := by
  cases request with
  | init totals =>
      obtain ⟨⟨server, response⟩, hinit, rfl⟩ := Option.map_eq_some_iff.mp h
      exact books_handleInit books hinit
  | reserve reservations =>
      obtain ⟨⟨server, response⟩, hreserve, rfl⟩ := Option.map_eq_some_iff.mp h
      exact books_handleReserve books (distinct reservations rfl) hreserve
  | lease request =>
      obtain ⟨server, hlease, rfl⟩ := Option.map_eq_some_iff.mp h
      exact books_handleLease books hlease

theorem books_run {s t : Limiter} {requests : List LimiterRequest}
    (books : Books s.server s.forfeits)
    (distinct : ∀ reservations, .reserve reservations ∈ requests →
      (reservations.map QuotaReservation.counterKey).Nodup)
    (h : requests.foldlM Limiter.handle s = some t) : Books t.server t.forfeits := by
  induction requests generalizing s with
  | nil =>
      cases h
      exact books
  | cons request requests ih =>
      rw [List.foldlM_cons] at h
      obtain ⟨middle, hfirst, hrest⟩ := Option.bind_eq_some_iff.mp h
      have hmiddle := books_handle books (fun reservations heq =>
        distinct reservations (heq ▸ List.mem_cons_self)) hfirst
      exact ih hmiddle (fun reservations hmem =>
        distinct reservations (List.mem_cons_of_mem _ hmem)) hrest

/-- Whatever requests come in, in any order and any number of times: the limiter never hands out
more of a counter than its total. What is reserved is what the leases hold, or held when they were
forgotten, and what is committed is what the settlements have consumed. -/
theorem limiter_never_oversells {requests : List LimiterRequest} {s : Limiter}
    (distinct : ∀ reservations, .reserve reservations ∈ requests →
      (reservations.map QuotaReservation.counterKey).Nodup)
    (h : requests.foldlM Limiter.handle .new = some s) (key : UInt32) (counter : CounterState)
    (hcounter : s.server.counters.lookup key = some counter) :
    counter.committed + counter.reserved ≤ counter.maxAmount.toNat ∧
      counter.reserved = s.server.leases.sum (ServerLease.held key) +
        (s.forfeits.map (ServerLease.held key)).sum ∧
      counter.committed = s.server.settled.sum (charged counter.accounting key) := by
  have books : Books s.server s.forfeits := books_run books_new distinct h
  exact ⟨books.within key counter hcounter, books.reserved key counter hcounter,
    books.committed key counter hcounter⟩

/-- Two leases of sixty tokens do not fit; when the first is settled at twenty, eighty do. The
settlement that comes twice counts once. -/
def settledBetween : List LimiterRequest :=
  [.init [⟨.whole, 1, 100, .consumable⟩], .reserve [⟨100, 60⟩], .reserve [⟨100, 60⟩],
    .lease (.settle ⟨7, "lease-1", [⟨100, 20⟩], 1, 0⟩), .reserve [⟨100, 80⟩],
    .lease (.settle ⟨7, "lease-1", [⟨100, 20⟩], 1, 0⟩)]

theorem settled_between_not_oversold :
    ∃ s : Limiter, settledBetween.foldlM Limiter.handle .new = some s ∧
      s.server.counters.lookup 100 = some ⟨100, .consumable, 20, 80⟩ ∧
      80 = s.server.leases.sum (ServerLease.held 100) +
        (s.forfeits.map (ServerLease.held 100)).sum := by
  have hrun : (settledBetween.foldlM Limiter.handle .new).map
      (fun s => s.server.counters.lookup 100) = some (some ⟨100, .consumable, 20, 80⟩) := by
    decide +kernel
  obtain ⟨s, hs, hcounter⟩ := Option.map_eq_some_iff.mp hrun
  have hdistinct : ∀ reservations, .reserve reservations ∈ settledBetween →
      (reservations.map QuotaReservation.counterKey).Nodup := by
    intro reservations hmem
    simp only [settledBetween, List.mem_cons, LimiterRequest.reserve.injEq, reduceCtorEq,
      List.not_mem_nil, false_or, or_false] at hmem
    rcases hmem with rfl | rfl | rfl
    all_goals exact List.nodup_singleton _
  exact ⟨s, hs, hcounter, (limiter_never_oversells hdistinct hs 100 _ hcounter).2.1⟩

end PoleClient.RateLimit
