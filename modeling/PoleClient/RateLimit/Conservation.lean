import PoleClient.RateLimit.Ledger
import PoleClient.RateLimit.Windows

/-! # Conservation of the quota ledger

With exact counters, settling a lease takes out of every total what the lease
put in, and a reservation puts in what its lease records. The sums over the
ledger therefore hold after every operation of every run.
-/

namespace PoleClient.RateLimit

open Lib

/-! ## One settlement -/

theorem settleWindows_apply (lease : LocalLeaseState)
    (reservations : List LocalWindowReservation) (windows : String → Option QuotaWindow)
    (key : String) :
    reservations.foldl (settleWindow .exact lease) windows key =
      (windows key).map fun window => { window with
        reserved := window.reserved -
          reservations.count ⟨key, window.generation⟩ * lease.reservedAmount
        committed := window.committed +
          reservations.count ⟨key, window.generation⟩ * lease.consumedTotal } := by
  induction reservations generalizing windows with
  | nil => simp
  | cons r reservations ih =>
      rw [List.foldl_cons, ih, settleWindow_apply, Option.map_map]
      cases windows key with
      | none => rfl
      | some window =>
          by_cases hr : r = ⟨key, window.generation⟩
          · have hreserved : ∀ n,
                window.reserved - lease.reservedAmount - n * lease.reservedAmount =
                  window.reserved - (n + 1) * lease.reservedAmount := by
              intro n
              rw [Nat.succ_mul]
              omega
            have hcommitted : ∀ n, window.committed + lease.consumedTotal +
                n * lease.consumedTotal = window.committed + (n + 1) * lease.consumedTotal := by
              intro n
              rw [Nat.succ_mul]
              omega
            simp only [Option.map_some, Function.comp_apply, if_pos hr,
              CounterArith.exact_saturatingAdd, hreserved, hcommitted]
            rw [hr, List.count_cons_self]
          · simp only [Option.map_some, Function.comp_apply, if_neg hr]
            rw [List.count_cons_of_ne hr]

section Settlement

variable {arith : CounterArith} {state : LocalQuotaState} {leaseId : String}
variable {lease : LocalLeaseState}

@[simp] theorem removeAndSettle_leases :
    (removeAndSettle arith state leaseId lease).leases = state.leases.erase leaseId := by
  unfold removeAndSettle settleLocalLease
  split <;> rfl

@[simp] theorem removeAndSettle_issued :
    (removeAndSettle arith state leaseId lease).issued = state.issued := by
  unfold removeAndSettle settleLocalLease
  split <;> rfl

@[simp] theorem removeAndSettle_completed :
    (removeAndSettle arith state leaseId lease).completed = state.completed := by
  unfold removeAndSettle settleLocalLease
  split <;> rfl

theorem removeAndSettle_windows (key : String) :
    (removeAndSettle .exact state leaseId lease).windows key =
      (state.windows key).map fun window => { window with
        reserved := window.reserved - bindings lease key window.generation * lease.reservedAmount
        committed := window.committed +
          bindings lease key window.generation * lease.consumedTotal } := by
  unfold removeAndSettle settleLocalLease bindings
  cases lease.accounting with
  | consumable => exact settleWindows_apply lease lease.windows state.windows key
  | occupancy => simp

theorem removeAndSettle_concurrency (key : String) :
    ((removeAndSettle arith state leaseId lease).concurrency key).getD 0 =
      (state.concurrency key).getD 0 - occupies lease key := by
  unfold removeAndSettle settleLocalLease occupies
  cases lease.accounting with
  | consumable => simp
  | occupancy =>
      simp only [settleOccupancy]
      cases hkey : lease.concurrencyKey with
      | none => simp
      | some held =>
          by_cases hheld : held = key
          · subst hheld
            cases hocc : state.concurrency held with
            | none => simp [hocc]
            | some occupied =>
                by_cases hzero : occupied - lease.reservedAmount = 0 <;> simp [hocc, hzero]
          · have hne : key ≠ held := fun h => hheld h.symm
            cases hocc : state.concurrency held <;> simp [hocc, hheld, hne]

end Settlement

theorem bindings_consumed (lease : LocalLeaseState) (consumedTotal : Nat) (key : String)
    (generation : Nat) :
    bindings { lease with consumedTotal } key generation = bindings lease key generation := rfl

/-! ## Settling keeps the ledger -/

section Keep

variable {env : QuotaEnv} {state : LocalQuotaState} {granted : List String}
variable {settled : List (String × LocalLeaseState)}

/-- A live lease moved to the settled ones, with any final consumption. -/
theorem ledgerInv_settle {leaseId : String} {live : LocalLeaseState}
    (inv : LedgerInv env ⟨state, granted, settled⟩) (h : state.leases.lookup leaseId = some live)
    (consumedTotal : Nat) :
    LedgerInv env ⟨removeAndSettle .exact state leaseId { live with consumedTotal }, granted,
      (leaseId, { live with consumedTotal }) :: settled⟩ := by
  have hmem : (leaseId, live) ∈ state.leases.rows := AList.lookup_eq_some_iff.mp h
  have hkey : leaseId ∈ state.leases.keys := AList.mem_keys_iff.mpr ⟨live, h⟩
  have hids : ∀ id, id ∈ (state.leases.erase leaseId).keys ++
      ((leaseId, { live with consumedTotal }) :: settled).map Prod.fst ↔
      id ∈ state.leases.keys ++ settled.map Prod.fst := by
    intro id
    by_cases hid : id = leaseId
    · subst hid
      simp [hkey]
    · simp [List.mem_erase_of_ne hid, hid]
  constructor
  · constructor
    · intro key window hwindow
      rw [removeAndSettle_windows] at hwindow
      rcases Option.map_eq_some_iff.mp hwindow with ⟨before, hbefore, rfl⟩
      have hsum := AList.sum_erase_add
        (fun lease => bindings lease key before.generation * lease.reservedAmount) h
      have hreserved := inv.reserved key before hbefore
      simp only [removeAndSettle_leases, bindings_consumed, reservedFor] at hreserved ⊢
      rw [hreserved, ← hsum, Nat.add_sub_cancel]
    · intro key window hwindow
      rw [removeAndSettle_windows] at hwindow
      rcases Option.map_eq_some_iff.mp hwindow with ⟨before, hbefore, rfl⟩
      have hcommitted := inv.committed key before hbefore
      simp only [committedFor, List.map_cons, List.sum_cons, bindings_consumed] at hcommitted ⊢
      rw [hcommitted, Nat.add_comm]
    · intro key
      have hsum := AList.sum_erase_add (fun lease => occupies lease key) h
      have hoccupancy := inv.occupancy key
      rw [removeAndSettle_concurrency]
      simp only [removeAndSettle_leases, occupancyFor] at hoccupancy ⊢
      have hsame : occupies { live with consumedTotal } key = occupies live key := rfl
      rw [hoccupancy, ← hsum, hsame, Nat.add_sub_cancel]
    · have honce := inv.once
      simp only [removeAndSettle_leases, List.map_cons]
      rw [AList.keys_erase]
      rw [List.nodup_append] at honce ⊢
      rcases honce with ⟨hlive, hsettled, hdisjoint⟩
      refine ⟨hlive.erase _, List.nodup_cons.mpr ⟨?_, hsettled⟩, ?_⟩
      · exact fun hid => hdisjoint leaseId hkey leaseId hid rfl
      · intro id hid other hother
        rcases hlive.mem_erase_iff.mp hid with ⟨hne, hid⟩
        rcases List.mem_cons.mp hother with rfl | hother
        · exact hne
        · exact hdisjoint id hid other hother
    · intro id
      rw [removeAndSettle_leases, hids]
      exact inv.granted id
  · constructor
    · rintro lease ⟨id, hlease⟩ key generation hbindings
      have hfrom : ∃ before, (∃ id, (id, before) ∈ state.leases.rows ++ settled) ∧
          bindings before key generation ≠ 0 := by
        simp only [removeAndSettle_leases, List.mem_append, List.mem_cons, AList.mem_rows_erase]
          at hlease
        rcases hlease with ⟨hlive, -⟩ | heq | hsettled
        · exact ⟨lease, ⟨id, List.mem_append_left _ hlive⟩, hbindings⟩
        · cases heq
          exact ⟨live, ⟨leaseId, List.mem_append_left _ hmem⟩, hbindings⟩
        · exact ⟨lease, ⟨id, List.mem_append_right _ hsettled⟩, hbindings⟩
      rcases hfrom with ⟨before, hbefore, hb⟩
      rcases inv.bound before hbefore key generation hb with ⟨window, hwindow, hle⟩
      have hafter := @removeAndSettle_windows state leaseId { live with consumedTotal } key
      rw [hwindow, Option.map_some] at hafter
      exact ⟨_, hafter, hle⟩
    · intro id hid
      rw [removeAndSettle_leases, hids] at hid
      rw [removeAndSettle_issued]
      exact inv.issued id hid

/-- Only windows, counters, leases and the identifiers in use matter to the ledger. -/
theorem ledgerInv_congr {other : LocalQuotaState} (inv : LedgerInv env ⟨state, granted, settled⟩)
    (windows : other.windows = state.windows)
    (concurrency : ∀ key, (other.concurrency key).getD 0 = (state.concurrency key).getD 0)
    (leases : other.leases = state.leases) (issued : state.issued ≤ other.issued) :
    LedgerInv env ⟨other, granted, settled⟩ := by
  rcases inv with ⟨⟨hreserved, hcommitted, hoccupancy, honce, hgranted⟩, ⟨hbound, hissued⟩⟩
  constructor
  · constructor
    · simpa only [windows, leases] using hreserved
    · simpa only [windows] using hcommitted
    · simpa only [concurrency, leases] using hoccupancy
    · simpa only [leases] using honce
    · simpa only [leases] using hgranted
  · constructor
    · simpa only [windows, leases] using hbound
    · intro id hid
      simp only [leases] at hid
      rcases hissued id hid with ⟨n, hn, huuid⟩
      exact ⟨n, Nat.lt_of_lt_of_le hn issued, huuid⟩

theorem live_after_settle {entry : String × LocalLeaseState}
    {entries : List (String × LocalLeaseState)} {lease : LocalLeaseState}
    (fresh : entry.1 ∉ entries.map Prod.fst)
    (live : ∀ other ∈ entry :: entries, state.leases.lookup other.1 = some other.2) :
    ∀ other ∈ entries, (removeAndSettle .exact state entry.1 lease).leases.lookup other.1 =
      some other.2 := by
  intro other hother
  have hne : other.1 ≠ entry.1 := fun h => fresh (h ▸ List.mem_map.mpr ⟨other, hother, rfl⟩)
  have hlive := live other (List.mem_cons_of_mem entry hother)
  rw [AList.lookup_eq_some_iff] at hlive ⊢
  rw [removeAndSettle_leases]
  exact AList.mem_rows_erase.mpr ⟨hlive, hne⟩

theorem ledgerInv_settleAll {entries : List (String × LocalLeaseState)}
    (inv : LedgerInv env ⟨state, granted, settled⟩) (distinct : (entries.map Prod.fst).Nodup)
    (live : ∀ entry ∈ entries, state.leases.lookup entry.1 = some entry.2) :
    LedgerInv env ⟨entries.foldl (fun state entry =>
      removeAndSettle .exact state entry.1 entry.2) state, granted,
      entries.reverse ++ settled⟩ := by
  induction entries generalizing state settled with
  | nil => exact inv
  | cons entry entries ih =>
      rcases List.nodup_cons.mp distinct with ⟨hnot, hdistinct⟩
      have hfirst := ledgerInv_settle inv (live entry List.mem_cons_self) entry.2.consumedTotal
      rw [List.foldl_cons, List.reverse_cons, List.append_assoc]
      exact ih hfirst hdistinct (live_after_settle hnot live)

theorem expiredLeases_lookup {now : Nat} {entry : String × LocalLeaseState}
    (h : entry ∈ expiredLeases now state) : state.leases.lookup entry.1 = some entry.2 :=
  AList.lookup_eq_some_iff.mpr (List.mem_filter.mp h).1

theorem expiredLeases_distinct (now : Nat) (state : LocalQuotaState) :
    ((expiredLeases now state).map Prod.fst).Nodup :=
  state.leases.nodup_fst_rows.sublist (List.filter_sublist.map Prod.fst)

theorem mem_settleAll {arith : CounterArith} {entries : List (String × LocalLeaseState)}
    {entry : String × LocalLeaseState} :
    entry ∈ (entries.foldl (fun state entry => removeAndSettle arith state entry.1 entry.2)
        state).leases.rows ↔
      entry ∈ state.leases.rows ∧ entry.1 ∉ entries.map Prod.fst := by
  induction entries generalizing state with
  | nil => simp
  | cons first entries ih =>
      rw [List.foldl_cons, ih, removeAndSettle_leases, AList.mem_rows_erase, List.map_cons,
        List.mem_cons, not_or, and_assoc]

/-- A cleanup leaves exactly the leases that expire later. -/
theorem mem_cleanup {arith : CounterArith} {now : Nat} {entry : String × LocalLeaseState} :
    entry ∈ (cleanupExpiredLocalLeases arith now state).leases.rows ↔
      entry ∈ state.leases.rows ∧ now < entry.2.expiresAt := by
  have hkept : entry ∈ (cleanupExpiredLocalLeases arith now state).leases.rows ↔ _ :=
    mem_settleAll
  rw [hkept]
  constructor
  · intro h
    refine ⟨h.1, Nat.lt_of_not_le fun hexpired => h.2 (List.mem_map.mpr ⟨entry, ?_, rfl⟩)⟩
    exact List.mem_filter.mpr ⟨h.1, decide_eq_true hexpired⟩
  · intro h
    refine ⟨h.1, fun hmem => ?_⟩
    rcases List.mem_map.mp hmem with ⟨other, hother, hid⟩
    have hlookup := expiredLeases_lookup hother
    rw [hid, AList.lookup_eq_some_iff.mpr h.1] at hlookup
    have hexpired := of_decide_eq_true (List.mem_filter.mp hother).2
    rw [← Option.some.inj hlookup] at hexpired
    omega

theorem ledgerInv_cleanup (inv : LedgerInv env ⟨state, granted, settled⟩) (now : Nat) :
    LedgerInv env ⟨cleanupExpiredLocalLeases .exact now state, granted,
      (expiredLeases now state).reverse ++ settled⟩ := by
  have hsettled := ledgerInv_settleAll inv (expiredLeases_distinct now state) fun entry h =>
    expiredLeases_lookup h
  exact ledgerInv_congr hsettled rfl (fun _ => rfl) rfl (Nat.le_refl _)

/-! ## Reserving keeps the ledger -/

/-- Windows that are kept, or started over in a later generation. -/
def Advanced (before after : String → Option QuotaWindow) : Prop :=
  ∀ key, after key = before key ∨ ∃ window, after key = some window ∧ window.reserved = 0 ∧
    window.committed = 0 ∧ ∀ old, before key = some old → old.generation < window.generation

theorem Advanced.trans {first second third : String → Option QuotaWindow}
    (h₁ : Advanced first second) (h₂ : Advanced second third) : Advanced first third := by
  intro key
  rcases h₂ key with hkept | ⟨window, hwindow, hreserved, hcommitted, hlater⟩
  · rw [hkept]
    exact h₁ key
  · refine .inr ⟨window, hwindow, hreserved, hcommitted, fun old hold => ?_⟩
    rcases h₁ key with hkept | ⟨middle, hmiddle, -, -, hearlier⟩
    · exact hlater old (hkept.trans hold)
    · exact Nat.lt_trans (hearlier old hold) (hlater middle hmiddle)

theorem advanced_currentWindow (now seconds : Nat) (windows : String → Option QuotaWindow)
    (key : String) :
    Advanced windows
      (Function.update windows key (some (currentWindow now seconds windows key))) := by
  intro other
  by_cases hkey : other = key
  · subst hkey
    rw [Function.update_self]
    unfold currentWindow
    cases hold : windows other with
    | none =>
        refine .inr ⟨_, rfl, ?_, ?_, fun old h => by cases h⟩
        · unfold QuotaWindow.rotate
          split <;> rfl
        · unfold QuotaWindow.rotate
          split <;> rfl
    | some old =>
        rw [Option.getD_some]
        unfold QuotaWindow.rotate
        split
        · refine .inr ⟨_, rfl, rfl, rfl, fun window h => ?_⟩
          cases h
          exact Nat.lt_succ_self _
        · exact .inl rfl
  · exact .inl (Function.update_of_ne hkey _ _)

theorem advanced_lookedUp (now : Nat) (keyOf : Nat → String)
    (windows : String → Option QuotaWindow) (limits : List Amount) :
    Advanced windows (lookedUp now keyOf windows limits) := by
  induction limits generalizing windows with
  | nil => exact fun key => .inl rfl
  | cons limit limits ih =>
      rw [lookedUp, List.foldl_cons]
      exact (advanced_currentWindow now _ windows _).trans (ih _)

/-- No lease is bound to a generation that has not been yet. -/
theorem sum_bindings_unborn {leases : Table String LocalLeaseState} {key : String}
    {generation : Nat} (h : ∀ entry ∈ leases.rows, bindings entry.2 key generation = 0) :
    reservedFor leases key generation = 0 :=
  AList.sum_eq_zero fun entry hentry => by rw [h entry hentry, Nat.zero_mul]

theorem committedFor_unborn {key : String} {generation : Nat}
    (h : ∀ entry ∈ settled, bindings entry.2 key generation = 0) :
    committedFor settled key generation = 0 := by
  have hzero : settled.map (fun entry => bindings entry.2 key generation *
      entry.2.consumedTotal) = settled.map fun _ => 0 :=
    List.map_congr_left fun entry hentry => by rw [h entry hentry, Nat.zero_mul]
  unfold committedFor
  rw [hzero]
  simp

theorem ledgerInv_advance (inv : LedgerInv env ⟨state, granted, settled⟩)
    {windows : String → Option QuotaWindow} (advanced : Advanced state.windows windows) :
    LedgerInv env ⟨{ state with windows }, granted, settled⟩ := by
  -- a lease bound to the new generation would be ahead of the old window
  have hunborn : ∀ key (window : QuotaWindow),
      (∀ old, state.windows key = some old → old.generation < window.generation) →
      ∀ entry ∈ state.leases.rows ++ settled,
        bindings entry.2 key window.generation = 0 := by
    intro key window hlater entry hentry
    apply Classical.byContradiction
    intro hbindings
    rcases inv.bound entry.2 ⟨entry.1, hentry⟩ key _ hbindings with ⟨old, hold, hle⟩
    have := hlater old hold
    omega
  constructor
  · refine ⟨?_, ?_, inv.occupancy, inv.once, inv.granted⟩
    · intro key window hwindow
      rcases advanced key with hkept | ⟨fresh, hfresh, hreserved, -, hlater⟩
      · exact inv.reserved key window (hkept.symm.trans hwindow)
      · obtain rfl : fresh = window := Option.some.inj (hfresh.symm.trans hwindow)
        rw [hreserved]
        exact (sum_bindings_unborn fun entry hentry =>
          hunborn key fresh hlater entry (List.mem_append_left _ hentry)).symm
    · intro key window hwindow
      rcases advanced key with hkept | ⟨fresh, hfresh, -, hcommitted, hlater⟩
      · exact inv.committed key window (hkept.symm.trans hwindow)
      · obtain rfl : fresh = window := Option.some.inj (hfresh.symm.trans hwindow)
        rw [hcommitted]
        exact (committedFor_unborn fun entry hentry =>
          hunborn key fresh hlater entry (List.mem_append_right _ hentry)).symm
  · refine ⟨?_, inv.issued⟩
    intro lease hlease key generation hbindings
    rcases inv.bound lease hlease key generation hbindings with ⟨old, hold, hle⟩
    rcases advanced key with hkept | ⟨fresh, hfresh, -, -, hlater⟩
    · exact ⟨old, hkept.trans hold, hle⟩
    · exact ⟨fresh, hfresh, Nat.le_trans hle (Nat.le_of_lt (hlater old hold))⟩

theorem ledgerInv_unused (inv : LedgerInv env ⟨state, granted, settled⟩)
    (unique : Function.Injective env.uuid) :
    env.uuid state.issued ∉ state.leases.keys ++ settled.map Prod.fst := by
  intro h
  rcases inv.issued _ h with ⟨n, hn, huuid⟩
  have hsame : state.issued = n := unique huuid
  simp only at hn
  omega

/-- A new lease under an unused identifier; the record of its grant comes with it. -/
theorem once_insert {leaseId : String} (lease : LocalLeaseState)
    (inv : LedgerInv env ⟨state, granted, settled⟩)
    (unused : leaseId ∉ state.leases.keys ++ settled.map Prod.fst) :
    ((state.leases.insert leaseId lease).keys ++ settled.map Prod.fst).Nodup ∧
      ∀ id, id ∈ leaseId :: granted ↔
        id ∈ (state.leases.insert leaseId lease).keys ++ settled.map Prod.fst := by
  have hlookup : state.leases.lookup leaseId = none :=
    AList.lookup_eq_none.mpr fun h => unused (List.mem_append_left _ h)
  rw [AList.keys_insert_of_none lease hlookup, List.cons_append]
  refine ⟨List.nodup_cons.mpr ⟨unused, inv.once⟩, fun id => ?_⟩
  rw [List.mem_cons, List.mem_cons]
  exact or_congr_right (inv.granted id)

theorem ledgerInv_reserve {windows : String → Option QuotaWindow} {n : Nat}
    {concurrency : String → Option Nat} {lease : LocalLeaseState}
    (inv : LedgerInv env ⟨state, granted, settled⟩) (hn : n < state.issued)
    (unused : env.uuid n ∉ state.leases.keys ++ settled.map Prod.fst)
    (charged : ∀ key, windows key = (state.windows key).map fun window => { window with
      reserved := window.reserved + bindings lease key window.generation * lease.reservedAmount })
    (occupied : ∀ key, (concurrency key).getD 0 =
      occupies lease key + (state.concurrency key).getD 0)
    (bound : ∀ key generation, bindings lease key generation ≠ 0 →
      ∃ window, state.windows key = some window ∧ generation ≤ window.generation) :
    LedgerInv env ⟨{ state with
      windows, concurrency, leases := state.leases.insert (env.uuid n) lease },
      env.uuid n :: granted, settled⟩ := by
  have hlookup : state.leases.lookup (env.uuid n) = none :=
    AList.lookup_eq_none.mpr fun h => unused (List.mem_append_left _ h)
  have honce := once_insert lease inv unused
  have hkeep : ∀ key generation,
      (∃ window, state.windows key = some window ∧ generation ≤ window.generation) →
      ∃ window, windows key = some window ∧ generation ≤ window.generation := by
    intro key generation h
    rcases h with ⟨window, hwindow, hle⟩
    have hafter := charged key
    rw [hwindow, Option.map_some] at hafter
    exact ⟨_, hafter, hle⟩
  constructor
  · refine ⟨?_, ?_, ?_, honce.1, honce.2⟩
    · intro key window hwindow
      rcases Option.map_eq_some_iff.mp ((charged key).symm.trans hwindow) with
        ⟨before, hbefore, rfl⟩
      have hreserved := inv.reserved key before hbefore
      simp only [reservedFor] at hreserved ⊢
      rw [AList.sum_insert_of_none _ _ hlookup, hreserved, Nat.add_comm]
    · intro key window hwindow
      rcases Option.map_eq_some_iff.mp ((charged key).symm.trans hwindow) with
        ⟨before, hbefore, rfl⟩
      exact inv.committed key before hbefore
    · intro key
      have hoccupancy := inv.occupancy key
      simp only [occupancyFor] at hoccupancy ⊢
      rw [AList.sum_insert_of_none _ _ hlookup, occupied, hoccupancy]
  · constructor
    · intro other hother key generation hbindings
      rcases hother with ⟨id, hid⟩
      apply hkeep
      rcases List.mem_append.mp hid with hlive | hsettled
      · rcases AList.mem_rows_insert.mp hlive with heq | ⟨hold, -⟩
        · cases heq
          exact bound key generation hbindings
        · exact inv.bound other ⟨id, List.mem_append_left _ hold⟩ key generation hbindings
      · exact inv.bound other ⟨id, List.mem_append_right _ hsettled⟩ key generation hbindings
    · intro id hid
      rcases List.mem_cons.mp ((honce.2 id).mpr hid) with rfl | hgranted
      · exact ⟨n, hn, rfl⟩
      · exact inv.issued id ((inv.granted id).mp hgranted)

end Keep

end PoleClient.RateLimit
