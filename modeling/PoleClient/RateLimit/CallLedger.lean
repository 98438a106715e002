import PoleClient.RateLimit.CallEffects
import PoleClient.RateLimit.LedgerRun

/-! # The ledger within a call

While a call reserves and gives back, the leases from before the call only
expire, and the call's own leases are either held as their reservation made
them or settled with their initial consumption.
-/

namespace PoleClient.RateLimit

open Lib

/-! ## The invariant -/

def Ledger.ids (ledger : Ledger) : List String :=
  ledger.state.leases.keys ++ ledger.settled.map Prod.fst

/-- A time that the last reading of the clock, if there was one, has reached. -/
def Past (read : Option Nat) (time : Nat) : Prop :=
  ∃ now, read = some now ∧ time ≤ now

/-- A lease that the call still holds, with a backend to give it back by. -/
def Held (backends : List LocalLeaseBackend) (done : List QuotaSpec)
    (entry : String × LocalLeaseState) : Prop :=
  ∃ spec ∈ done, ∃ backend ∈ backends, backend.leaseId = entry.1 ∧
    quotaResource spec.trigger.resource = some backend.resource ∧ 0 < spec.amount.toNat ∧
    InitialLease spec.trigger spec.amount.toNat entry.2

def CompletedSettled (ledger : Ledger) : Prop :=
  ∀ leaseId, ledger.state.completed leaseId ≠ none → leaseId ∈ ledger.settled.map Prod.fst

/-- The ledger of a call against the ledger `start` before it. `read` is the last reading of
the clock, `backends` what is still to be given back, `done` what has been reserved. -/
structure CallInv (env : QuotaEnv) (req : QuotaRequest) (start : Ledger) (read : Option Nat)
    (backends : List LocalLeaseBackend) (done : List QuotaSpec) (ledger : Ledger) : Prop where
  issued : start.state.issued ≤ ledger.state.issued
  live : ∀ entry, entry.1 ∈ start.ids → (entry ∈ ledger.state.leases.rows ↔
    entry ∈ start.state.leases.rows ∧ ¬ Past read entry.2.expiresAt)
  settled : ∀ entry, entry.1 ∈ start.ids → (entry ∈ ledger.settled ↔
    entry ∈ start.settled ∨ (entry ∈ start.state.leases.rows ∧ Past read entry.2.expiresAt))
  ownLive : ∀ entry ∈ ledger.state.leases.rows, entry.1 ∉ start.ids →
    Held backends done entry
  ownSettled : ∀ entry ∈ ledger.settled, entry.1 ∉ start.ids →
    ∃ spec ∈ done, Configured spec.trigger ∧
      entry.2.consumedTotal = initialConsumedTotal spec.trigger
  numbered : ∀ backend ∈ backends, ∃ n, n < ledger.state.issued ∧ backend.leaseId = env.uuid n
  distinct : (backends.map LocalLeaseBackend.leaseId).Nodup
  backends : ∀ backend ∈ backends, backend.leaseId ∉ start.ids ∧
    ∃ total, consumptionFor (initialConsumptions req.quotas) backend.resource = .ok total ∧
      total.toNat = if backend.resource = .qps then 1 else 0
  windows : Aged (WindowKey env req) (read.getD 0) start.state.windows ledger.state.windows
  completed : CompletedSettled ledger

section Steps

variable {env : QuotaEnv} {req : QuotaRequest} {start ledger : Ledger} {read : Option Nat}
variable {backends : List LocalLeaseBackend} {done : List QuotaSpec} {now : Nat}

theorem Past.le {time : Nat} (h : Past read time) (later : ∀ last, read = some last → last ≤ now) :
    time ≤ now := by
  rcases h with ⟨last, hlast, hle⟩
  exact Nat.le_trans hle (later last hlast)

theorem past_some {time : Nat} : Past (some now) time ↔ time ≤ now := by
  constructor
  · intro h
    rcases h with ⟨last, hlast, hle⟩
    cases hlast
    exact hle
  · exact fun h => ⟨now, rfl, h⟩

def Ledger.cleaned (arith : CounterArith) (now : Nat) (ledger : Ledger) : Ledger where
  state := cleanupExpiredLocalLeases arith now ledger.state
  granted := ledger.granted
  settled := (expiredLeases now ledger.state).reverse ++ ledger.settled

theorem mem_expiredLeases {state : LocalQuotaState} {entry : String × LocalLeaseState} :
    entry ∈ expiredLeases now state ↔
      entry ∈ state.leases.rows ∧ entry.2.expiresAt ≤ now := by
  simp [expiredLeases]

theorem mem_ids_of_live {entry : String × LocalLeaseState}
    (h : entry ∈ ledger.state.leases.rows) : entry.1 ∈ ledger.ids :=
  List.mem_append_left _ (AList.fst_mem_keys h)

theorem mem_ids_of_settled {entry : String × LocalLeaseState} (h : entry ∈ ledger.settled) :
    entry.1 ∈ ledger.ids :=
  List.mem_append_right _ (List.mem_map.mpr ⟨entry, h, rfl⟩)

theorem callInv_start (completed : CompletedSettled start) :
    CallInv env req start none [] [] start := by
  have hpast : ∀ time, ¬ Past none time := by
    intro time h
    rcases h with ⟨now, hnow, -⟩
    cases hnow
  constructor
  · exact Nat.le_refl _
  · exact fun entry _ => ⟨fun h => ⟨h, hpast _⟩, fun h => h.1⟩
  · exact fun entry _ => ⟨fun h => .inl h, fun h => h.elim id fun h => absurd h.2 (hpast _)⟩
  · exact fun entry h hnot => absurd (mem_ids_of_live h) hnot
  · exact fun entry h hnot => absurd (mem_ids_of_settled h) hnot
  · exact fun backend h => absurd h List.not_mem_nil
  · exact List.nodup_nil
  · exact fun backend h => absurd h List.not_mem_nil
  · exact SameWindows.aged fun key => rfl
  · exact completed

theorem callInv_cleaned (inv : CallInv env req start read backends done ledger)
    (later : ∀ last, read = some last → last ≤ now) (arith : CounterArith) :
    CallInv env req start (some now) backends done (ledger.cleaned arith now) := by
  have hsettled : ∀ entry, entry ∈ (ledger.cleaned arith now).settled ↔
      (entry ∈ ledger.state.leases.rows ∧ entry.2.expiresAt ≤ now) ∨
        entry ∈ ledger.settled := by
    intro entry
    simp only [Ledger.cleaned, List.mem_append, List.mem_reverse, mem_expiredLeases]
  constructor
  · simpa [Ledger.cleaned] using inv.issued
  · intro entry hentry
    have hlive := inv.live entry hentry
    simp only [Ledger.cleaned, mem_cleanup, hlive, past_some]
    constructor
    · exact fun h => ⟨h.1.1, by omega⟩
    · exact fun h => ⟨⟨h.1, fun hpast => h.2 (hpast.le later)⟩, by omega⟩
  · intro entry hentry
    rw [hsettled, inv.live entry hentry, inv.settled entry hentry, past_some]
    constructor
    · rintro (⟨⟨hstart, -⟩, hle⟩ | hold | ⟨hstart, hpast⟩)
      · exact .inr ⟨hstart, hle⟩
      · exact .inl hold
      · exact .inr ⟨hstart, hpast.le later⟩
    · rintro (hold | ⟨hstart, hle⟩)
      · exact .inr (.inl hold)
      · by_cases hpast : Past read entry.2.expiresAt
        · exact .inr (.inr ⟨hstart, hpast⟩)
        · exact .inl ⟨⟨hstart, hpast⟩, hle⟩
  · exact fun entry hentry hnot => inv.ownLive entry (mem_cleanup.mp hentry).1 hnot
  · intro entry hentry hnot
    rcases (hsettled entry).mp hentry with ⟨hlive, -⟩ | hold
    · rcases inv.ownLive entry hlive hnot with ⟨spec, hspec, _, _, _, _, _, hinitial⟩
      exact ⟨spec, hspec, hinitial.configured, hinitial.consumedTotal⟩
    · exact inv.ownSettled entry hold hnot
  · simpa [Ledger.cleaned] using inv.numbered
  · exact inv.distinct
  · exact inv.backends
  · refine inv.windows.trans (sameWindows_cleanup arith now ledger.state).aged ?_
    cases read with
    | none => exact Nat.zero_le _
    | some last => exact later last rfl
  · intro leaseId h
    rcases List.mem_map.mp (inv.completed leaseId (cleanup_completed h)) with ⟨entry, hentry, hid⟩
    exact List.mem_map.mpr ⟨entry, (hsettled entry).mpr (.inr hentry), hid⟩

theorem callInv_done (inv : CallInv env req start read backends done ledger) (spec : QuotaSpec) :
    CallInv env req start read backends (done ++ [spec]) ledger where
  issued := inv.issued
  live := inv.live
  settled := inv.settled
  ownLive := by
    intro entry hentry hnot
    rcases inv.ownLive entry hentry hnot with ⟨spec, hspec, hrest⟩
    exact ⟨spec, List.mem_append_left _ hspec, hrest⟩
  ownSettled := by
    intro entry hentry hnot
    rcases inv.ownSettled entry hentry hnot with ⟨spec, hspec, hconsumed⟩
    exact ⟨spec, List.mem_append_left _ hspec, hconsumed⟩
  numbered := inv.numbered
  distinct := inv.distinct
  backends := inv.backends
  windows := inv.windows
  completed := inv.completed

theorem callInv_refused {after : LocalQuotaState} {granted : List String}
    (inv : CallInv env req start (some now) backends done ledger)
    (issued : ledger.state.issued ≤ after.issued) (leases : after.leases = ledger.state.leases)
    (completed : after.completed = ledger.state.completed)
    (windows : Aged (WindowKey env req) now ledger.state.windows after.windows) :
    CallInv env req start (some now) backends done ⟨after, granted, ledger.settled⟩ := by
  constructor
  · exact Nat.le_trans inv.issued issued
  · intro entry hentry
    simp only [leases]
    exact inv.live entry hentry
  · exact inv.settled
  · intro entry hentry hnot
    simp only [leases] at hentry
    exact inv.ownLive entry hentry hnot
  · exact inv.ownSettled
  · intro backend hbackend
    rcases inv.numbered backend hbackend with ⟨n, hn, huuid⟩
    exact ⟨n, Nat.lt_of_lt_of_le hn issued, huuid⟩
  · exact inv.distinct
  · exact inv.backends
  · exact inv.windows.trans windows (Nat.le_refl _)
  · intro leaseId h
    simp only [completed] at h
    exact inv.completed leaseId h

theorem callInv_granted {after : LocalQuotaState} {granted : List String} {spec : QuotaSpec}
    {backend : LocalLeaseBackend} {lease : LocalLeaseState}
    (inv : CallInv env req start (some now) backends done ledger)
    (unique : Function.Injective env.uuid) (issued : after.issued = ledger.state.issued + 1)
    (leases : after.leases = ledger.state.leases.insert backend.leaseId lease)
    (completed : after.completed = ledger.state.completed)
    (windows : Aged (WindowKey env req) now ledger.state.windows after.windows)
    (drawn : backend.leaseId = env.uuid ledger.state.issued)
    (own : backend.leaseId ∉ start.ids) (unused : backend.leaseId ∉ ledger.state.leases.keys)
    (resource : quotaResource spec.trigger.resource = some backend.resource)
    (positive : 0 < spec.amount.toNat)
    (consumption : ∃ total, consumptionFor (initialConsumptions req.quotas) backend.resource =
      .ok total ∧ total.toNat = if backend.resource = .qps then 1 else 0)
    (initial : InitialLease spec.trigger spec.amount.toNat lease) :
    CallInv env req start (some now) (backends ++ [backend]) (done ++ [spec])
      ⟨after, granted, ledger.settled⟩ := by
  have hmem : ∀ entry, entry ∈ after.leases.rows ↔
      entry = (backend.leaseId, lease) ∨ entry ∈ ledger.state.leases.rows := by
    intro entry
    rw [leases, AList.mem_rows_insert]
    constructor
    · exact fun h => h.imp id fun h => h.1
    · refine fun h => h.imp id fun h => ⟨h, fun hid => unused ?_⟩
      exact hid ▸ AList.fst_mem_keys h
  constructor
  · exact Nat.le_trans inv.issued (by simp only; omega)
  · intro entry hentry
    have hne : entry ≠ (backend.leaseId, lease) := fun h => own (by rw [h] at hentry; exact hentry)
    simp only [hmem, hne, false_or]
    exact inv.live entry hentry
  · exact inv.settled
  · intro entry hentry hnot
    rcases (hmem entry).mp hentry with rfl | hold
    · exact ⟨spec, by simp, backend, by simp, rfl, resource, positive, initial⟩
    · rcases inv.ownLive entry hold hnot with ⟨spec, hspec, backend, hbackend, hrest⟩
      exact ⟨spec, List.mem_append_left _ hspec, backend, List.mem_append_left _ hbackend, hrest⟩
  · intro entry hentry hnot
    rcases inv.ownSettled entry hentry hnot with ⟨spec, hspec, hconsumed⟩
    exact ⟨spec, List.mem_append_left _ hspec, hconsumed⟩
  · intro other hother
    rcases List.mem_append.mp hother with hold | hnew
    · rcases inv.numbered other hold with ⟨n, hn, huuid⟩
      exact ⟨n, by simp only; omega, huuid⟩
    · rw [List.mem_singleton.mp hnew]
      exact ⟨_, by simp only; omega, drawn⟩
  · rw [List.map_append, List.nodup_append]
    refine ⟨inv.distinct, List.nodup_singleton _, fun id hid other hother => ?_⟩
    rcases List.mem_map.mp hid with ⟨held, hheld, rfl⟩
    rcases inv.numbered held hheld with ⟨n, hn, huuid⟩
    rw [List.map_singleton, List.mem_singleton] at hother
    rw [hother, drawn, huuid]
    intro h
    have hsame : n = ledger.state.issued := unique h
    omega
  · intro other hother
    rcases List.mem_append.mp hother with hold | hnew
    · exact inv.backends other hold
    · rw [List.mem_singleton.mp hnew]
      exact ⟨own, consumption⟩
  · exact inv.windows.trans windows (Nat.le_refl _)
  · intro leaseId h
    simp only [completed] at h
    exact inv.completed leaseId h

/-- An own lease that is still live can be finished with its initial consumption. -/
theorem finishTarget_held {state : LocalQuotaState} {leaseId : String} {live : LocalLeaseState}
    {spec : QuotaSpec} (h : state.leases.lookup leaseId = some live)
    (uncompleted : state.completed leaseId = none) (positive : 0 < spec.amount.toNat)
    (initial : InitialLease spec.trigger spec.amount.toNat live) :
    finishTarget state leaseId (initialConsumedTotal spec.trigger) 1 =
      .ok (some { live with consumedTotal := initialConsumedTotal spec.trigger }) := by
  have hinitial : initialConsumedTotal spec.trigger ≤ 1 := by
    unfold initialConsumedTotal
    split <;> omega
  have hsequence : ¬ 1 ≠ min (live.sequence + 1) u64Max := by
    rw [initial.sequence]
    decide
  have hinside : ¬ (initialConsumedTotal spec.trigger < live.consumedTotal ∨
      initialConsumedTotal spec.trigger > live.reservedAmount) := by
    rw [initial.consumedTotal, initial.reservedAmount]
    omega
  unfold finishTarget validateLocalOperation
  rw [uncompleted, h]
  simp only [Option.any_none, Bool.false_eq_true, if_false, if_neg hsequence, if_neg hinside]

theorem initialConsumedTotal_eq {trigger : LimitTrigger} {resource : QuotaResource}
    (h : quotaResource trigger.resource = some resource) :
    initialConsumedTotal trigger = if resource = .qps then 1 else 0 := by
  unfold initialConsumedTotal
  cases hkind : trigger.resource with
  | qps | token | concurrency =>
      rw [hkind] at h
      cases h
      rfl
  | other =>
      rw [hkind] at h
      cases h

section Finish

variable {after : LocalQuotaState} {granted : List String} {backend : LocalLeaseBackend}
variable {total : Nat} {entry : String × LocalLeaseState}

/-- A lease still live under the backend's identifier is the one that was reserved. -/
theorem CallInv.finishTarget_live
    (inv : CallInv env req start (some now) (backend :: backends) done ledger)
    (htotal : total = if backend.resource = .qps then 1 else 0)
    (uncompleted : backend.leaseId ∈ ledger.state.leases.keys →
      ledger.state.completed backend.leaseId = none)
    {live : LocalLeaseState} (hlive : (backend.leaseId, live) ∈ ledger.state.leases.rows) :
    ∃ spec ∈ done, Configured spec.trigger ∧ total = initialConsumedTotal spec.trigger ∧
      finishTarget ledger.state backend.leaseId total 1 =
        .ok (some { live with consumedTotal := total }) := by
  have hown := (inv.backends backend List.mem_cons_self).1
  rcases inv.ownLive _ hlive hown with
    ⟨spec, hspec, other, hother, hid, hresource, hpositive, hinitial⟩
  have hsame : other = backend := by
    rcases List.mem_cons.mp hother with rfl | htail
    · rfl
    · exact absurd (List.mem_map.mpr ⟨other, htail, hid⟩) (List.nodup_cons.mp inv.distinct).1
  rw [hsame] at hresource
  have hinitialTotal : total = initialConsumedTotal spec.trigger :=
    htotal.trans (initialConsumedTotal_eq hresource).symm
  refine ⟨spec, hspec, hinitial.configured, hinitialTotal, ?_⟩
  rw [hinitialTotal]
  exact finishTarget_held (AList.lookup_eq_some_iff.mpr hlive)
    (uncompleted (AList.fst_mem_keys hlive)) hpositive hinitial

theorem CallInv.mem_leases_finished
    (inv : CallInv env req start (some now) (backend :: backends) done ledger)
    (effect : FinishEffect backend.leaseId ledger.state after
      (finishTarget ledger.state backend.leaseId total 1))
    (htotal : total = if backend.resource = .qps then 1 else 0)
    (uncompleted : backend.leaseId ∈ ledger.state.leases.keys →
      ledger.state.completed backend.leaseId = none) :
    entry ∈ after.leases.rows ↔
      entry ∈ ledger.state.leases.rows ∧ entry.1 ≠ backend.leaseId := by
  by_cases htarget : ∃ lease, finishTarget ledger.state backend.leaseId total 1 = .ok (some lease)
  · rcases htarget with ⟨lease, htarget⟩
    rw [effect.removed lease htarget, AList.mem_rows_erase]
  · rw [effect.kept fun lease h => htarget ⟨lease, h⟩]
    refine ⟨fun h => ⟨h, fun hid => htarget ?_⟩, fun h => h.1⟩
    have hlive : (backend.leaseId, entry.2) ∈ ledger.state.leases.rows := by
      rw [← hid]
      exact h
    rcases inv.finishTarget_live htotal uncompleted hlive with ⟨spec, -, -, -, heq⟩
    exact ⟨_, heq⟩

theorem CallInv.mem_settled_finished
    (inv : CallInv env req start (some now) (backend :: backends) done ledger)
    (htotal : total = if backend.resource = .qps then 1 else 0)
    (uncompleted : backend.leaseId ∈ ledger.state.leases.keys →
      ledger.state.completed backend.leaseId = none)
    (hentry : entry ∈ (match finishTarget ledger.state backend.leaseId total 1 with
      | .ok (some lease) => [(backend.leaseId, lease)]
      | _ => []) ++ ledger.settled) :
    entry ∈ ledger.settled ∨ (entry.1 = backend.leaseId ∧
      ∃ spec ∈ done, Configured spec.trigger ∧
        entry.2.consumedTotal = initialConsumedTotal spec.trigger) := by
  rcases List.mem_append.mp hentry with hnew | hold
  · cases htarget : finishTarget ledger.state backend.leaseId total 1 with
    | error err => simp [htarget] at hnew
    | ok target =>
        cases target with
        | none => simp [htarget] at hnew
        | some lease =>
            simp only [htarget, List.mem_singleton] at hnew
            rcases finishTarget_some htarget with ⟨live, hlookup, -, rfl⟩
            rcases inv.finishTarget_live htotal uncompleted
              (AList.lookup_eq_some_iff.mp hlookup) with ⟨spec, hspec, hconfigured, htotal, -⟩
            rw [hnew]
            exact .inr ⟨rfl, spec, hspec, hconfigured, htotal⟩
  · exact .inl hold

theorem callInv_finished
    (inv : CallInv env req start (some now) (backend :: backends) done ledger)
    (effect : FinishEffect backend.leaseId ledger.state after
      (finishTarget ledger.state backend.leaseId total 1))
    (htotal : total = if backend.resource = .qps then 1 else 0)
    (uncompleted : backend.leaseId ∈ ledger.state.leases.keys →
      ledger.state.completed backend.leaseId = none) :
    CallInv env req start (some now) backends done
      ⟨after, granted, (match finishTarget ledger.state backend.leaseId total 1 with
        | .ok (some lease) => [(backend.leaseId, lease)]
        | _ => []) ++ ledger.settled⟩ := by
  have hown := (inv.backends backend List.mem_cons_self).1
  have hleases : ∀ entry, entry ∈ after.leases.rows ↔
      entry ∈ ledger.state.leases.rows ∧ entry.1 ≠ backend.leaseId :=
    fun _ => inv.mem_leases_finished effect htotal uncompleted
  constructor
  · simpa only [effect.issued] using inv.issued
  · intro entry hentry
    have hne : entry.1 ≠ backend.leaseId := fun h => hown (h ▸ hentry)
    simp only [hleases, hne, ne_eq, not_false_eq_true, and_true]
    exact inv.live entry hentry
  · intro entry hentry
    rw [← inv.settled entry hentry]
    constructor
    · intro h
      rcases inv.mem_settled_finished htotal uncompleted h with hold | ⟨hid, -⟩
      · exact hold
      · exact absurd (hid ▸ hentry) hown
    · exact fun h => List.mem_append_right _ h
  · intro entry hentry hnot
    rcases (hleases entry).mp hentry with ⟨hlive, hne⟩
    rcases inv.ownLive entry hlive hnot with ⟨spec, hspec, other, hother, hid, hrest⟩
    rcases List.mem_cons.mp hother with rfl | htail
    · exact absurd hid.symm hne
    · exact ⟨spec, hspec, other, htail, hid, hrest⟩
  · intro entry hentry hnot
    rcases inv.mem_settled_finished htotal uncompleted hentry with hold | ⟨-, hspec⟩
    · exact inv.ownSettled entry hold hnot
    · exact hspec
  · intro other hother
    simpa only [effect.issued] using inv.numbered other (List.mem_cons_of_mem _ hother)
  · exact (List.nodup_cons.mp inv.distinct).2
  · exact fun other hother => inv.backends other (List.mem_cons_of_mem _ hother)
  · exact inv.windows.trans effect.windows.aged (Nat.le_refl _)
  · intro leaseId h
    rw [List.map_append, List.mem_append]
    rcases effect.completed leaseId h with hold | ⟨hid, lease, htarget⟩
    · exact .inr (inv.completed leaseId hold)
    · rw [htarget, hid]
      exact .inl (by simp)

end Finish

end Steps

end PoleClient.RateLimit
