import Mathlib.Data.List.Induction
import PoleClient.RateLimit.LeaseWire

/-! # What a lease sends

The log replayed gives the state of the lease, so every request follows from the
ones before it: the confirmed ones number it and bound its totals from below, the
reservation from above. The server need not be trusted for that; what it answers
decides only what counts as confirmed.
-/

namespace PoleClient.RateLimit

open Lib

/-! ## What the log shows -/

def confirmedTotals (lease : QuotaLease) (log : List LeaseExchange) : List QuotaConsumption :=
  match (log.filter LeaseExchange.confirmed).getLast? with
  | some exchange => exchange.totals
  | none => lease.consumptions

/-- The server's answer repeats the update, or settles each counter. -/
def AnswersTo (backend : DistributedLeaseBackend) (request : LeaseRequest) : WireOutcome → Prop
  | .answered update settle =>
      match request with
      | .update sent => ∃ response, update = some response ∧
          response.code = rateLimitSuccessCode ∧ response.sequence = sent.sequence ∧
          response.consumptions.Perm sent.consumptions
      | .settle sent => ∃ settlements, settle = some ⟨rateLimitSuccessCode, settlements⟩ ∧
          ExactlySettled backend.groups sent.consumptions
            (lastOfKeys QuotaSettlement.counterKey settlements)
  | _ => False

/-- A request in view of those before it. -/
structure Orderly (lease : QuotaLease) (backend : DistributedLeaseBackend)
    (before : List LeaseExchange) (exchange : LeaseExchange) : Prop where
  leaseId : exchange.request.leaseId = backend.leaseId
  /-- the confirmed requests are numbered without gaps, and a retry keeps its number -/
  sequence : exchange.request.sequence = before.countP LeaseExchange.confirmed + 1
  /-- each leased counter once, and no other -/
  counters : exchange.request.consumptions.map RemoteQuotaConsumption.counterKey =
    leasedCounters backend.groups
  /-- within what was reserved -/
  reserved : ∀ new ∈ exchange.request.consumptions, ∃ group ∈ backend.groups,
    new.counterKey ∈ group.counterKeys ∧ new.consumedTotal ≤ group.amount
  /-- no total is below one that was confirmed -/
  grown : ∀ earlier ∈ before, earlier.confirmed = true →
    ∀ old ∈ earlier.request.consumptions, ∀ new ∈ exchange.request.consumptions,
      old.counterKey = new.counterKey → old.consumedTotal ≤ new.consumedTotal
  /-- nothing is sent after a confirmed settlement, or after the drop -/
  unclosed : ∀ earlier ∈ before, earlier.call ≠ none ∧
    ¬ (earlier.confirmed = true ∧ earlier.request.settles = true)
  /-- the drop settles what was confirmed last -/
  dropped : exchange.call = none → exchange.request.settles = true ∧
    exchange.totals = confirmedTotals lease before
  confirmed : exchange.confirmed = true → AnswersTo backend exchange.request exchange.outcome

/-- What the lease and its distributed backend are made of. -/
structure LeasedBy (lease : QuotaLease) (backend : DistributedLeaseBackend) : Prop where
  leased : .distributed ∈ lease.backends
  within : Within lease.reservations lease.consumptions
  distinct : (leasedCounters backend.groups).Nodup
  reserved : ∀ group ∈ backend.groups,
    amountOf lease.reservations group.resource = some group.amount

section Log

variable {lease : QuotaLease} {backend : DistributedLeaseBackend}
variable {log : List LeaseExchange} {exchange : LeaseExchange}

/-- The lease was open, and what it asked for is within its reservations and not lower. -/
theorem Made.asks (made : Made lease backend log exchange)
    (within : Within lease.reservations (replay lease log).consumptions) :
    (replay lease log).finished = false ∧
      exchange.request.sequence = (replay lease log).sequence + 1 ∧
      Within lease.reservations exchange.totals ∧
      Grown (replay lease log).consumptions exchange.totals := by
  cases hcall : exchange.call with
  | some call =>
      obtain ⟨accepts, hsequence⟩ :=
        @asked_some lease ⟨replay lease log, false, ⟨LocalQuotaState.empty, []⟩⟩ call _ _
          (made.calls call hcall).2
      obtain ⟨hwithin, hgrown⟩ := accepts.grown within
      exact ⟨accepts.unfinished, nextSequence_eq hsequence, hwithin, hgrown⟩
  | none =>
      have habandoned := (made.drops hcall).2.2
      unfold QuotaLease.abandoned at habandoned
      cases hfinished : (replay lease log).finished with
      | true => simp only [hfinished, if_true, reduceCtorEq] at habandoned
      | false =>
          simp only [hfinished, Bool.false_eq_true, if_false] at habandoned
          cases hsequence : nextSequence (replay lease log).sequence with
          | error err => simp only [hsequence, reduceCtorEq] at habandoned
          | ok sequence =>
              simp only [hsequence, Option.some.injEq, Prod.mk.injEq] at habandoned
              rw [← habandoned.1, ← habandoned.2]
              exact ⟨rfl, nextSequence_eq hsequence, within, Grown.refl _⟩

/-- The replayed state: within the reservations, as many confirmed steps as its sequence, and
nothing that was confirmed is above it. -/
structure Replayed (lease : QuotaLease) (log : List LeaseExchange) : Prop where
  within : Within lease.reservations (replay lease log).consumptions
  sequence : (replay lease log).sequence = log.countP LeaseExchange.confirmed
  totals : (replay lease log).consumptions = confirmedTotals lease log
  grown : ∀ earlier ∈ log, earlier.confirmed = true →
    Grown earlier.totals (replay lease log).consumptions
  finished : (replay lease log).finished = true ↔
    ∃ earlier ∈ log, earlier.confirmed = true ∧ earlier.request.settles = true

theorem replayed_nil (within : Within lease.reservations lease.consumptions) :
    Replayed lease [] := by
  refine ⟨within, rfl, rfl, fun _ h => absurd h List.not_mem_nil, ?_⟩
  simp [replay]

theorem mem_concat {earlier : LeaseExchange} :
    earlier ∈ log ++ [exchange] ↔ earlier ∈ log ∨ earlier = exchange := by
  rw [List.mem_append, List.mem_singleton]

theorem replayed_unconfirmed (before : Replayed lease log)
    (unfinished : (replay lease log).finished = false)
    (unconfirmed : exchange.confirmed = false) : Replayed lease (log ++ [exchange]) := by
  have hkept : replay lease (log ++ [exchange]) = replay lease log := by
    simp only [replay_append, LeaseExchange.apply, unconfirmed, Bool.false_eq_true, if_false]
  have hfilter : (log ++ [exchange]).filter LeaseExchange.confirmed =
      log.filter LeaseExchange.confirmed := by
    rw [List.filter_append, List.filter_singleton, unconfirmed]
    exact List.append_nil _
  -- the confirmed exchanges are those of before
  have hold : ∀ earlier ∈ log ++ [exchange], earlier.confirmed = true → earlier ∈ log := by
    intro earlier hmem hearlier
    rcases mem_concat.mp hmem with hmem | rfl
    · exact hmem
    · rw [unconfirmed] at hearlier
      cases hearlier
  constructor
  · rw [hkept]
    exact before.within
  · rw [hkept, before.sequence, List.countP_eq_length_filter, List.countP_eq_length_filter, hfilter]
  · rw [hkept, before.totals, confirmedTotals, confirmedTotals, hfilter]
  · intro earlier hmem hearlier
    rw [hkept]
    exact before.grown earlier (hold earlier hmem hearlier) hearlier
  · rw [hkept, unfinished]
    constructor
    · exact fun h => absurd h Bool.false_ne_true
    · rintro ⟨earlier, hmem, hearlier, hsettles⟩
      rw [← unfinished]
      exact before.finished.mpr ⟨earlier, hold earlier hmem hearlier, hearlier, hsettles⟩

theorem replayed_confirmed (before : Replayed lease log) (made : Made lease backend log exchange)
    (confirmed : exchange.confirmed = true) : Replayed lease (log ++ [exchange]) := by
  obtain ⟨hopen, hsequence, hwithin, hgrown⟩ := made.asks before.within
  have hreplay : replay lease (log ++ [exchange]) =
      ⟨exchange.totals, exchange.request.sequence, exchange.request.settles⟩ := by
    simp only [replay_append, LeaseExchange.apply, confirmed, if_true]
  have hfilter : (log ++ [exchange]).filter LeaseExchange.confirmed =
      log.filter LeaseExchange.confirmed ++ [exchange] := by
    rw [List.filter_append, List.filter_singleton, confirmed]
    rfl
  constructor
  · rw [hreplay]
    exact hwithin
  · rw [hreplay, hsequence, before.sequence, List.countP_eq_length_filter,
      List.countP_eq_length_filter, hfilter, List.length_append]
    rfl
  · rw [hreplay, confirmedTotals, hfilter, List.getLast?_concat]
  · intro earlier hmem hearlier
    rw [hreplay]
    rcases mem_concat.mp hmem with hold | rfl
    · exact (before.grown earlier hold hearlier).trans hgrown
    · exact Grown.refl _
  · rw [hreplay]
    constructor
    · exact fun h => ⟨exchange, mem_concat.mpr (.inr rfl), confirmed, h⟩
    · rintro ⟨earlier, hmem, hearlier, hsettles⟩
      rcases mem_concat.mp hmem with hold | rfl
      · rw [before.finished.mpr ⟨earlier, hold, hearlier, hsettles⟩] at hopen
        cases hopen
      · exact hsettles

theorem replayed_append (before : Replayed lease log) (made : Made lease backend log exchange) :
    Replayed lease (log ++ [exchange]) := by
  cases hconfirmed : exchange.confirmed with
  | false => exact replayed_unconfirmed before (made.asks before.within).1 hconfirmed
  | true => exact replayed_confirmed before made hconfirmed

theorem replayed_of_made (within : Within lease.reservations lease.consumptions)
    (made : EachEvent (Made lease backend) log) : Replayed lease log := by
  induction log using List.reverseRecOn with
  | nil => exact replayed_nil within
  | append_singleton log exchange ih =>
      obtain ⟨hlog, hlast⟩ := eachEvent_concat.mp made
      exact replayed_append (ih hlog) hlast

/-! ## Every request -/

theorem mem_expandConsumptions {groups : List LeaseCounterGroup}
    {consumptions : List QuotaConsumption} {remote : List RemoteQuotaConsumption}
    (h : expandConsumptions groups consumptions = .ok remote) :
    ∀ sent ∈ remote, ∃ group ∈ groups, sent.counterKey ∈ group.counterKeys ∧
      totalOf consumptions group.resource = some sent.consumedTotal := by
  induction groups generalizing remote with
  | nil =>
      cases h
      exact nofun
  | cons group groups ih =>
      rw [expandConsumptions] at h
      cases htotal : totalOf consumptions group.resource with
      | none =>
          simp only [htotal] at h
          cases h
      | some total =>
          simp only [htotal] at h
          cases hrest : expandConsumptions groups consumptions with
          | error err =>
              rw [hrest] at h
              cases h
          | ok rest =>
              rw [hrest] at h
              cases h
              intro sent hsent
              rcases List.mem_append.mp hsent with hfirst | hlater
              · obtain ⟨key, hkey, rfl⟩ := List.mem_map.mp hfirst
                exact ⟨group, List.mem_cons_self, hkey, htotal⟩
              · obtain ⟨other, hother, hkey, hfound⟩ := ih hrest sent hlater
                exact ⟨other, List.mem_cons_of_mem _ hother, hkey, hfound⟩

theorem perm_of_normalizeConsumptions {first second : List RemoteQuotaConsumption}
    (h : normalizeConsumptions first = normalizeConsumptions second) : first.Perm second := by
  have hinjective : Function.Injective fun consumption : RemoteQuotaConsumption =>
      (consumption.counterKey, consumption.consumedTotal) := by
    rintro ⟨key, total⟩ ⟨other, more⟩ heq
    cases heq
    rfl
  have hfirst : (normalizeConsumptions first).Perm _ := List.perm_insertionSort _ _
  have hsecond : (normalizeConsumptions second).Perm _ := List.perm_insertionSort _ _
  rw [h] at hfirst
  exact (List.map_perm_map_iff hinjective).mp (hfirst.symm.trans hsecond)

theorem updateLease_ok {roundTrip : QuotaUpdateRequest → Except PoleError
      (Option QuotaUpdateResponse)} {clientKey : UInt32} {leaseId : String}
    {consumptions : List RemoteQuotaConsumption} {sequence : Nat} {serverTimestamp : Int}
    (h : QuotaSession.updateLease roundTrip clientKey leaseId consumptions sequence
      serverTimestamp = .ok ()) :
    ∃ response, roundTrip ⟨clientKey, leaseId, consumptions, sequence, serverTimestamp⟩ =
        .ok (some response) ∧ response.code = rateLimitSuccessCode ∧
      response.sequence = sequence ∧ response.consumptions.Perm consumptions := by
  unfold QuotaSession.updateLease at h
  cases hanswer : roundTrip ⟨clientKey, leaseId, consumptions, sequence, serverTimestamp⟩ with
  | error err => simp only [hanswer, reduceCtorEq] at h
  | ok reply =>
      cases reply with
      | none => simp only [hanswer, reduceCtorEq] at h
      | some response =>
          simp only [hanswer] at h
          by_cases hcode : response.code ≠ rateLimitSuccessCode
          · rw [if_pos hcode] at h
            cases h
          · rw [if_neg hcode] at h
            by_cases hmatch : response.sequence ≠ sequence ∨
                normalizeConsumptions response.consumptions ≠ normalizeConsumptions consumptions
            · rw [if_pos hmatch] at h
              cases h
            · rw [not_or, not_not, not_not] at hmatch
              exact ⟨response, rfl, not_not.mp hcode, hmatch.1,
                perm_of_normalizeConsumptions hmatch.2⟩

theorem answersTo_of_answer (distinct : (leasedCounters backend.groups).Nodup) {settles : Bool}
    {totals : List QuotaConsumption} {sequence : Nat} {serverTimestamp : Int}
    {outcome : WireOutcome} {request : LeaseRequest}
    (hrequest : backend.request settles totals sequence serverTimestamp = .ok request)
    (h : backend.answer settles totals sequence serverTimestamp outcome = .ok) :
    AnswersTo backend request outcome := by
  unfold DistributedLeaseBackend.request at hrequest
  unfold DistributedLeaseBackend.answer DistributedLeaseBackend.finish
    DistributedLeaseBackend.update at h
  cases hremote : expandConsumptions backend.groups totals with
  | error err =>
      rw [hremote] at hrequest
      cases hrequest
  | ok remote =>
      rw [hremote] at hrequest
      simp only [hremote] at h
      cases outcome with
      | dropped sent => cases h
      | failed sent err => cases h
      | answered update settle =>
          cases settles with
          | false =>
              cases hrequest
              cases hupdate : QuotaSession.updateLease (fun _ => .ok update) backend.clientKey
                  backend.leaseId remote sequence serverTimestamp with
              | error err =>
                  simp only [Bool.false_eq_true, if_false, hupdate] at h
                  cases h
              | ok =>
                  obtain ⟨response, hreply, hcode, hsequence, hperm⟩ := updateLease_ok hupdate
                  exact ⟨response, Except.ok.inj hreply, hcode, hsequence, hperm⟩
          | true =>
              cases hrequest
              cases hsettle : settleLease (fun _ => .ok settle) backend.clientKey backend.leaseId
                  backend.groups remote sequence serverTimestamp with
              | error err =>
                  simp only [if_true, hsettle] at h
                  cases h
              | ok =>
                  obtain ⟨settlements, hreply, hvalid⟩ := settleLease_ok_iff.mp hsettle
                  have hsent := List.Perm.of_eq (keys_expandConsumptions hremote)
                  exact ⟨settlements, Except.ok.inj hreply,
                    (settlementsValid_iff_exact distinct hsent).mp hvalid⟩

/-- The request that is made after those before it is orderly. -/
theorem orderly_of_made (leased : LeasedBy lease backend)
    (madeBefore : EachEvent (Made lease backend) log) (made : Made lease backend log exchange) :
    Orderly lease backend log exchange := by
  have before := replayed_of_made leased.within madeBefore
  obtain ⟨hopen, hsequence, hwithin, hgrown⟩ := made.asks before.within
  obtain ⟨serverTimestamp, hrequest, hanswer⟩ := made.requested
  obtain ⟨-, -, hlease, hremote⟩ := request_spec hrequest
  constructor
  · exact hlease
  · rw [hsequence, before.sequence]
  · exact keys_expandConsumptions hremote
  · intro new hnew
    obtain ⟨group, hgroup, hkey, htotal⟩ := mem_expandConsumptions hremote new hnew
    obtain ⟨amount, hamount, hle⟩ := hwithin.total_le htotal
    obtain rfl := Option.some.inj ((leased.reserved group hgroup).symm.trans hamount)
    exact ⟨group, hgroup, hkey, hle⟩
  · intro earlier hearlier hconfirmed old hold new hnew hkey
    obtain ⟨first, rest, hsplit⟩ := List.append_of_mem hearlier
    obtain ⟨_, hrequested, -⟩ := (madeBefore first earlier rest hsplit).requested
    have holdRemote := (request_spec hrequested).2.2.2
    obtain ⟨group, hgroup, holdKey, holdTotal⟩ := mem_expandConsumptions holdRemote old hold
    obtain ⟨other, hother, hnewKey, hnewTotal⟩ := mem_expandConsumptions hremote new hnew
    rw [← hkey] at hnewKey
    obtain rfl := group_unique leased.distinct hgroup hother holdKey hnewKey
    obtain ⟨raised, hraised, hle⟩ :=
      ((before.grown earlier hearlier hconfirmed).trans hgrown).totalOf holdTotal
    obtain rfl := Option.some.inj (hraised.symm.trans hnewTotal)
    exact hle
  · intro earlier hearlier
    refine ⟨made.undropped earlier hearlier, fun hsettled => ?_⟩
    rw [before.finished.mpr ⟨earlier, hearlier, hsettled⟩] at hopen
    cases hopen
  · intro hnone
    obtain ⟨hsettles, -, habandoned⟩ := made.drops hnone
    refine ⟨hsettles, ?_⟩
    rw [← before.totals]
    unfold QuotaLease.abandoned at habandoned
    simp only [hopen, Bool.false_eq_true, if_false] at habandoned
    cases hnext : nextSequence (replay lease log).sequence with
    | error err => simp only [hnext, reduceCtorEq] at habandoned
    | ok sequence =>
        simp only [hnext, Option.some.injEq, Prod.mk.injEq] at habandoned
        exact habandoned.1.symm
  · intro hconfirmed
    exact answersTo_of_answer leased.distinct hrequest (hanswer hconfirmed)

/-- Requests for the same totals differ in their time only. -/
theorem request_timed {settles : Bool} {totals : List QuotaConsumption} {sequence : Nat}
    {first second : Int} {request again : LeaseRequest}
    (hfirst : backend.request settles totals sequence first = .ok request)
    (hsecond : backend.request settles totals sequence second = .ok again) :
    again = request.timed second := by
  unfold DistributedLeaseBackend.request at hfirst hsecond
  cases hremote : expandConsumptions backend.groups totals with
  | error err =>
      rw [hremote] at hfirst
      cases hfirst
  | ok remote =>
      rw [hremote] at hfirst hsecond
      cases settles with
      | false =>
          cases hfirst
          cases hsecond
          rfl
      | true =>
          cases hfirst
          cases hsecond
          rfl

theorem replay_unconfirmed {failed : List LeaseExchange}
    (unconfirmed : ∀ exchange ∈ failed, exchange.confirmed = false) :
    replay lease (log ++ failed) = replay lease log := by
  induction failed using List.reverseRecOn with
  | nil => rw [List.append_nil]
  | append_singleton failed exchange ih =>
      have hlast := unconfirmed exchange (mem_concat.mpr (.inr rfl))
      rw [← List.append_assoc, replay_append, LeaseExchange.apply, hlast]
      exact ih fun earlier hmem => unconfirmed earlier (mem_concat.mpr (.inl hmem))

end Log

/-! ## Leases that were reserved -/

section Reserved

variable {env : CallEnv} {req : QuotaRequest} {rules : List RateLimitRule}
variable {distributed : List QuotaSpec → Except PoleError DistributedReserveResult}
variable {state : LocalQuotaState} {call : QuotaCall} {lease : QuotaLease}
variable {backend : DistributedLeaseBackend}
variable {ensureWindow : QuotaSpec → Except PoleError (UInt32 × List UInt32)}

theorem mem_leaseGroups {clientKey last : Option UInt32} {seen : List UInt32}
    {specs : List QuotaSpec} {groups : List LeaseCounterGroup}
    (h : leaseGroups ensureWindow clientKey seen specs = .ok (last, groups)) :
    ∀ group ∈ groups, ∃ spec ∈ specs,
      quotaResource spec.trigger.resource = some group.resource ∧ spec.amount = group.amount := by
  induction specs generalizing clientKey seen groups with
  | nil =>
      cases h
      exact nofun
  | cons spec specs ih =>
      rw [leaseGroups] at h
      cases hwindow : ensureWindow spec with
      | error err => simp only [hwindow, reduceCtorEq] at h
      | ok answer =>
          simp only [hwindow] at h
          split at h
          · cases h
          · split at h
            · cases h
            · cases hresource : quotaResource spec.trigger.resource with
              | none => simp only [hresource, reduceCtorEq] at h
              | some resource =>
                  simp only [hresource] at h
                  rename_i seen' _
                  cases hrest : leaseGroups ensureWindow (some answer.1) seen' specs with
                  | error err =>
                      rw [hrest] at h
                      cases h
                  | ok rest =>
                      rw [hrest] at h
                      cases h
                      intro group hgroup
                      rcases List.mem_cons.mp hgroup with rfl | hlater
                      · exact ⟨spec, List.mem_cons_self, hresource, rfl⟩
                      · obtain ⟨other, hother, hfound⟩ := ih hrest group hlater
                        exact ⟨other, List.mem_cons_of_mem _ hother, hfound⟩

theorem amountOf_leaseGroups (valid : req.checkValid = .ok ()) {last : Option UInt32}
    {groups : List LeaseCounterGroup}
    (built : leaseGroups ensureWindow none [] (distributedSpecs env req rules) =
      .ok (last, groups)) :
    ∀ group ∈ groups, amountOf req.quotas group.resource = some group.amount := by
  intro group hgroup
  obtain ⟨spec, hspec, hresource, hamount⟩ := mem_leaseGroups built group hgroup
  obtain ⟨quota, hquota, entry, hentry, rfl⟩ := mem_distributedSpecs hspec
  obtain ⟨other, hother, hsame, hother_amount⟩ := asksFor_of_selected hquota hentry
  rw [← hamount, hother_amount, ← amountOf_of_mem (checkValid_distinct valid) hother]
  rw [hresource] at hsame
  rw [Option.some.inj hsame]

theorem leasedBy_reserveQuotas (valid : req.checkValid = .ok ())
    (reserved : reserveQuotas env distributed state req rules = (call, .ok lease))
    (leased : .distributed ∈ lease.backends) {last : Option UInt32}
    (built : leaseGroups ensureWindow none [] (distributedSpecs env req rules) =
      .ok (last, backend.groups)) : LeasedBy lease backend := by
  have hlease : lease.reservations = req.quotas ∧
      lease.consumptions = initialConsumptions req.quotas := by
    unfold reserveQuotas at reserved
    split at reserved
    · cases reserved
    · split at reserved
      · cases reserved
      · cases reserved
        exact ⟨rfl, rfl⟩
  refine ⟨leased, ?_, (nodup_leaseGroups built).1, ?_⟩
  · rw [hlease.1, hlease.2]
    exact within_initial (checkValid_positive valid)
  · rw [hlease.1]
    exact amountOf_leaseGroups valid built

/-- In every run of a reserved lease, whatever becomes of its requests, each of them is orderly,
and the lease has the sequence and the totals of those that were confirmed. -/
theorem lease_requests_orderly (valid : req.checkValid = .ok ())
    (reserved : reserveQuotas env distributed state req rules = (call, .ok lease))
    (leased : .distributed ∈ lease.backends) {last : Option UInt32}
    (built : leaseGroups ensureWindow none [] (distributedSpecs env req rules) =
      .ok (last, backend.groups)) (moves : List WireMove) :
    let s := run (wireStep env lease backend) (wireOpened lease call) moves
    EachEvent (Orderly lease backend) s.log ∧
      s.lease.state.sequence = s.log.countP LeaseExchange.confirmed ∧
      s.lease.state.consumptions = confirmedTotals lease s.log ∧
      (s.lease.state.finished = true ↔
        ∃ exchange ∈ s.log, exchange.confirmed = true ∧ exchange.request.settles = true) := by
  have hleased : LeasedBy lease backend := leasedBy_reserveQuotas valid reserved leased built
  intro s
  have inv : WireInv lease backend s := wireInv_run leased call moves
  have hreplayed := replayed_of_made hleased.within inv.made
  refine ⟨?_, ?_, ?_, ?_⟩
  · intro before exchange after hlog
    have hbefore : EachEvent (Made lease backend) before := by
      intro first earlier rest hsplit
      refine inv.made first earlier (rest ++ exchange :: after) ?_
      rw [hlog, hsplit, List.append_assoc]
      rfl
    exact orderly_of_made hleased hbefore (inv.made before exchange after hlog)
  · rw [inv.replayed]
    exact hreplayed.sequence
  · rw [inv.replayed]
    exact hreplayed.totals
  · rw [inv.replayed]
    exact hreplayed.finished

/-- A call that is made again before anything is confirmed sends the same request again: the
same totals under the same number, at another time. -/
theorem retries_repeat (leased : .distributed ∈ lease.backends) (call : QuotaCall)
    (moves : List WireMove) {before middle after : List LeaseExchange}
    {first again : LeaseExchange}
    (log : (run (wireStep env lease backend) (wireOpened lease call) moves).log =
      before ++ first :: (middle ++ again :: after))
    (unconfirmed : ∀ exchange ∈ first :: middle, exchange.confirmed = false)
    (same : again.call = first.call) :
    ∃ serverTimestamp, again.request = first.request.timed serverTimestamp := by
  have inv := @wireInv_run env lease backend leased call moves
  have hfirst := inv.made before first (middle ++ again :: after) log
  have hagain := inv.made (before ++ first :: middle) again after (by
    rw [log, List.append_assoc]
    rfl)
  obtain ⟨_, hrequest, -⟩ := hfirst.requested
  obtain ⟨serverTimestamp, hrepeated, -⟩ := hagain.requested
  cases hcall : first.call with
  | none => exact absurd hcall (hagain.undropped first (List.mem_append_right _ List.mem_cons_self))
  | some made =>
      obtain ⟨hsettles, hasked⟩ := hfirst.calls made hcall
      obtain ⟨hsettlesAgain, haskedAgain⟩ := hagain.calls made (same.trans hcall)
      rw [replay_unconfirmed unconfirmed, hasked] at haskedAgain
      obtain ⟨htotals, hsequence⟩ := Prod.mk.inj (Option.some.inj haskedAgain)
      rw [hsettlesAgain, ← hsettles, ← htotals, ← hsequence] at hrepeated
      exact ⟨serverTimestamp, request_timed hrequest hrepeated⟩

end Reserved

def sharedRule : RateLimitRule := { ordersRule tokenTrigger with type := .global }

def sharedLease : QuotaLease := ⟨[⟨.token, 40⟩], [⟨.token, 0⟩], [.distributed]⟩

def sharedBackend : DistributedLeaseBackend :=
  ⟨1, "lease", [⟨.token, 40, .consumable, [7, 8]⟩]⟩

def reserveShared : QuotaCall × Except PoleError QuotaLease :=
  reserveQuotas .decimal (fun _ => .ok .reserved) LocalQuotaState.empty
    (ordersRequest [⟨.token, 40⟩]) [sharedRule]

/-- The answer to the first update is lost, and the lease is dropped after the second. -/
def lostAnswer : List WireMove :=
  [.call (.update 20) 0 (.dropped true),
    .call (.update 20) 1 (.answered (some ⟨rateLimitSuccessCode, [⟨8, 20⟩, ⟨7, 20⟩], 1⟩) none),
    .drop 2 (.dropped true)]

def sharedWire : WireSystem :=
  run (wireStep .decimal sharedLease sharedBackend) (wireOpened sharedLease reserveShared.1)
    lostAnswer

/-- Both updates have the first number, and the drop's settlement the second. -/
theorem lost_answer_orderly :
    EachEvent (Orderly sharedLease sharedBackend) sharedWire.log ∧
      sharedWire.log.map (fun exchange => exchange.request.sequence) = [1, 1, 2] ∧
      sharedWire.lease.state.consumptions = [⟨.token, 20⟩] := by
  have hreserved : reserveShared = (reserveShared.1, .ok sharedLease) :=
    Prod.ext rfl (by decide +kernel)
  have horderly := @lease_requests_orderly .decimal (ordersRequest [⟨.token, 40⟩]) [sharedRule]
    (fun _ => .ok .reserved) LocalQuotaState.empty reserveShared.1 sharedLease sharedBackend
    (fun _ => .ok (1, [7, 8])) (by decide +kernel) hreserved (by decide) (some 1)
    (by decide +kernel) lostAnswer
  exact ⟨horderly.1, by decide +kernel, by decide +kernel⟩

def updateExchange (serverTimestamp : Int) (outcome : WireOutcome) (confirmed : Bool) :
    LeaseExchange :=
  ⟨some (.update 20), [⟨.token, 20⟩],
    .update ⟨1, "lease", [⟨7, 20⟩, ⟨8, 20⟩], 1, serverTimestamp⟩, outcome, confirmed⟩

/-- The second update of the lost answer is the first, sent again. -/
theorem lost_answer_repeated :
    ∃ first again last, sharedWire.log = [first, again, last] ∧
      first.confirmed = false ∧ again.confirmed = true ∧
      ∃ serverTimestamp, again.request = first.request.timed serverTimestamp := by
  have hlog : sharedWire.log = [updateExchange 0 (.dropped true) false,
      updateExchange 1
        (.answered (some ⟨rateLimitSuccessCode, [⟨8, 20⟩, ⟨7, 20⟩], 1⟩) none) true,
      ⟨none, [⟨.token, 20⟩], .settle ⟨1, "lease", [⟨7, 20⟩, ⟨8, 20⟩], 2, 2⟩, .dropped true,
        false⟩] := by decide +kernel
  refine ⟨_, _, _, hlog, rfl, rfl, ?_⟩
  exact @retries_repeat .decimal sharedLease sharedBackend (by decide) reserveShared.1 lostAnswer
    [] [] _ _ _ hlog (by decide) rfl

end PoleClient.RateLimit
