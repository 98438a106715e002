import PoleClient.RateLimit.LeaseFanOut

/-! # Runs of a lease

As long as the lease is neither finished nor dropped, every local lease is live
with the totals and the sequence that the client has confirmed; so the local
backends confirm whatever the client asks for, and only the distributed one can
fail. A finish that is confirmed, or a drop, settles each local lease once.
-/

namespace PoleClient.RateLimit

open Lib

/-! ## The invariant -/

/-- The client and the local leases of the grants, in step. -/
structure LeaseInv (env : CallEnv) (lease : QuotaLease) (start : Ledger) (grants : List Grant)
    (s : LeaseSystem) : Prop where
  follows : Follows env start grants s.call
  within : Within lease.reservations s.state.consumptions
  fewer : s.state.finished = false → s.state.sequence ≤ totalSum s.state.consumptions
  held : s.state.finished = false → s.dropped = false → ∀ grant ∈ grants,
    HeldAs (ledgerOf env start s.call) grant.leaseId
      (grant.confirmed s.state.consumptions s.state.sequence)
  settled : s.state.finished = true ∨ s.dropped = true → ∀ grant ∈ grants, ∃ sequence,
    SettledAs (ledgerOf env start s.call) grant.leaseId
      (grant.confirmed s.state.consumptions sequence)

section Runs

variable {env : CallEnv} {lease : QuotaLease} {start : Ledger} {grants : List Grant}
variable {s : LeaseSystem}

/-- Three words of totals are far from exhausting the sequences. -/
theorem nextSequence_ok (granted : Granted lease grants)
    (inv : LeaseInv env lease start grants s) (unfinished : s.state.finished = false) :
    nextSequence s.state.sequence = .ok (s.state.sequence + 1) ∧
      s.state.sequence + 1 ≤ u64Max := by
  have hfewer := inv.fewer unfinished
  have hsum := inv.within.sum_le granted.resources
  have hbound : s.state.sequence + 1 ≤ u64Max := by
    unfold CounterArith.u32Max at hsum
    unfold u64Max
    omega
  refine ⟨?_, hbound⟩
  unfold nextSequence
  rw [if_neg (by omega)]

/-! ## The backends -/

/-- A total of the client can be confirmed by the grant of its resource. -/
theorem grant_valid {next : List QuotaConsumption} (granted : Granted lease grants)
    {grant : Grant} (hgrant : grant ∈ grants)
    (within : Within lease.reservations s.state.consumptions)
    (nextWithin : Within lease.reservations next) (grown : Grown s.state.consumptions next)
    (bound : s.state.sequence + 1 ≤ u64Max) :
    ∃ total, totalOf next grant.backend.resource = some total ∧
      validateLocalOperation (grant.confirmed s.state.consumptions s.state.sequence) total.toNat
        (s.state.sequence + 1) = .ok () := by
  obtain ⟨amount, hamount, hreserved⟩ := granted.reserved grant hgrant
  rcases within.totalOf grant.backend.resource with ⟨hnone, -⟩ | ⟨_, old, hsome, hold, -⟩
  · rw [hnone] at hamount
    cases hamount
  · obtain ⟨total, htotal, hlow⟩ := grown.totalOf hold
    obtain ⟨bounding, hbounding, hhigh⟩ := nextWithin.total_le htotal
    obtain rfl := Option.some.inj (hbounding.symm.trans hamount)
    refine ⟨total, htotal, validateLocalOperation_next rfl bound ?_ ?_⟩
    · show ((totalOf s.state.consumptions grant.backend.resource).getD 0).toNat ≤ total.toNat
      rw [hold]
      exact UInt32.le_iff_toNat_le.mp hlow
    · show total.toNat ≤ grant.lease.reservedAmount
      rw [hreserved]
      exact UInt32.le_iff_toNat_le.mp hhigh

theorem confirmed_of_total {consumptions : List QuotaConsumption} {grant : Grant} {total : UInt32}
    (htotal : totalOf consumptions grant.backend.resource = some total) (sequence : Nat) :
    grant.confirmed consumptions sequence =
      { grant.lease with consumedTotal := total.toNat, sequence := sequence } := by
  unfold Grant.confirmed
  rw [htotal]
  rfl

theorem advances_update {next : List QuotaConsumption} (granted : Granted lease grants)
    (within : Within lease.reservations s.state.consumptions)
    (nextWithin : Within lease.reservations next) (grown : Grown s.state.consumptions next)
    (bound : s.state.sequence + 1 ≤ u64Max) :
    Advances env lease start grants .update next (s.state.sequence + 1)
      (fun grant => .held (grant.confirmed s.state.consumptions s.state.sequence))
      (fun grant => .held (grant.confirmed next (s.state.sequence + 1))) where
  names := fun _ _ _ h => h
  own := by
    intro grant hgrant call follows hheld
    obtain ⟨total, htotal, hvalid⟩ := grant_valid granted hgrant within nextWithin grown bound
    refine ⟨total, htotal, fun hearly => ?_⟩
    have hbefore := hearly grant.backend (granted.mem hgrant) _ hheld.live
    have hconfirms : _ ∧ HeldAs ((ledgerOf env start call).step env.arith env.toQuotaEnv
        ⟨_, .update grant.leaseId total.toNat (s.state.sequence + 1)⟩) grant.leaseId
          { grant.confirmed s.state.consumptions s.state.sequence with
            consumedTotal := total.toNat, sequence := s.state.sequence + 1 } :=
      HeldAs.update hheld hbefore hvalid
    rw [perform_result follows, ledgerOf_perform, confirmed_of_total htotal]
    exact hconfirms

theorem advances_finish {next : List QuotaConsumption} (granted : Granted lease grants)
    (within : Within lease.reservations s.state.consumptions)
    (nextWithin : Within lease.reservations next) (grown : Grown s.state.consumptions next)
    (bound : s.state.sequence + 1 ≤ u64Max) :
    Advances env lease start grants .finish next (s.state.sequence + 1)
      (fun grant => .held (grant.confirmed s.state.consumptions s.state.sequence))
      (fun grant => .settled (grant.confirmed next s.state.sequence)) where
  names := fun _ _ _ h => h
  own := by
    intro grant hgrant call follows hheld
    obtain ⟨total, htotal, hvalid⟩ := grant_valid granted hgrant within nextWithin grown bound
    refine ⟨total, htotal, fun hearly => ?_⟩
    have hbefore := hearly grant.backend (granted.mem hgrant) _ hheld.live
    rw [perform_result follows, ledgerOf_perform, confirmed_of_total htotal]
    exact HeldAs.finish hheld hbefore hvalid

/-- What the distributed backend answers, if there is one. -/
def QuotaLease.answered (self : QuotaLease) (answer : CallResult) : CallResult :=
  if .distributed ∈ self.backends then answer else .ok

theorem not_mem_localsOf (grants : List Grant) : .distributed ∉ localsOf grants := by
  intro h
  obtain ⟨grant, -, heq⟩ := List.mem_map.mp h
  cases heq

/-- The local backends are asked once the distributed one has confirmed. -/
theorem operateBackends_granted (granted : Granted lease grants)
    (op : String → Nat → Nat → QuotaOp) (consumptions : List QuotaConsumption) (sequence : Nat)
    (answer : CallResult) (call : QuotaCall) :
    (lease.answered answer = .ok ∧
      operateBackends env op consumptions sequence answer call lease.backends =
        operateBackends env op consumptions sequence answer call (localsOf grants)) ∨
    (lease.answered answer ≠ .ok ∧
      operateBackends env op consumptions sequence answer call lease.backends =
        (call, lease.answered answer)) := by
  unfold QuotaLease.answered
  rcases granted.backends with h | h
  · rw [h, if_neg (not_mem_localsOf grants)]
    exact .inl ⟨rfl, rfl⟩
  · rw [h, if_pos List.mem_cons_self]
    cases answer with
    | ok => exact .inl ⟨rfl, rfl⟩
    | err error => exact .inr ⟨fun h => (by cases h), rfl⟩
    | cancelled => exact .inr ⟨fun h => (by cases h), rfl⟩

end Runs

/-! ## Calls -/

def LeaseCall.updates (call : LeaseCall) (lease : QuotaLease) :
    Except PoleError (List QuotaConsumption) :=
  match call with
  | .update consumedTotal => lease.singleResource.map fun resource => [⟨resource, consumedTotal⟩]
  | .updateConsumptions updates => .ok updates
  | .finish consumedTotal => lease.singleResource.map fun resource => [⟨resource, consumedTotal⟩]
  | .finishConsumptions updates => .ok updates

def LeaseCall.finishes : LeaseCall → Bool
  | .update _ => false
  | .updateConsumptions _ => false
  | .finish _ => true
  | .finishConsumptions _ => true

/-- The lease has checked the call and asks its backends for these totals. -/
structure Accepts (lease : QuotaLease) (state : QuotaLeaseState) (call : LeaseCall)
    (next : List QuotaConsumption) : Prop where
  unfinished : state.finished = false
  updates : ∃ updates, call.updates lease = .ok updates ∧
    applyUpdates lease.reservations [] state.consumptions updates = .ok next
  changes : call.finishes = false → next ≠ state.consumptions

/-- What a call that the lease accepts does. -/
def QuotaLease.ask (env : CallEnv) (self : QuotaLease) (finishes : Bool)
    (next : List QuotaConsumption) (answer : CallResult) (s : LeaseSystem) :
    LeaseSystem × CallResult :=
  match operateBackends env (if finishes then .finish else .update) next (s.state.sequence + 1)
      answer s.call self.backends with
  | (call, .ok) => ({ s with state := ⟨next, s.state.sequence + 1, finishes⟩, call }, .ok)
  | (call, stopped) => ({ s with call }, stopped)

section Calls

variable {env : CallEnv} {lease : QuotaLease} {start : Ledger} {grants : List Grant}
variable {s : LeaseSystem} {call : LeaseCall} {answer : CallResult}

theorem operate_eq : lease.operate env call answer s =
    match call.updates lease with
    | .error err => (s, .err err)
    | .ok updates =>
        if call.finishes then lease.finishConsumptions env updates answer s
        else lease.updateConsumptions env updates answer s := by
  cases call with
  | update consumedTotal | finish consumedTotal =>
      unfold QuotaLease.operate LeaseCall.updates
      cases lease.singleResource with
      | error err => rfl
      | ok resource => rfl
  | updateConsumptions updates | finishConsumptions updates => rfl

theorem operate_error {err : PoleError} (h : call.updates lease = .error err) :
    lease.operate env call answer s = (s, .err err) := by
  rw [operate_eq, h]

theorem operate_updates {updates : List QuotaConsumption} (h : call.updates lease = .ok updates) :
    lease.operate env call answer s =
      if call.finishes then lease.finishConsumptions env updates answer s
      else lease.updateConsumptions env updates answer s := by
  rw [operate_eq, h]

theorem operate_accepts (granted : Granted lease grants) (inv : LeaseInv env lease start grants s)
    {next : List QuotaConsumption} (accepts : Accepts lease s.state call next) :
    lease.operate env call answer s = lease.ask env call.finishes next answer s := by
  obtain ⟨unfinished, ⟨updates, hupdates, hnext⟩, changes⟩ := accepts
  have hsequence := (nextSequence_ok granted inv unfinished).1
  rw [operate_updates hupdates]
  cases hfinishes : call.finishes with
  | false =>
      unfold QuotaLease.updateConsumptions applyConsumptionUpdates compositeUpdate QuotaLease.ask
      rcases hasked : operateBackends env .update next (s.state.sequence + 1) answer s.call
        lease.backends with ⟨after, result⟩
      cases result <;> simp only [unfinished, Bool.false_eq_true, if_false, hnext,
        if_neg (changes hfinishes), hsequence, hasked]
  | true =>
      unfold QuotaLease.finishConsumptions applyConsumptionUpdates compositeFinish QuotaLease.ask
      rcases hasked : operateBackends env .finish next (s.state.sequence + 1) answer s.call
        lease.backends with ⟨after, result⟩
      cases result <;> simp only [unfinished, Bool.false_eq_true, if_false, if_true, hnext,
        hsequence, hasked]

theorem operate_refuses (refuses : ∀ next, ¬ Accepts lease s.state call next) :
    (lease.operate env call answer s).1 = s := by
  cases hupdates : call.updates lease with
  | error err => rw [operate_error hupdates]
  | ok updates =>
      rw [operate_updates hupdates]
      cases hfinishes : call.finishes with
      | false =>
          rw [if_neg (by decide)]
          unfold QuotaLease.updateConsumptions applyConsumptionUpdates
          cases hfinished : s.state.finished with
          | true => rfl
          | false =>
              simp only [Bool.false_eq_true, if_false]
              cases hnext : applyUpdates lease.reservations [] s.state.consumptions updates with
              | error err => rfl
              | ok next =>
                  by_cases hsame : next = s.state.consumptions
                  · simp only [if_pos hsame]
                  · exact absurd ⟨hfinished, ⟨updates, hupdates, hnext⟩, fun _ => hsame⟩
                      (refuses next)
      | true =>
          rw [if_pos rfl]
          unfold QuotaLease.finishConsumptions applyConsumptionUpdates
          cases hfinished : s.state.finished with
          | true =>
              simp only [if_true, Bool.false_eq_true, if_false]
              split
              · rfl
              · split <;> rfl
          | false =>
              simp only [Bool.false_eq_true, if_false]
              cases hnext : applyUpdates lease.reservations [] s.state.consumptions updates with
              | error err => rfl
              | ok next =>
                  refine absurd ⟨hfinished, ⟨updates, hupdates, hnext⟩, fun h => ?_⟩
                    (refuses next)
                  rw [hfinishes] at h
                  cases h

/-! ## What an accepted call does -/

/-- The totals that a lease accepts are within its reservations, and none is lower. -/
theorem Accepts.grown {next : List QuotaConsumption}
    (within : Within lease.reservations s.state.consumptions)
    (accepts : Accepts lease s.state call next) :
    Within lease.reservations next ∧ Grown s.state.consumptions next := by
  obtain ⟨updates, -, hnext⟩ := accepts.updates
  exact applyUpdates_grown within hnext

theorem ask_call (finishes : Bool) (next : List QuotaConsumption) :
    (lease.ask env finishes next answer s).1.call =
      (operateBackends env (if finishes then .finish else .update) next (s.state.sequence + 1)
        answer s.call lease.backends).1 := by
  unfold QuotaLease.ask
  rcases operateBackends env (if finishes then .finish else .update) next (s.state.sequence + 1)
    answer s.call lease.backends with ⟨after, result⟩
  cases result <;> rfl

theorem ask_unanswered (granted : Granted lease grants) (finishes : Bool)
    (next : List QuotaConsumption) (h : lease.answered answer ≠ .ok) :
    lease.ask env finishes next answer s = (s, lease.answered answer) := by
  rcases @operateBackends_granted env _ _ granted (if finishes then .finish else .update) next
    (s.state.sequence + 1) answer s.call with ⟨hok, -⟩ | ⟨-, hstopped⟩
  · exact absurd hok h
  · unfold QuotaLease.ask
    rw [hstopped]
    cases hanswer : lease.answered answer with
    | ok => exact absurd hanswer h
    | err error => rfl
    | cancelled => rfl

theorem ask_answered (unique : Function.Injective env.uuid) (granted : Granted lease grants)
    (inv : LeaseInv env lease start grants s) (undropped : s.dropped = false)
    {next : List QuotaConsumption} (accepts : Accepts lease s.state call next)
    (h : lease.answered answer = .ok)
    (inTime : RunsInTime env lease start (lease.ask env call.finishes next answer s).1.call) :
    (lease.ask env call.finishes next answer s).2 = .ok ∧
      (lease.ask env call.finishes next answer s).1.state =
        ⟨next, s.state.sequence + 1, call.finishes⟩ ∧
      LeaseInv env lease start grants (lease.ask env call.finishes next answer s).1 := by
  obtain ⟨nextWithin, grown⟩ := accepts.grown inv.within
  have unfinished := accepts.unfinished
  have hbound := (nextSequence_ok granted inv unfinished).2
  rw [ask_call] at inTime
  rcases @operateBackends_granted env _ _ granted
    (if call.finishes then .finish else .update) next (s.state.sequence + 1) answer s.call with
    ⟨-, hlocals⟩ | ⟨hnot, -⟩
  · have hready := inv.held unfinished undropped
    unfold QuotaLease.ask
    rw [hlocals] at inTime ⊢
    cases hfinishes : call.finishes with
    | false =>
        rw [hfinishes, if_neg (by decide)] at inTime
        rw [if_neg (by decide)]
        obtain ⟨hresult, hfollows, hheld, -⟩ := operateBackends_locals unique granted
          (advances_update granted inv.within nextWithin grown hbound) (fun _ h => h)
          granted.distinct inv.follows hready inTime
        rcases hrun : operateBackends env .update next (s.state.sequence + 1) answer s.call
          (localsOf grants) with ⟨after, result⟩
        rw [hrun] at hresult hfollows hheld
        obtain rfl : result = .ok := hresult
        refine ⟨rfl, rfl, hfollows, nextWithin, fun _ => ?_, fun _ _ => hheld, fun h => ?_⟩
        · have hfewer := inv.fewer unfinished
          have hmore := grown.sum_lt (accepts.changes hfinishes)
          show s.state.sequence + 1 ≤ totalSum next
          omega
        · rcases h with h | h
          · cases h
          · exact absurd (undropped.symm.trans h) (by decide)
    | true =>
        rw [hfinishes, if_pos rfl] at inTime
        rw [if_pos rfl]
        obtain ⟨hresult, hfollows, hsettled, -⟩ := operateBackends_locals unique granted
          (advances_finish granted inv.within nextWithin grown hbound) (fun _ h => h)
          granted.distinct inv.follows hready inTime
        rcases hrun : operateBackends env .finish next (s.state.sequence + 1) answer s.call
          (localsOf grants) with ⟨after, result⟩
        rw [hrun] at hresult hfollows hsettled
        obtain rfl : result = .ok := hresult
        exact ⟨rfl, rfl, hfollows, nextWithin, fun h => (by cases h), fun h => (by cases h),
          fun _ grant hgrant => ⟨_, hsettled grant hgrant⟩⟩
  · exact absurd h hnot

theorem leaseInv_operate (unique : Function.Injective env.uuid) (granted : Granted lease grants)
    (inv : LeaseInv env lease start grants s) (undropped : s.dropped = false)
    (inTime : RunsInTime env lease start (lease.operate env call answer s).1.call) :
    LeaseInv env lease start grants (lease.operate env call answer s).1 := by
  by_cases haccepts : ∃ next, Accepts lease s.state call next
  · obtain ⟨next, haccepts⟩ := haccepts
    rw [operate_accepts granted inv haccepts] at inTime ⊢
    by_cases hanswer : lease.answered answer = .ok
    · exact (ask_answered unique granted inv undropped haccepts hanswer inTime).2.2
    · rw [ask_unanswered granted call.finishes next hanswer]
      exact inv
  · rw [operate_refuses fun next h => haccepts ⟨next, h⟩]
    exact inv

end Calls

/-! ## The drop -/

section Drop

variable {env : CallEnv} {lease : QuotaLease} {start : Ledger} {grants : List Grant}
variable {s : LeaseSystem}

theorem abandon_trace (consumptions : List QuotaConsumption) (sequence : Nat) (call : QuotaCall)
    (backend : QuotaLeaseBackend) :
    call.trace <+: (abandon env consumptions sequence call backend).trace := by
  unfold abandon
  cases backend with
  | distributed => exact List.prefix_rfl
  | localCounter backend =>
      simp only
      cases consumptionFor consumptions backend.resource with
      | error err => exact List.prefix_rfl
      | ok total => exact List.prefix_append _ _

theorem compositeAbandon_trace (consumptions : List QuotaConsumption) (sequence : Nat)
    (backends : List QuotaLeaseBackend) (call : QuotaCall) :
    call.trace <+: (compositeAbandon env consumptions sequence call backends).trace := by
  induction backends generalizing call with
  | nil => exact List.prefix_rfl
  | cons backend backends ih =>
      exact (abandon_trace consumptions sequence call backend).trans (ih _)

/-- An abandon does what a finish does, and goes on where that would stop. -/
theorem compositeAbandon_finish (consumptions : List QuotaConsumption) (sequence : Nat)
    (answer : CallResult) (rest : List Grant) (call : QuotaCall) :
    (operateBackends env .finish consumptions sequence answer call (localsOf rest)).1.trace <+:
        (compositeAbandon env consumptions sequence call (localsOf rest)).trace ∧
      ((operateBackends env .finish consumptions sequence answer call (localsOf rest)).2 = .ok →
        compositeAbandon env consumptions sequence call (localsOf rest) =
          (operateBackends env .finish consumptions sequence answer call (localsOf rest)).1) := by
  induction rest generalizing call with
  | nil => exact ⟨List.prefix_rfl, fun _ => rfl⟩
  | cons grant rest ih =>
      have hcons : localsOf (grant :: rest) = .localCounter grant.backend :: localsOf rest := rfl
      have hmore := @compositeAbandon_trace env consumptions sequence (localsOf rest)
      rw [hcons, operateBackends]
      show _ <+: (compositeAbandon env consumptions sequence
          (abandon env consumptions sequence call (.localCounter grant.backend))
            (localsOf rest)).trace ∧ (_ → compositeAbandon env consumptions sequence
          (abandon env consumptions sequence call (.localCounter grant.backend))
            (localsOf rest) = _)
      unfold operateBackend abandon
      simp only
      cases consumptionFor consumptions grant.backend.resource with
      | error err => exact ⟨hmore call, fun h => (by cases h)⟩
      | ok total =>
          simp only
          rcases call.perform env (.finish grant.backend.leaseId total.toNat sequence) with
            ⟨after, result⟩
          cases result with
          | error err => exact ⟨hmore after, fun h => (by cases h)⟩
          | ok reserved => exact ih after

theorem compositeAbandon_granted (granted : Granted lease grants)
    (consumptions : List QuotaConsumption) (sequence : Nat) (call : QuotaCall) :
    compositeAbandon env consumptions sequence call lease.backends =
      compositeAbandon env consumptions sequence call (localsOf grants) := by
  rcases granted.backends with h | h
  · rw [h]
  · rw [h]
    rfl

theorem leaseInv_drop (unique : Function.Injective env.uuid) (granted : Granted lease grants)
    (inv : LeaseInv env lease start grants s) (undropped : s.dropped = false)
    (inTime : RunsInTime env lease start (lease.drop env s).call) :
    LeaseInv env lease start grants (lease.drop env s) := by
  unfold QuotaLease.drop at inTime ⊢
  cases hfinished : s.state.finished with
  | true =>
      rw [if_pos rfl]
      exact ⟨inv.follows, inv.within, inv.fewer, fun _ h => (by cases h),
        fun _ => inv.settled (.inl hfinished)⟩
  | false =>
      rw [hfinished, if_neg (by decide), (nextSequence_ok granted inv hfinished).1] at inTime
      rw [if_neg (by decide), (nextSequence_ok granted inv hfinished).1]
      simp only [compositeAbandon_granted granted] at inTime ⊢
      obtain ⟨hfirst, hsame⟩ := @compositeAbandon_finish env s.state.consumptions
        (s.state.sequence + 1) .ok grants s.call
      have hbound := (nextSequence_ok granted inv hfinished).2
      obtain ⟨hresult, hfollows, hsettled, -⟩ := operateBackends_locals unique granted
        (advances_finish granted inv.within inv.within (Grown.refl _) hbound) (fun _ h => h)
        granted.distinct inv.follows (inv.held hfinished undropped) (inTime.of_prefix hfirst)
      rw [hsame hresult]
      exact ⟨hfollows, inv.within, inv.fewer, fun _ h => (by cases h),
        fun _ grant hgrant => ⟨_, hsettled grant hgrant⟩⟩

end Drop

/-! ## Moves -/

/-- What others do names none of the lease's local backends, whose identifiers they do not know. -/
def LeaseMove.Foreign (move : LeaseMove) (lease : QuotaLease) : Prop :=
  ∀ op, move = .other op → ∀ backend ∈ localBackends lease.backends, ¬ op.Names backend.leaseId

section Moves

variable {env : CallEnv} {lease : QuotaLease} {start : Ledger} {grants : List Grant}
variable {s : LeaseSystem} {move : LeaseMove}

theorem leaseInv_other (unique : Function.Injective env.uuid) (granted : Granted lease grants)
    (inv : LeaseInv env lease start grants s) {op : QuotaOp}
    (foreign : ∀ grant ∈ grants, ¬ op.Names grant.leaseId)
    (inTime : RunsInTime env lease start (s.call.perform env op).1) :
    LeaseInv env lease start grants { s with call := (s.call.perform env op).1 } := by
  have hearly := ((runsInTime_perform op).mp inTime).2
  refine ⟨follows_perform inv.follows op, inv.within, inv.fewer, ?_, ?_⟩
  · intro hfinished hdropped grant hgrant
    have hheld := inv.held hfinished hdropped grant hgrant
    exact @phase_perform _ _ _ _ _ unique inv.follows _ hgrant (granted.mem hgrant) _
      (foreign grant hgrant) hearly (.held _) hheld
  · intro hclosed grant hgrant
    obtain ⟨sequence, hsettled⟩ := inv.settled hclosed grant hgrant
    exact ⟨sequence, @phase_perform _ _ _ _ _ unique inv.follows _ hgrant
      (granted.mem hgrant) _ (foreign grant hgrant) hearly (.settled _) hsettled⟩

theorem leaseInv_step (unique : Function.Injective env.uuid) (granted : Granted lease grants)
    (inv : LeaseInv env lease start grants s) (foreign : move.Foreign lease)
    (inTime : RunsInTime env lease start (leaseStep env lease s move).call) :
    LeaseInv env lease start grants (leaseStep env lease s move) := by
  cases move with
  | call call answer =>
      unfold leaseStep at inTime ⊢
      cases hdropped : s.dropped with
      | true => exact inv
      | false =>
          simp only [hdropped, Bool.false_eq_true, if_false] at inTime ⊢
          exact leaseInv_operate unique granted inv hdropped inTime
  | drop =>
      unfold leaseStep at inTime ⊢
      cases hdropped : s.dropped with
      | true => exact inv
      | false =>
          simp only [hdropped, Bool.false_eq_true, if_false] at inTime ⊢
          exact leaseInv_drop unique granted inv hdropped inTime
  | other op =>
      exact leaseInv_other unique granted inv
        (fun grant hgrant => foreign op rfl grant.backend (granted.mem hgrant)) inTime

/-! ## Runs -/

theorem updateConsumptions_trace (updates : List QuotaConsumption) (answer : CallResult) :
    s.call.trace <+: (lease.updateConsumptions env updates answer s).1.call.trace := by
  unfold QuotaLease.updateConsumptions compositeUpdate
  split
  · exact List.prefix_rfl
  · rename_i next _
    split
    · exact List.prefix_rfl
    · split
      · exact List.prefix_rfl
      · rename_i sequence _
        have hcall := @operateBackends_trace env .update next sequence answer lease.backends s.call
        rcases hresult : operateBackends env .update next sequence answer s.call lease.backends
          with ⟨after, result⟩
        rw [hresult] at hcall
        cases result <;> exact hcall

theorem finishConsumptions_trace (updates : List QuotaConsumption) (answer : CallResult) :
    s.call.trace <+: (lease.finishConsumptions env updates answer s).1.call.trace := by
  unfold QuotaLease.finishConsumptions compositeFinish
  split
  · split
    · exact List.prefix_rfl
    · split <;> exact List.prefix_rfl
  · split
    · exact List.prefix_rfl
    · rename_i next _
      split
      · exact List.prefix_rfl
      · rename_i sequence _
        have hcall := @operateBackends_trace env .finish next sequence answer lease.backends s.call
        rcases hresult : operateBackends env .finish next sequence answer s.call lease.backends
          with ⟨after, result⟩
        rw [hresult] at hcall
        cases result <;> exact hcall

theorem operate_trace (call : LeaseCall) (answer : CallResult) :
    s.call.trace <+: (lease.operate env call answer s).1.call.trace := by
  cases hupdates : call.updates lease with
  | error err =>
      have hsame : (lease.operate env call answer s).1.call.trace = s.call.trace :=
        congrArg (fun result => result.1.call.trace) (operate_error hupdates)
      exact hsame ▸ List.prefix_rfl
  | ok updates =>
      rw [operate_updates hupdates]
      split
      · exact finishConsumptions_trace updates answer
      · exact updateConsumptions_trace updates answer

theorem leaseStep_trace (move : LeaseMove) :
    s.call.trace <+: (leaseStep env lease s move).call.trace := by
  cases move with
  | call call answer =>
      unfold leaseStep
      simp only
      split
      · exact List.prefix_rfl
      · exact operate_trace call answer
  | drop =>
      unfold leaseStep QuotaLease.drop
      simp only
      split
      · exact List.prefix_rfl
      · split
        · exact List.prefix_rfl
        · split
          · exact List.prefix_rfl
          · exact compositeAbandon_trace _ _ _ _
  | other op => exact List.prefix_append _ _

theorem run_trace (moves : List LeaseMove) (s : LeaseSystem) :
    s.call.trace <+: (run (leaseStep env lease) s moves).call.trace := by
  induction moves generalizing s with
  | nil => exact List.prefix_rfl
  | cons move moves ih => exact (leaseStep_trace move).trans (ih _)

theorem leaseInv_run (unique : Function.Injective env.uuid) (granted : Granted lease grants)
    {moves : List LeaseMove} (inv : LeaseInv env lease start grants s)
    (foreign : ∀ move ∈ moves, move.Foreign lease)
    (inTime : RunsInTime env lease start (run (leaseStep env lease) s moves).call) :
    LeaseInv env lease start grants (run (leaseStep env lease) s moves) := by
  induction moves generalizing s with
  | nil => exact inv
  | cons move moves ih =>
      have hfirst := inTime.of_prefix (run_trace moves _)
      exact ih (leaseInv_step unique granted inv (foreign move List.mem_cons_self) hfirst)
        (fun other h => foreign other (List.mem_cons_of_mem move h)) inTime

end Moves

end PoleClient.RateLimit
