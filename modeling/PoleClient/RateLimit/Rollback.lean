import Mathlib.Order.Monotone.Defs
import PoleClient.RateLimit.AdmissionRun
import PoleClient.RateLimit.CallLedger

/-! # Giving reservations back

A call that fails gives every reservation back with its initial consumption,
which is one request for a request quota and nothing for the others. The
totals are restored exactly when no such consumption counts in a window's
present generation.
-/

namespace PoleClient.RateLimit

open Lib

/-! ## The operations of a call -/

def ledgerOf (env : CallEnv) (start : Ledger) (call : QuotaCall) : Ledger :=
  run (Ledger.step env.arith env.toQuotaEnv) start call.trace

def lastRead (env : CallEnv) (call : QuotaCall) : Option Nat :=
  match call.trace.length with
  | 0 => none
  | n + 1 => some (env.clock n)

def Sound (env : CallEnv) (start : Ledger) (call : QuotaCall) : Prop :=
  ∀ trace, trace <+: call.trace →
    LedgerInv env.toQuotaEnv (run (Ledger.step env.arith env.toQuotaEnv) start trace)

theorem Sound.of_prefix {env : CallEnv} {start : Ledger} {call final : QuotaCall}
    (sound : Sound env start final) (h : call.trace <+: final.trace) :
    LedgerInv env.toQuotaEnv (ledgerOf env start call) :=
  sound call.trace h

def localBackends (backends : List QuotaLeaseBackend) : List LocalLeaseBackend :=
  backends.filterMap fun backend =>
    match backend with
    | .localCounter backend => some backend
    | .distributed => none

structure SpecOk (req : QuotaRequest) (spec : QuotaSpec) : Prop where
  positive : 0 < spec.amount.toNat
  consumption : ∀ resource, quotaResource spec.trigger.resource = some resource →
    ∃ total, consumptionFor (initialConsumptions req.quotas) resource = .ok total ∧
      total.toNat = if resource = .qps then 1 else 0

structure CallState (env : CallEnv) (req : QuotaRequest) (start : Ledger)
    (backends : List QuotaLeaseBackend) (done : List QuotaSpec) (call : QuotaCall) : Prop where
  state : call.state = (ledgerOf env start call).state
  inv : CallInv env.toQuotaEnv req start (lastRead env call) (localBackends backends) done
    (ledgerOf env start call)

section Call

variable {env : CallEnv} {req : QuotaRequest} {start : Ledger} {call : QuotaCall}
variable {backends : List QuotaLeaseBackend} {done : List QuotaSpec}

variable (env start call) in
theorem ledgerOf_perform (op : QuotaOp) :
    ledgerOf env start (call.perform env op).1 =
      (ledgerOf env start call).step env.arith env.toQuotaEnv
        ⟨env.clock call.trace.length, op⟩ :=
  run_append _ _ call.trace _

variable (env call) in
theorem lastRead_perform (op : QuotaOp) :
    lastRead env (call.perform env op).1 = some (env.clock call.trace.length) := by
  have hlength : (call.perform env op).1.trace.length = call.trace.length + 1 :=
    List.length_append
  unfold lastRead
  rw [hlength]

theorem lastRead_le (mono : Monotone env.clock) :
    ∀ last, lastRead env call = some last → last ≤ env.clock call.trace.length := by
  intro last h
  unfold lastRead at h
  cases hlength : call.trace.length with
  | zero => simp [hlength] at h
  | succ n =>
      simp only [hlength, Option.some.injEq] at h
      rw [← h]
      exact mono (Nat.le_succ n)

theorem perform_reserve (inv : CallState env req start backends done call) {spec : QuotaSpec}
    {state : LocalQuotaState} {reserved : Except PoleError LocalReserveResult}
    (h : RateLimit.reserve env.arith env.toQuotaEnv (env.clock call.trace.length)
      (ledgerOf env start call).state req spec.rule spec.trigger spec.amount.toNat =
        (state, reserved)) :
    ∃ after, call.perform env (.reserve req spec.rule spec.trigger spec.amount.toNat) =
        (after, reserved.map some) ∧ after.state = state ∧
      lastRead env after = some (env.clock call.trace.length) ∧
      ledgerOf env start after =
        ⟨state, grantedBy (reserved.map some) ++ (ledgerOf env start call).granted,
          ((ledgerOf env start call).cleaned env.arith
            (env.clock call.trace.length)).settled⟩ := by
  have hledger := ledgerOf_perform env start call
    (.reserve req spec.rule spec.trigger spec.amount.toNat)
  have hread := lastRead_perform env call
    (.reserve req spec.rule spec.trigger spec.amount.toNat)
  have hperform : call.perform env (.reserve req spec.rule spec.trigger spec.amount.toNat) =
      (⟨state, call.trace ++ [⟨env.clock call.trace.length,
        .reserve req spec.rule spec.trigger spec.amount.toNat⟩]⟩, reserved.map some) := by
    unfold QuotaCall.perform applyOp
    rw [inv.state]
    simp only [h]
  have hstep : (ledgerOf env start call).step env.arith env.toQuotaEnv
      ⟨env.clock call.trace.length, .reserve req spec.rule spec.trigger spec.amount.toNat⟩ =
      ⟨state, grantedBy (reserved.map some) ++ (ledgerOf env start call).granted,
        ((ledgerOf env start call).cleaned env.arith (env.clock call.trace.length)).settled⟩ := by
    unfold Ledger.step applyOp finishedBy
    simp only [h]
    rfl
  rw [hperform] at hledger hread
  exact ⟨_, hperform, rfl, hread, hledger.trans hstep⟩

theorem callState_reserve (unique : Function.Injective env.uuid) (mono : Monotone env.clock)
    (startInv : LedgerInv env.toQuotaEnv start)
    (inv : CallState env req start backends done call)
    (ledgerInv : LedgerInv env.toQuotaEnv (ledgerOf env start call)) {spec : QuotaSpec}
    (ok : SpecOk req spec) :
    match reserveLocal env req call spec with
    | (after, .error _) => CallState env req start backends done after
    | (after, .ok none) => CallState env req start backends (done ++ [spec]) after
    | (after, .ok (some backend)) =>
        CallState env req start (backends ++ [.localCounter backend]) (done ++ [spec]) after := by
  have hclean := callInv_cleaned inv.inv (lastRead_le mono) env.arith
  have heffect := reserve_effect env.arith env.toQuotaEnv (env.clock call.trace.length)
    (ledgerOf env start call).state req spec.rule spec.trigger spec.amount.toNat
  rcases hreserve : RateLimit.reserve env.arith env.toQuotaEnv (env.clock call.trace.length)
    (ledgerOf env start call).state req spec.rule spec.trigger spec.amount.toNat with
    ⟨state, reserved⟩
  rw [hreserve] at heffect
  rcases perform_reserve inv hreserve with ⟨after, hperform, hstate, hread, hledger⟩
  have hrefused : (∀ backend, reserved ≠ .ok (.reserved backend)) →
      CallState env req start backends done after := by
    intro hnot
    refine ⟨by rw [hledger, hstate], ?_⟩
    rw [hread, hledger]
    exact callInv_refused hclean (by rw [heffect.issued]; exact Nat.le_succ _)
      (heffect.refused hnot) heffect.completed heffect.windows
  unfold reserveLocal
  rw [hperform]
  cases reserved with
  | error err => exact hrefused fun backend h => by cases h
  | ok outcome =>
      cases outcome with
      | rejected message => exact hrefused fun backend h => by cases h
      | notConfigured =>
          have hinv := hrefused fun backend h => by cases h
          exact ⟨hinv.state, callInv_done hinv.inv spec⟩
      | reserved backend =>
          rcases heffect.granted backend rfl with
            ⟨hdrawn, hresource, lease, hinitial, hleases⟩
          have hnumber : ∀ n, n < (ledgerOf env start call).state.issued →
              backend.leaseId ≠ env.uuid n := by
            intro n hn heq
            have hsame := unique (heq.symm.trans hdrawn)
            rw [cleanup_issued] at hsame
            omega
          have hown : backend.leaseId ∉ start.ids := by
            intro hmem
            rcases startInv.issued _ hmem with ⟨n, hn, heq⟩
            exact hnumber n (Nat.lt_of_lt_of_le hn inv.inv.issued) heq
          have hunused : backend.leaseId ∉ ((ledgerOf env start call).cleaned env.arith
              (env.clock call.trace.length)).state.leases.keys := by
            intro hmem
            obtain ⟨live, hlookup⟩ := AList.mem_keys_iff.mp hmem
            have hentry := AList.lookup_eq_some_iff.mp hlookup
            rcases ledgerInv.issued _ (mem_ids_of_live (mem_cleanup.mp hentry).1) with
              ⟨n, hn, heq⟩
            exact hnumber n hn heq
          refine ⟨by rw [hledger, hstate], ?_⟩
          rw [hread, hledger]
          have hbackends : localBackends (backends ++ [.localCounter backend]) =
              localBackends backends ++ [backend] := List.filterMap_append
          rw [hbackends]
          exact callInv_granted hclean unique heffect.issued hleases heffect.completed
            heffect.windows hdrawn hown hunused hresource ok.positive
            (ok.consumption _ hresource) hinitial

theorem callState_abandon (mono : Monotone env.clock) {backend : QuotaLeaseBackend}
    (inv : CallState env req start (backend :: backends) done call)
    (ledgerInv : LedgerInv env.toQuotaEnv (ledgerOf env start call)) :
    CallState env req start backends done
      (abandon env (initialConsumptions req.quotas) 1 call backend) := by
  cases backend with
  | distributed => exact ⟨inv.state, inv.inv⟩
  | localCounter backend =>
      have hbackends : localBackends (.localCounter backend :: backends) =
          backend :: localBackends backends := rfl
      have hclean := callInv_cleaned inv.inv (lastRead_le mono) env.arith
      rw [hbackends] at hclean
      rcases (hclean.backends backend List.mem_cons_self).2 with ⟨total, hconsumption, htotal⟩
      unfold abandon
      simp only [hconsumption]
      have heffect := finishLease_effect env.arith (env.clock call.trace.length)
        (ledgerOf env start call).state backend.leaseId total.toNat 1
      refine ⟨?_, ?_⟩
      · rw [ledgerOf_perform]
        unfold QuotaCall.perform Ledger.step
        rw [inv.state]
      · rw [lastRead_perform, ledgerOf_perform]
        apply callInv_finished hclean heffect htotal
        intro hlive
        -- a live lease has not been settled, so it has not been completed
        apply Classical.byContradiction
        intro hcompleted
        obtain ⟨live, hlookup⟩ := AList.mem_keys_iff.mp hlive
        have hentry := AList.lookup_eq_some_iff.mp hlookup
        have hsettled := inv.inv.completed _ (cleanup_completed hcompleted)
        have hdisjoint := (List.nodup_append.mp ledgerInv.once).2.2
        exact hdisjoint _ (AList.fst_mem_keys (mem_cleanup.mp hentry).1) _ hsettled rfl

/-! ## Loops -/

def reserveOp (req : QuotaRequest) (spec : QuotaSpec) : QuotaOp :=
  .reserve req spec.rule spec.trigger spec.amount.toNat

def QuotaOp.isFinish : QuotaOp → Prop
  | .finish _ _ _ => True
  | _ => False

def QuotaCall.ops (call : QuotaCall) : List QuotaOp :=
  call.trace.map TimedOp.op

theorem reserveLocal_perform (spec : QuotaSpec) :
    (reserveLocal env req call spec).1 = (call.perform env (reserveOp req spec)).1 := by
  unfold reserveLocal
  simp only
  split <;> rfl

theorem reserveLocal_ops {spec : QuotaSpec} {after : QuotaCall}
    {result : Except PoleError (Option LocalLeaseBackend)}
    (h : reserveLocal env req call spec = (after, result)) :
    call.trace <+: after.trace ∧ after.ops = call.ops ++ [reserveOp req spec] := by
  have htrace : (reserveLocal env req call spec).1.trace =
      call.trace ++ [⟨env.clock call.trace.length, reserveOp req spec⟩] := by
    rw [reserveLocal_perform]
    rfl
  rw [h] at htrace
  unfold QuotaCall.ops
  rw [htrace]
  exact ⟨List.prefix_append _ _, by simp⟩

variable (env call) in
theorem abandon_ops (consumptions : List QuotaConsumption) (backend : QuotaLeaseBackend) :
    call.trace <+: (abandon env consumptions 1 call backend).trace ∧
      ∃ undone, (abandon env consumptions 1 call backend).ops = call.ops ++ undone ∧
        ∀ op ∈ undone, op.isFinish := by
  have hsame : call.trace <+: call.trace ∧ ∃ undone, call.ops = call.ops ++ undone ∧
      ∀ op ∈ undone, QuotaOp.isFinish op :=
    ⟨List.prefix_rfl, [], by simp, by simp⟩
  unfold abandon
  cases backend with
  | distributed => exact hsame
  | localCounter backend =>
      simp only
      split
      · exact hsame
      · refine ⟨List.prefix_append _ _, [_], List.map_append, fun op hop => ?_⟩
        rw [List.mem_singleton.mp hop]
        trivial

variable (env) in
theorem rollback_ops (consumptions : List QuotaConsumption) (backends : List QuotaLeaseBackend)
    (call : QuotaCall) :
    call.trace <+: (rollbackReservations env consumptions call backends).trace ∧
      ∃ undone, (rollbackReservations env consumptions call backends).ops = call.ops ++ undone ∧
        ∀ op ∈ undone, op.isFinish := by
  induction backends generalizing call with
  | nil => exact ⟨List.prefix_rfl, [], (List.append_nil _).symm, by simp⟩
  | cons backend backends ih =>
      rcases abandon_ops env call consumptions backend with
        ⟨hfirst, undone, hops, hfinish⟩
      rcases ih (abandon env consumptions 1 call backend) with ⟨hrest, more, hmore, hmoreFinish⟩
      refine ⟨hfirst.trans hrest, undone ++ more, ?_, fun op hop => ?_⟩
      · rw [← List.append_assoc, ← hops]
        exact hmore
      · exact (List.mem_append.mp hop).elim (hfinish op) (hmoreFinish op)

theorem callState_rollback (mono : Monotone env.clock) {final : QuotaCall}
    (sound : Sound env start final)
    (hfirst : (rollbackReservations env (initialConsumptions req.quotas) call backends).trace <+:
      final.trace)
    (inv : CallState env req start backends done call) :
    CallState env req start [] done
      (rollbackReservations env (initialConsumptions req.quotas) call backends) := by
  induction backends generalizing call with
  | nil => exact inv
  | cons backend backends ih =>
      have hcall := (rollback_ops env (initialConsumptions req.quotas) (backend :: backends)
        call).1
      exact ih hfirst (callState_abandon mono inv (sound.of_prefix (hcall.trans hfirst)))

variable (env req) in
theorem reserveEach_trace (report : PoleError → PoleError) (specs : List QuotaSpec)
    (call : QuotaCall) (backends : List QuotaLeaseBackend) :
    call.trace <+: (reserveEach env req report call backends specs).1.trace ∧
      ∀ op ∈ (reserveEach env req report call backends specs).1.ops,
        op ∈ call.ops ∨ (∃ spec ∈ specs, op = reserveOp req spec) ∨ op.isFinish := by
  induction specs generalizing call backends with
  | nil => exact ⟨List.prefix_rfl, fun op h => .inl h⟩
  | cons spec specs ih =>
      unfold reserveEach
      rcases hlocal : reserveLocal env req call spec with ⟨after, result⟩
      rcases reserveLocal_ops hlocal with ⟨hafter, hops⟩
      have hfirst : ∀ op ∈ after.ops, op ∈ call.ops ∨
          (∃ other ∈ spec :: specs, op = reserveOp req other) ∨ op.isFinish := by
        intro op hop
        rw [hops, List.mem_append, List.mem_singleton] at hop
        exact hop.imp id fun h => .inl ⟨spec, List.mem_cons_self, h⟩
      have hrest : ∀ held, call.trace <+: (reserveEach env req report after held specs).1.trace ∧
          ∀ op ∈ (reserveEach env req report after held specs).1.ops, op ∈ call.ops ∨
            (∃ other ∈ spec :: specs, op = reserveOp req other) ∨ op.isFinish := by
        intro held
        refine ⟨hafter.trans (ih after held).1, fun op hop => ?_⟩
        rcases (ih after held).2 op hop with hold | ⟨other, hother, heq⟩ | hfinish
        · exact hfirst op hold
        · exact .inr (.inl ⟨other, List.mem_cons_of_mem spec hother, heq⟩)
        · exact .inr (.inr hfinish)
      cases result with
      | error err =>
          rcases rollback_ops env (initialConsumptions req.quotas) backends after with
            ⟨hextends, undone, hundone, hfinish⟩
          refine ⟨hafter.trans hextends, fun op hop => ?_⟩
          have hsplit : op ∈ after.ops ++ undone := hundone ▸ hop
          rcases List.mem_append.mp hsplit with hold | hnew
          · exact hfirst op hold
          · exact .inr (.inr (hfinish op hnew))
      | ok backend =>
          cases backend with
          | none => exact hrest backends
          | some backend => exact hrest _

/-- A loop that succeeds holds what it reserved; one that fails holds nothing. -/
def LoopResult (env : CallEnv) (req : QuotaRequest) (start : Ledger) (done : List QuotaSpec)
    (call : QuotaCall) (specs : List QuotaSpec) :
    QuotaCall × Except PoleError (List QuotaLeaseBackend) → Prop
  | (after, .ok held) => CallState env req start held (done ++ specs) after ∧
      after.ops = call.ops ++ specs.map (reserveOp req)
  | (after, .error _) => ∃ reserved rejecting rest undone,
      specs = reserved ++ rejecting :: rest ∧
      CallState env req start [] (done ++ reserved) after ∧
      after.ops = call.ops ++ (reserved ++ [rejecting]).map (reserveOp req) ++ undone ∧
      ∀ op ∈ undone, op.isFinish

theorem LoopResult.cons {after : QuotaCall} {spec : QuotaSpec} {specs : List QuotaSpec}
    {result : QuotaCall × Except PoleError (List QuotaLeaseBackend)}
    (h : LoopResult env req start (done ++ [spec]) after specs result)
    (hops : after.ops = call.ops ++ [reserveOp req spec]) :
    LoopResult env req start done call (spec :: specs) result := by
  rcases result with ⟨last, outcome⟩
  cases outcome with
  | ok held =>
      rcases h with ⟨hstate, hlast⟩
      refine ⟨by simpa using hstate, ?_⟩
      rw [hlast, hops]
      simp
  | error err =>
      rcases h with ⟨reserved, rejecting, rest, undone, hspecs, hstate, hlast, hfinish⟩
      refine ⟨spec :: reserved, rejecting, rest, undone, by rw [hspecs]; rfl,
        by simpa using hstate, ?_, hfinish⟩
      rw [hlast, hops]
      simp

theorem reserveEach_state (unique : Function.Injective env.uuid) (mono : Monotone env.clock)
    (startInv : LedgerInv env.toQuotaEnv start) (report : PoleError → PoleError)
    {specs : List QuotaSpec} (ok : ∀ spec ∈ specs, SpecOk req spec) {final : QuotaCall}
    (sound : Sound env start final)
    (hfirst : (reserveEach env req report call backends specs).1.trace <+: final.trace)
    (inv : CallState env req start backends done call) :
    LoopResult env req start done call specs
      (reserveEach env req report call backends specs) := by
  induction specs generalizing call backends done with
  | nil => exact ⟨by simpa using inv, by simp⟩
  | cons spec specs ih =>
      have hcall := (reserveEach_trace env req report (spec :: specs) call backends).1.trans hfirst
      have hreserve := callState_reserve unique mono startInv inv (sound.of_prefix hcall)
        (ok spec List.mem_cons_self)
      have hok : ∀ spec ∈ specs, SpecOk req spec := fun other h =>
        ok other (List.mem_cons_of_mem spec h)
      unfold reserveEach at hfirst ⊢
      rcases hlocal : reserveLocal env req call spec with ⟨after, result⟩
      have hops := (reserveLocal_ops hlocal).2
      rw [hlocal] at hreserve
      simp only [hlocal] at hfirst ⊢
      cases result with
      | error err =>
          rcases rollback_ops env (initialConsumptions req.quotas) backends after with
            ⟨-, undone, hundone, hfinish⟩
          refine ⟨[], spec, specs, undone, rfl, ?_, ?_, hfinish⟩
          · rw [List.append_nil]
            exact callState_rollback mono sound hfirst hreserve
          · rw [hundone, hops]
            simp
      | ok backend =>
          cases backend with
          | none => exact (ih hok hfirst hreserve).cons hops
          | some backend => exact (ih hok hfirst hreserve).cons hops

end Call

end PoleClient.RateLimit
