import Mathlib.Data.String.Basic
import PoleClient.Core.Model
import PoleClient.Core.Naming
import PoleClient.Core.Text
import PoleClient.Lib.Run
import PoleClient.Lib.SortedVec
import PoleClient.Lib.Table

/-! # The limiter endpoint of an affinity key

A key stays with the endpoint it was last given while the instance list still
offers it. Otherwise its digest picks from the sorted endpoints of the list, and
so clients that see the same endpoints pick the same one.
-/

namespace PoleClient.RateLimit

open Lib

/-! ## The code -/

structure EndpointEnv where
  sha256 : List UInt8 → Vector UInt8 32
  usizeBits : Nat

/-- `u64::from_be_bytes`. -/
def fromBeBytes (bytes : List UInt8) : UInt64 :=
  bytes.foldl (fun n byte => n * 256 + byte.toUInt64) 0

/-- Only the bindings take part in the choice. -/
structure DistributedQuotaManager where
  endpointBindings : Table String String

def DistributedQuotaManager.default : DistributedQuotaManager := ⟨.empty⟩

inductive EndpointOutcome where
  | ok (endpoint : String)
  | err (error : PoleError)
  | moduloByZero
deriving DecidableEq, Repr

def noGrpcError : PoleError :=
  .new .instanceNotFound "rate limit cluster has no available grpc instance"

def servesGrpc (ins : Instance) : Bool :=
  ins.isAvailable && Text.eqIgnoreAsciiCase ins.protocol "grpc"

def endpointOf (ins : Instance) : String :=
  ins.ip ++ ":" ++ toString ins.port

/-- Characters order texts as their UTF-8 bytes do. -/
def availableGrpcEndpoints (instances : List Instance) : Except PoleError (List String) :=
  let available := (instances.filter servesGrpc).map endpointOf
  if available.isEmpty then .error noGrpcError else .ok (sortDedup available)

/-- Nothing is selected where the length would be zero, by which the hash is reduced. -/
def selectEndpointFromAvailable (env : EndpointEnv) (available : List String)
    (affinity : String) : Option String :=
  let digest := env.sha256 affinity.toUTF8.data.toList
  let hash := fromBeBytes (digest.toList.take 8)
  if h : available.length = 0 then none
  else
    some (available.get
      ⟨hash.toNat % 2 ^ env.usizeBits % available.length, Nat.mod_lt _ (Nat.pos_of_ne_zero h)⟩)

namespace DistributedQuotaManager

/-- The endpoint that the key is bound to, if it is still available. -/
def boundEndpoint (self : DistributedQuotaManager) (available : List String)
    (affinity : String) : Option String :=
  (self.endpointBindings.lookup affinity).filter fun endpoint =>
    (binarySearch available endpoint).isSome

def endpointFor (env : EndpointEnv) (self : DistributedQuotaManager) (instances : List Instance)
    (affinity : String) : EndpointOutcome × DistributedQuotaManager :=
  match availableGrpcEndpoints instances with
  | .error err => (.err err, self)
  | .ok available =>
      match self.boundEndpoint available affinity with
      | some endpoint => (.ok endpoint, self)
      | none =>
          match selectEndpointFromAvailable env available affinity with
          | none => (.moduloByZero, self)
          | some endpoint =>
              (.ok endpoint, ⟨self.endpointBindings.insert affinity endpoint⟩)

end DistributedQuotaManager

/-! ## Histories -/

structure EndpointCall where
  affinity : String
  instances : List Instance

def Offers (instances : List Instance) (endpoint : String) : Prop :=
  ∃ ins ∈ instances, servesGrpc ins = true ∧ endpointOf ins = endpoint

section Histories

variable (env : EndpointEnv)

def endpointStep (self : DistributedQuotaManager) (call : EndpointCall) :
    DistributedQuotaManager :=
  (self.endpointFor env call.instances call.affinity).2

def answerAfter (before : List EndpointCall) (call : EndpointCall) : EndpointOutcome :=
  ((run (endpointStep env) .default before).endpointFor env call.instances call.affinity).1

def answered : DistributedQuotaManager → List EndpointCall → List (EndpointCall × EndpointOutcome)
  | _, [] => []
  | self, call :: calls =>
      (call, (self.endpointFor env call.instances call.affinity).1) ::
        answered (endpointStep env self call) calls

def givenTo (affinity : String) (entry : EndpointCall × EndpointOutcome) : Option String :=
  if entry.1.affinity = affinity then
    match entry.2 with
    | .ok endpoint => some endpoint
    | _ => none
  else none

def lastGiven (before : List EndpointCall) (affinity : String) : Option String :=
  (answered env .default before).reverse.findSome? (givenTo affinity)

/-- The list of the call still offers the endpoint that its key was given last. -/
def UsablyBound (before : List EndpointCall) (call : EndpointCall) : Prop :=
  ∃ endpoint, lastGiven env before call.affinity = some endpoint ∧
    Offers call.instances endpoint

end Histories

/-! ## One call -/

section Call

variable {env : EndpointEnv} {instances other : List Instance} {self : DistributedQuotaManager}
variable {affinity endpoint : String}

theorem mem_available_iff :
    endpoint ∈ (instances.filter servesGrpc).map endpointOf ↔ Offers instances endpoint := by
  simp only [List.mem_map, List.mem_filter, Offers, and_assoc]

theorem availableGrpcEndpoints_error :
    (∃ err, availableGrpcEndpoints instances = .error err) ↔
      ∀ endpoint, ¬Offers instances endpoint := by
  simp only [← mem_available_iff]
  rw [← List.eq_nil_iff_forall_not_mem, ← List.isEmpty_iff]
  unfold availableGrpcEndpoints
  cases hempty : ((instances.filter servesGrpc).map endpointOf).isEmpty with
  | true =>
      simp only [hempty]
      exact ⟨fun _ => trivial, fun _ => ⟨noGrpcError, rfl⟩⟩
  | false =>
      simp only [hempty]
      exact ⟨nofun, nofun⟩

theorem eq_of_availableGrpcEndpoints {available : List String}
    (h : availableGrpcEndpoints instances = .ok available) :
    available = sortDedup ((instances.filter servesGrpc).map endpointOf) := by
  unfold availableGrpcEndpoints at h
  cases hempty : ((instances.filter servesGrpc).map endpointOf).isEmpty with
  | true =>
      simp only [hempty] at h
      cases h
  | false =>
      simp only [hempty] at h
      exact (Except.ok.inj h).symm

theorem mem_of_availableGrpcEndpoints {available : List String}
    (h : availableGrpcEndpoints instances = .ok available) :
    endpoint ∈ available ↔ Offers instances endpoint := by
  rw [eq_of_availableGrpcEndpoints h, mem_sortDedup, mem_available_iff]

theorem availableGrpcEndpoints_congr
    (h : ∀ endpoint, Offers other endpoint ↔ Offers instances endpoint) :
    availableGrpcEndpoints other = availableGrpcEndpoints instances := by
  simp only [← mem_available_iff] at h
  have hsorted := sortDedup_congr h
  have hempty := sortDedup_eq_nil (l := (other.filter servesGrpc).map endpointOf)
  rw [hsorted, sortDedup_eq_nil] at hempty
  unfold availableGrpcEndpoints
  simp only [hsorted, List.isEmpty_iff, hempty]

theorem pairwise_le_available {available : List String}
    (h : availableGrpcEndpoints instances = .ok available) : available.Pairwise (· ≤ ·) := by
  rw [eq_of_availableGrpcEndpoints h]
  exact (pairwise_lt_sortDedup _).imp le_of_lt

theorem mem_of_select {available : List String}
    (h : selectEndpointFromAvailable env available affinity = some endpoint) :
    endpoint ∈ available := by
  unfold selectEndpointFromAvailable at h
  by_cases hnil : available.length = 0
  · simp [hnil] at h
  · simp only [dif_neg hnil, Option.some.injEq] at h
    rw [← h]
    exact List.get_mem _ _

theorem select_isSome (env : EndpointEnv) (affinity : String) {available : List String}
    (h : endpoint ∈ available) :
    ∃ selected, selectEndpointFromAvailable env available affinity = some selected := by
  unfold selectEndpointFromAvailable
  simp only [dif_neg (List.length_pos_of_mem h).ne', Option.some.injEq, exists_eq']

theorem boundEndpoint_eq_some {available : List String}
    (h : availableGrpcEndpoints instances = .ok available) :
    self.boundEndpoint available affinity = some endpoint ↔
      self.endpointBindings.lookup affinity = some endpoint ∧ Offers instances endpoint := by
  rw [DistributedQuotaManager.boundEndpoint, Option.filter_eq_some_iff,
    isSome_binarySearch (pairwise_le_available h), mem_of_availableGrpcEndpoints h]

/-- The three ways a call ends: no endpoint, the bound one, or a selected one that is bound. -/
theorem endpointFor_cases (env : EndpointEnv) (self : DistributedQuotaManager)
    (instances : List Instance) (affinity : String) :
    ((∀ endpoint, ¬Offers instances endpoint) ∧
      ∃ err, self.endpointFor env instances affinity = (.err err, self)) ∨
    (∃ endpoint, self.endpointBindings.lookup affinity = some endpoint ∧
      Offers instances endpoint ∧ self.endpointFor env instances affinity = (.ok endpoint, self)) ∨
    ∃ available endpoint, availableGrpcEndpoints instances = .ok available ∧
      (∀ bound, self.endpointBindings.lookup affinity = some bound → ¬Offers instances bound) ∧
      selectEndpointFromAvailable env available affinity = some endpoint ∧
      Offers instances endpoint ∧
      self.endpointFor env instances affinity =
        (.ok endpoint, ⟨self.endpointBindings.insert affinity endpoint⟩) := by
  cases havailable : availableGrpcEndpoints instances with
  | error err =>
      left
      refine ⟨availableGrpcEndpoints_error.mp ⟨err, havailable⟩, err, ?_⟩
      simp only [DistributedQuotaManager.endpointFor, havailable]
  | ok available =>
      right
      cases hbound : self.boundEndpoint available affinity with
      | some endpoint =>
          left
          obtain ⟨hlookup, hoffers⟩ := (boundEndpoint_eq_some havailable).mp hbound
          refine ⟨endpoint, hlookup, hoffers, ?_⟩
          simp only [DistributedQuotaManager.endpointFor, havailable, hbound]
      | none =>
          right
          have hoffered : ∃ offered, Offers instances offered := by
            by_contra hnone
            obtain ⟨err, herr⟩ := availableGrpcEndpoints_error.mpr (not_exists.mp hnone)
            rw [havailable] at herr
            cases herr
          obtain ⟨offered, hoffered⟩ := hoffered
          obtain ⟨endpoint, hselected⟩ := select_isSome env affinity
            ((mem_of_availableGrpcEndpoints havailable).mpr hoffered)
          refine ⟨available, endpoint, rfl, ?_, hselected, ?_, ?_⟩
          · intro bound hlookup hoffers
            rw [(boundEndpoint_eq_some havailable).mpr ⟨hlookup, hoffers⟩] at hbound
            cases hbound
          · exact (mem_of_availableGrpcEndpoints havailable).mp (mem_of_select hselected)
          · simp only [DistributedQuotaManager.endpointFor, havailable, hbound, hselected]

theorem endpointFor_unbound (env : EndpointEnv)
    (h : ∀ bound, self.endpointBindings.lookup affinity = some bound → ¬Offers instances bound) :
    (self.endpointFor env instances affinity).1 =
      (DistributedQuotaManager.default.endpointFor env instances affinity).1 := by
  cases havailable : availableGrpcEndpoints instances with
  | error err => simp only [DistributedQuotaManager.endpointFor, havailable]
  | ok available =>
      have hself : self.boundEndpoint available affinity = none := by
        rw [Option.eq_none_iff_forall_ne_some]
        intro bound hbound
        obtain ⟨hlookup, hoffers⟩ := (boundEndpoint_eq_some havailable).mp hbound
        exact h bound hlookup hoffers
      have hdefault : DistributedQuotaManager.default.boundEndpoint available affinity = none := rfl
      simp only [DistributedQuotaManager.endpointFor, havailable, hself, hdefault]
      cases selectEndpointFromAvailable env available affinity with
      | none => rfl
      | some endpoint => rfl

/-- After a call the key is bound to what it was given; other keys are left alone. -/
theorem lookup_endpointStep (env : EndpointEnv) (self : DistributedQuotaManager)
    (call : EndpointCall) (affinity : String) :
    (endpointStep env self call).endpointBindings.lookup affinity =
      (givenTo affinity (call, (self.endpointFor env call.instances call.affinity).1)).or
        (self.endpointBindings.lookup affinity) := by
  unfold endpointStep givenTo
  obtain ⟨-, err, hcall⟩ | ⟨endpoint, hlookup, -, hcall⟩ | ⟨-, endpoint, -, -, -, -, hcall⟩ :=
    endpointFor_cases env self call.instances call.affinity
  · rw [hcall]
    simp
  · rw [hcall]
    by_cases hkey : call.affinity = affinity
    · rw [if_pos hkey, ← hkey, hlookup]
      rfl
    · rw [if_neg hkey]
      rfl
  · rw [hcall]
    by_cases hkey : call.affinity = affinity
    · rw [if_pos hkey, AList.lookup_insert_ite, if_pos hkey.symm]
      rfl
    · rw [if_neg hkey, AList.lookup_insert_ite, if_neg (Ne.symm hkey)]
      rfl

end Call

/-! ## Runs -/

section Runs

variable {env : EndpointEnv} {before : List EndpointCall} {call : EndpointCall}
variable {affinity endpoint : String}

theorem answered_append (env : EndpointEnv) (self : DistributedQuotaManager)
    (first second : List EndpointCall) :
    answered env self (first ++ second) =
      answered env self first ++ answered env (run (endpointStep env) self first) second := by
  induction first generalizing self with
  | nil => rfl
  | cons call first ih => rw [List.cons_append, answered, answered, ih, List.cons_append, run_cons]

theorem lastGiven_append (env : EndpointEnv) (before : List EndpointCall) (call : EndpointCall)
    (affinity : String) :
    lastGiven env (before ++ [call]) affinity =
      (givenTo affinity (call, answerAfter env before call)).or
        (lastGiven env before affinity) := by
  unfold lastGiven
  rw [answered_append, List.reverse_append, List.findSome?_append, answered, answered,
    List.reverse_singleton, List.findSome?_singleton]
  rfl

/-- A key is bound to the endpoint it was given last. -/
theorem lookup_run (env : EndpointEnv) (before : List EndpointCall) (affinity : String) :
    (run (endpointStep env) .default before).endpointBindings.lookup affinity =
      lastGiven env before affinity := by
  induction before using List.reverseRecOn with
  | nil => rfl
  | append_singleton before call ih =>
      rw [run_append, run_cons, run_nil, lookup_endpointStep, ih, lastGiven_append]
      rfl

/-- Clients that see the same endpoints and have no usable binding of the key agree. -/
theorem answerAfter_congr {otherBefore : List EndpointCall} {other : EndpointCall}
    (hkey : other.affinity = call.affinity)
    (hoffers : ∀ endpoint, Offers other.instances endpoint ↔ Offers call.instances endpoint)
    (hother : ¬UsablyBound env otherBefore other) (hcall : ¬UsablyBound env before call) :
    answerAfter env otherBefore other = answerAfter env before call := by
  have hunbound : ∀ {before : List EndpointCall} {call : EndpointCall},
      ¬UsablyBound env before call → answerAfter env before call =
        (DistributedQuotaManager.default.endpointFor env call.instances call.affinity).1 := by
    intro before call hcall
    apply endpointFor_unbound
    intro bound hlookup hbound
    rw [lookup_run] at hlookup
    exact hcall ⟨bound, hlookup, hbound⟩
  rw [hunbound hother, hunbound hcall, hkey]
  unfold DistributedQuotaManager.endpointFor
  rw [availableGrpcEndpoints_congr hoffers]

end Runs

end PoleClient.RateLimit
