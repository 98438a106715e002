import PoleClient.Discovery.EndpointText
import PoleClient.Discovery.Online

/-! # Readiness as a probe of another client sees it

The request of a probe becomes a request of the endpoint, and the answer of the
endpoint the verdict of the probe. No probe passes before the instance has been
registered, other than one that takes it offline; and every probe of the readiness path
passes from then on until the instance is taken offline.
-/

namespace PoleClient.Discovery

open Lib Text FaultDetect

/-- What the endpoint answers to a request, and when it answers that all is well. -/
theorem answered_cases {s : LosslessState} {move : LosslessMove} {path : String}
    {response : LosslessEndpointResponse}
    (h : losslessEvent s move = some (.answered path response)) :
    IsAscii response.body ∧
      (path = "/readiness" ∧ response = ready ∨ path = "/offline" ∧ TakesOffline s move ∨
        response.statusCode = 404 ∨ response.statusCode = 503) := by
  obtain ⟨index, input, thread, hmove, hthread, hevent⟩ := Threads.emitted_eq_some h
  cases thread with
  | deregisterStoreOffline served ref =>
      cases served with
      | false => cases hevent
      | true =>
          simp only [losslessProgram, offlineServed, if_true, Option.some.injEq,
            LosslessEvent.answered.injEq] at hevent
          obtain ⟨rfl, rfl⟩ := hevent
          exact ⟨by decide, .inr (.inl ⟨rfl, .inl h⟩)⟩
  | request path =>
      simp only [losslessProgram, handlePath] at hevent
      split at hevent
      · split at hevent
        · cases hevent
          exact ⟨by decide, .inr (.inr (.inl rfl))⟩
        · cases hevent
      · split at hevent
        · split at hevent
          · cases hevent
            exact ⟨by decide, .inr (.inr (.inl rfl))⟩
          · cases hevent
        · cases hevent
          exact ⟨by decide, .inr (.inr (.inl rfl))⟩
  | readinessRegistered ref =>
      simp only [losslessProgram] at hevent
      split at hevent
      · cases hevent
      · cases hevent
        exact ⟨by decide, .inr (.inr (.inr rfl))⟩
  | readinessOffline ref =>
      simp only [losslessProgram, Option.some.injEq, LosslessEvent.answered.injEq] at hevent
      obtain ⟨rfl, rfl⟩ := hevent
      split
      · exact ⟨by decide, .inl ⟨rfl, rfl⟩⟩
      · exact ⟨by decide, .inr (.inr (.inr rfl))⟩
  | _ => cases hevent

/-- The reads on both sides of a probe: the endpoint has the request up to the end of the target,
and the probe the answer up to the end of the status. -/
structure ReadsEnough (network : Network) (host : String) (plan : FaultDetectPlan)
    (response : LosslessEndpointResponse) (requestSize responseSize : Nat) : Prop where
  plain : PlainRequest plan
  request : (requestHead plan).utf8ByteSize ≤ requestSize
  covers : CoversStatus response responseSize
  answers : Answers network host plan (firstBytes (rawResponse response) responseSize)

section Probe

variable {network : Network} {host : String} {plan : FaultDetectPlan}
variable {response : LosslessEndpointResponse} {requestSize responseSize : Nat}
variable {move : LosslessMove} {moves : List LosslessMove}

/-- The endpoint handles the path that the plan names, or the root where its read ends inside a
character, and the probe passes if and only if the status that is answered says so. -/
theorem probe_round_trip (reads : ReadsEnough network host plan response requestSize responseSize)
    (ascii : IsAscii response.body) :
    requestedPath (firstBytes (httpRequest host plan) requestSize) =
        (if (firstBytes (httpRequest host plan) requestSize).IsValidUTF8 then probeTarget plan
        else "/") ∧
      ((executeHttpFaultDetect network host plan).success = true ↔
        200 ≤ response.statusCode ∧ response.statusCode < 400) :=
  ⟨requestedPath_read reads.plain reads.request, success_iff ascii reads.covers reads.answers⟩

/-- Where a path other than the root is handled, it is the one that the plan names. -/
theorem probeTarget_of_requested
    (reads : ReadsEnough network host plan response requestSize responseSize) {path : String}
    (h : requestedPath (firstBytes (httpRequest host plan) requestSize) = path) (hne : path ≠ "/") :
    probeTarget plan = path := by
  rw [requestedPath_read reads.plain reads.request] at h
  split at h
  · exact h
  · exact absurd h.symm hne

/-- In every run that begins with setting the provider: a probe that passes has asked on readiness
after the provider has registered the instance, or it has taken the instance offline. -/
theorem passes_after_registration {answer : HealthAnswer}
    (reads : ReadsEnough network host plan response requestSize responseSize)
    (served : losslessEvent (run losslessStep .start (setup answer ++ moves)) move =
      some (.answered (requestedPath (firstBytes (httpRequest host plan) requestSize)) response))
    (passes : (executeHttpFaultDetect network host plan).success = true) :
    probeTarget plan = "/readiness" ∧
        .doRegister ∈ losslessEvents (run losslessStep .start (setup answer)) moves ∨
      probeTarget plan = "/offline" ∧
        TakesOffline (run losslessStep .start (setup answer ++ moves)) move := by
  obtain ⟨ascii, hcases⟩ := answered_cases served
  have hstatus := (success_iff ascii reads.covers reads.answers).mp passes
  rcases hcases with ⟨hpath, hready⟩ | ⟨hpath, hoffline⟩ | hcode | hcode
  · rw [hpath, hready] at served
    exact .inl ⟨probeTarget_of_requested reads hpath (by decide), registered_of_ready served⟩
  · exact .inr ⟨probeTarget_of_requested reads hpath (by decide), hoffline⟩
  · rw [hcode] at hstatus
    exact absurd hstatus (by decide)
  · rw [hcode] at hstatus
    exact absurd hstatus (by decide)

/-- From a state on in which the instance is online and no call in progress disturbs it, every probe
of the readiness path passes, until the instance is taken offline or scheduled anew. -/
theorem passes_until_offline {s : LosslessState} (online : StaysOnline s)
    (others : ∀ other ∈ moves, ¬ other.Disturbs) (target : probeTarget plan = "/readiness")
    (reads : ReadsEnough network host plan response requestSize responseSize)
    (valid : (firstBytes (httpRequest host plan) requestSize).IsValidUTF8)
    (served : losslessEvent (run losslessStep s moves) move =
      some (.answered (requestedPath (firstBytes (httpRequest host plan) requestSize)) response)) :
    (executeHttpFaultDetect network host plan).success = true := by
  rw [requestedPath_read reads.plain reads.request, if_pos valid, target] at served
  obtain rfl := ready_of_online online others served
  exact (success_iff (by decide) reads.covers reads.answers).mpr (by decide)

end Probe

/-! ## A probe of a scheduled instance -/

def readinessPlan : FaultDetectPlan where
  ruleId := "probe"
  namespaceName := "prod"
  service := "orders"
  intervalSecs := 30
  timeoutSecs := 10
  port := 8080
  protocol := .http
  httpConfig := some ⟨"get", "http://orders/readiness", [], ""⟩
  tcpConfig := none
  udpConfig := none

def directNetwork (response : LosslessEndpointResponse) : Network where
  timesOut := false
  bind := .ok ()
  connect := fun _ => .ok ()
  write := fun _ => .ok ()
  read := fun _ => .ok (firstBytes (rawResponse response) 1024)
  debug := id

theorem readsEnough_ready :
    ReadsEnough (directNetwork ready) "10.0.0.1" readinessPlan ready 1024 1024 where
  plain := by
    unfold PlainRequest
    decide
  request := by decide
  covers := by
    unfold CoversStatus
    decide
  answers := ⟨rfl, rfl, rfl, rfl⟩

theorem isValid_readinessRequest :
    (firstBytes (httpRequest "10.0.0.1" readinessPlan) 1024).IsValidUTF8 :=
  isValidUTF8_iff.mpr (fromUTF8?_of_ascii (by decide) 1024)

def onlyReadiness : LosslessExecutionPlan := ⟨none, true, true⟩

def scheduledThenAsked : List LosslessMove :=
  .call (.scheduleRegister onlyReadiness) :: advances 1 7 ++
    .call (.request "/readiness") :: advances 2 2

theorem requested_readiness :
    requestedPath (firstBytes (httpRequest "10.0.0.1" readinessPlan) 1024) = "/readiness" := by
  rw [requestedPath_read readsEnough_ready.plain readsEnough_ready.request,
    if_pos isValid_readinessRequest]
  decide

theorem passes_ready :
    (executeHttpFaultDetect (directNetwork ready) "10.0.0.1" readinessPlan).success = true :=
  (success_iff (by decide) readsEnough_ready.covers readsEnough_ready.answers).mpr (by decide)

theorem probe_round_trip_ready :
    requestedPath (firstBytes (httpRequest "10.0.0.1" readinessPlan) 1024) =
        (if (firstBytes (httpRequest "10.0.0.1" readinessPlan) 1024).IsValidUTF8 then
          probeTarget readinessPlan else "/") ∧
      ((executeHttpFaultDetect (directNetwork ready) "10.0.0.1" readinessPlan).success = true ↔
        200 ≤ ready.statusCode ∧ ready.statusCode < 400) :=
  probe_round_trip readsEnough_ready (by decide)

theorem passes_after_registration_ready :
    probeTarget readinessPlan = "/readiness" ∧
        .doRegister ∈ losslessEvents (run losslessStep .start (setup healthy)) scheduledThenAsked ∨
      probeTarget readinessPlan = "/offline" ∧
        TakesOffline (run losslessStep .start (setup healthy ++ scheduledThenAsked))
          (.advance 2 healthy) := by
  refine passes_after_registration readsEnough_ready ?_ passes_ready
  rw [requested_readiness]
  decide

def onceRegistered : LosslessState :=
  run losslessStep .start (setup healthy ++ .call (.scheduleRegister onlyReadiness) :: advances 1 7)

theorem staysOnline_onceRegistered : StaysOnline onceRegistered := by
  constructor
  · exact ⟨by decide, by decide, by decide⟩
  · intro thread hthread
    have hthreads : onceRegistered.threads = [.finished, .finished] := by decide
    obtain rfl : thread = .finished := by
      rw [hthreads] at hthread
      simpa using hthread
    rfl

theorem passes_until_offline_asked :
    (executeHttpFaultDetect (directNetwork ready) "10.0.0.1" readinessPlan).success = true := by
  refine @passes_until_offline _ _ _ _ _ _ (.advance 2 healthy)
    (.call (.request "/readiness") :: advances 2 2) _ staysOnline_onceRegistered ?_ (by decide)
    readsEnough_ready isValid_readinessRequest ?_
  · intro other hother
    rcases List.mem_cons.mp hother with rfl | hother
    · intro hdisturbs
      have hpath : "/readiness" = "/offline" := hdisturbs
      exact absurd hpath (by decide)
    · rw [List.eq_of_mem_replicate hother]
      exact id
  · rw [requested_readiness]
    decide

end PoleClient.Discovery
