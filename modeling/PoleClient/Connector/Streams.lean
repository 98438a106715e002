import Mathlib.Data.List.Sort
import Mathlib.Data.String.Basic
import PoleClient.Connector.RoundTrip
import PoleClient.Lib.Run

/-! # The connector and its two streams

Naming and configuration requests go out on two streams, and the responses of both
come in through one loop. Every watch asks at its registration and again in each
round of the refresh, with the revision that it has by then. The loop returns at
the end of either stream.
-/

namespace PoleClient.Connector

open Cache Identity Lib

variable {ρ η : Type}

/-! ## Requests as they are sent -/

def exactLabel (label : String × String) : ClientLabel :=
  ⟨label.1, some ⟨.exact, label.2, .known .text⟩⟩

/-- `labels` in the order in which the map iterates. -/
def attachClientLabels (req : DiscoverRequest) (labels : List (String × String)) :
    DiscoverRequest :=
  let clientLabels := (labels.map exactLabel).insertionSort fun left right => left.key ≤ right.key
  let filter := req.filter.getD default
  let caller := filter.caller.getD ⟨[]⟩
  { req with filter := some { filter with caller := some { caller with labels := clientLabels } } }

/-- A configuration request with the parts that the filters and the connector add. -/
structure SentConfigRequest extends ConfigDiscoverRequest where
  publicKey : Option String
  fileLabels : StringMap

/-- `request_process` of a configuration filter, on configuration requests. -/
abbrev ConfigRequestFilter : Type := SentConfigRequest → Except PoleError SentConfigRequest

def filterRequest (filters : List ConfigRequestFilter) (req : SentConfigRequest) :
    Except PoleError SentConfigRequest :=
  filters.foldlM (fun req filter => filter req) req

/-! ## The connector -/

/-- What stays the same while the connector runs. -/
structure ConnectorEnv (ρ η : Type) where
  ops : ResourceHandler ρ η
  identity : Option ServiceIdentityDiscoveryConfig
  labels : List (String × String)
  fileLabels : StringMap
  requestFilters : List ConfigRequestFilter
  responseFilters : List ConfigFilter

/-- A stream: what is sent and not answered, and the answers on their way, each with the time at
which the server gave it. -/
structure SpecStream (α β : Type) where
  requests : List α
  responses : List (Nat × β)
  ended : Bool

def SpecStream.opened {α β : Type} : SpecStream α β := ⟨[], [], false⟩

/-- A request on a stream that is over is lost. -/
def SpecStream.send {α β : Type} (stream : SpecStream α β) (request : α) : SpecStream α β :=
  if stream.ended then stream else { stream with requests := stream.requests ++ [request] }

def SpecStream.answer {α β : Type} (stream : SpecStream α β) (time : Nat) (answer : α → β) :
    SpecStream α β :=
  match stream.requests with
  | [] => stream
  | request :: rest =>
      if stream.ended then stream
      else { stream with
        requests := rest
        responses := stream.responses ++ [(time, answer request)] }

/-- The state of the connector, `receiving` and `refreshing` while its two tasks run. -/
structure ConnectorState (ρ η : Type) where
  watches : Watches η
  discover : SpecStream DiscoverRequest (DiscoverResponse ρ)
  config : SpecStream SentConfigRequest ConfigDiscoverResponse
  time : Nat
  receiving : Bool
  refreshing : Bool

/-- What the server answers at each time. -/
structure SpecServer (ρ : Type) where
  discover : Nat → DiscoverRequest → DiscoverResponse ρ
  config : Nat → SentConfigRequest → ConfigDiscoverResponse

namespace ConnectorState

def new : ConnectorState ρ η := ⟨fun _ => none, .opened, .opened, 0, true, true⟩

variable (env : ConnectorEnv ρ η) (server : SpecServer ρ) (s : ConnectorState ρ η)

def sendNamingDiscoverRequest (req : DiscoverRequest) : ConnectorState ρ η :=
  { s with discover := s.discover.send (attachClientLabels req env.labels) }

/-- A filter that fails drops the request. -/
def sendConfigDiscoverRequest (req : ConfigDiscoverRequest) : ConnectorState ρ η :=
  match filterRequest env.requestFilters ⟨req, none, .empty⟩ with
  | .error _ => s
  | .ok filtered =>
      { s with
        config := s.config.send
          (if filtered.file.isSome then { filtered with fileLabels := env.fileLabels }
            else filtered) }

/-- Send the request of a key, of whichever of the two kinds it is. -/
def sendRequests (key : ResourceEventKey) (revision : String) :
    Except Panic (ConnectorState ρ η) := do
  let discoverRequest ← key.toDiscoverRequest revision
  let configRequest ← key.toConfigRequest revision
  match discoverRequest with
  | some request => return s.sendNamingDiscoverRequest env request
  | none =>
      match configRequest with
      | some request => return s.sendConfigDiscoverRequest env request
      | none => return s

/-- The handler is in the map before its first request is made. -/
def register (handler : η) : ConnectorState ρ η × Except Panic (Except PoleError Bool) :=
  match registerResourceHandler env.ops s.watches handler with
  | .error panic => (s, .error panic)
  | .ok (_, .error err) => (s, .ok (.error err))
  | .ok (watches, .ok registered) =>
      let s := { s with watches := watches }
      match s.sendRequests env (env.ops.interestResource handler) "" with
      | .error panic => (s, .error panic)
      | .ok t => (t, .ok (.ok registered))

def shouldRefreshResource (_key : ResourceEventKey) (_revision : String) : Bool := true

def refreshOne (text : String) : Except Panic (ConnectorState ρ η) :=
  match s.watches text with
  | none => .ok s
  | some wrapper =>
      let key := env.ops.interestResource wrapper.handler
      if !shouldRefreshResource key wrapper.revision then .ok s
      else s.sendRequests env key wrapper.revision

/-- A round over the watches in the order of the map. A panic ends the task. -/
def refresh (s : ConnectorState ρ η) : List String → ConnectorState ρ η
  | [] => s
  | text :: rest =>
      match s.refreshOne env text with
      | .error _ => { s with refreshing := false }
      | .ok t => t.refresh rest

/-- The loop takes a response of the naming stream, or notices its end. -/
def receiveDiscover : ConnectorState ρ η :=
  match s.discover.responses with
  | [] => if s.discover.ended then { s with receiving := false } else s
  | (_, response) :: rest =>
      { s with
        watches := receiveDiscoverResponse env.ops env.identity s.watches response
        discover := { s.discover with responses := rest } }

def receiveConfig : ConnectorState ρ η :=
  match s.config.responses with
  | [] => if s.config.ended then { s with receiving := false } else s
  | (_, response) :: rest =>
      { s with
        watches := receiveConfigResponse env.ops env.responseFilters s.watches response
        config := { s.config with responses := rest } }

inductive Action (η : Type) where
  | register (handler : η)
  | refresh (order : List String)
  | tick
  | answerDiscover
  | answerConfig
  | receiveDiscover
  | receiveConfig
  | endDiscover
  | endConfig

/-- One step of one of the parties. A task that has ended does nothing. -/
def step (s : ConnectorState ρ η) : Action η → ConnectorState ρ η
  | .register handler => (s.register env handler).1
  | .refresh order => if s.refreshing then s.refresh env order else s
  | .tick => { s with time := s.time + 1 }
  | .answerDiscover =>
      { s with discover := s.discover.answer s.time (server.discover s.time) }
  | .answerConfig => { s with config := s.config.answer s.time (server.config s.time) }
  | .receiveDiscover => if s.receiving then s.receiveDiscover env else s
  | .receiveConfig => if s.receiving then s.receiveConfig env else s
  | .endDiscover => { s with discover := { s.discover with ended := true } }
  | .endConfig => { s with config := { s.config with ended := true } }

/-! ## What sending changes -/

/-- Nothing but requests at the end of the streams, and a refresh that may have ended. -/
structure OnlySends (s t : ConnectorState ρ η) : Prop where
  watches : t.watches = s.watches
  time : t.time = s.time
  receiving : t.receiving = s.receiving
  responses : t.discover.responses = s.discover.responses
  configResponses : t.config.responses = s.config.responses
  requests : ∃ more, t.discover.requests = s.discover.requests ++ more
  ended : t.discover.ended = s.discover.ended
  configEnded : t.config.ended = s.config.ended

variable {env server} {s t u : ConnectorState ρ η}

theorem OnlySends.refl (s : ConnectorState ρ η) : OnlySends s s :=
  ⟨rfl, rfl, rfl, rfl, rfl, ⟨[], by simp⟩, rfl, rfl⟩

theorem OnlySends.trans (h : OnlySends s t) (hnext : OnlySends t u) : OnlySends s u where
  watches := hnext.watches.trans h.watches
  time := hnext.time.trans h.time
  receiving := hnext.receiving.trans h.receiving
  responses := hnext.responses.trans h.responses
  configResponses := hnext.configResponses.trans h.configResponses
  requests := by
    obtain ⟨more, hmore⟩ := h.requests
    obtain ⟨rest, hrest⟩ := hnext.requests
    exact ⟨more ++ rest, by rw [hrest, hmore, List.append_assoc]⟩
  ended := hnext.ended.trans h.ended
  configEnded := hnext.configEnded.trans h.configEnded

theorem send_spec {α β : Type} (stream : SpecStream α β) (request : α) :
    (stream.send request).responses = stream.responses ∧
      (stream.send request).ended = stream.ended ∧
      ∃ more, (stream.send request).requests = stream.requests ++ more := by
  unfold SpecStream.send
  split
  · exact ⟨rfl, rfl, [], by simp⟩
  · exact ⟨rfl, rfl, [request], rfl⟩

theorem sendNaming_onlySends (s : ConnectorState ρ η) (req : DiscoverRequest) :
    OnlySends s (s.sendNamingDiscoverRequest env req) := by
  obtain ⟨hresponses, hended, hrequests⟩ :=
    send_spec s.discover (attachClientLabels req env.labels)
  exact ⟨rfl, rfl, rfl, hresponses, rfl, hrequests, hended, rfl⟩

theorem sendConfig_onlySends (s : ConnectorState ρ η) (req : ConfigDiscoverRequest) :
    OnlySends s (s.sendConfigDiscoverRequest env req) := by
  unfold sendConfigDiscoverRequest
  split
  · exact .refl s
  · rename_i filtered hfiltered
    obtain ⟨hresponses, hended, -⟩ := send_spec s.config
      (if filtered.file.isSome then { filtered with fileLabels := env.fileLabels } else filtered)
    exact ⟨rfl, rfl, rfl, rfl, hresponses, ⟨[], by simp⟩, rfl, hended⟩

theorem sendRequests_onlySends {key : ResourceEventKey} {revision : String}
    (h : s.sendRequests env key revision = .ok t) : OnlySends s t := by
  obtain ⟨discoverRequest, -, h⟩ := succeeds_of_bind h
  obtain ⟨configRequest, -, h⟩ := succeeds_of_bind h
  cases discoverRequest with
  | some request =>
      cases h
      exact sendNaming_onlySends s request
  | none =>
      cases configRequest with
      | some request =>
          cases h
          exact sendConfig_onlySends s request
      | none =>
          cases h
          exact .refl s

theorem refresh_onlySends (env : ConnectorEnv ρ η) (s : ConnectorState ρ η) (order : List String) :
    OnlySends s (s.refresh env order) := by
  induction order generalizing s with
  | nil => exact .refl s
  | cons text rest ih =>
      simp only [refresh]
      cases h : s.refreshOne env text with
      | error panic => exact ⟨rfl, rfl, rfl, rfl, rfl, ⟨[], by simp⟩, rfl, rfl⟩
      | ok t =>
          refine .trans ?_ (ih t)
          simp only [refreshOne] at h
          split at h
          · cases h
            exact .refl s
          · split at h
            · cases h
              exact .refl s
            · exact sendRequests_onlySends h

theorem register_spec (env : ConnectorEnv ρ η) (s : ConnectorState ρ η) (handler : η) :
    (s.register env handler).1 = s ∨
      ∃ text, (env.ops.interestResource handler).toText = .ok text ∧ s.watches text = none ∧
        OnlySends { s with watches := setWatch s.watches text ⟨handler, ""⟩ }
          (s.register env handler).1 := by
  unfold register registerResourceHandler
  cases htext : (env.ops.interestResource handler).toText with
  | error panic => exact .inl rfl
  | ok text =>
      cases hwatch : s.watches text with
      | some wrapper =>
          left
          simp only [bind, Except.bind, hwatch]
          rfl
      | none =>
          refine .inr ⟨text, rfl, hwatch, ?_⟩
          simp only [bind, Except.bind, hwatch, pure, Except.pure]
          split
          · exact .refl _
          · rename_i t hsent
            exact sendRequests_onlySends hsent

end ConnectorState

/-! ## A server of the service orders -/

def ordersEnv : ConnectorEnv Unit ResourceEventKey where
  ops := ordersHandler
  identity := none
  labels := [("zone", "a"), ("app", "web")]
  fileLabels := .empty
  requestFilters := []
  responseFilters := []

def ordersRevision (time : Nat) : String := if time = 0 then "1" else "2"

def ordersContent (revision : String) : DiscoverResponse Unit :=
  { (ordersAnswer .«instance» : DiscoverResponse Unit) with
    service := some { (default : SpecService) with
      namespaceName := "prod"
      name := "orders"
      revision := revision } }

def ordersServer : SpecServer Unit where
  discover := fun time request =>
    if request.service.map SpecService.revision = some (ordersRevision time) then
      { (ordersContent "") with code := .dataNoChange }
    else ordersContent (ordersRevision time)
  config := fun _ _ => settingsAnswer

def ordersStart : List (ConnectorState.Action ResourceEventKey) :=
  [.register ordersInstances, .answerDiscover, .receiveDiscover]

end PoleClient.Connector
