import PoleClient.RateLimit.Endpoints
import PoleClient.RateLimit.QuotaWindows

/-! # The distributed quota manager

Calls of `reserve_many` share the sessions, the windows and the bindings of one
manager. A call finds or connects the session of its endpoint, readies the
window of each spec on it, and reserves from all of them in one request. A step
is one access of one call to what they share, so that the calls of different
worker threads interleave at every access. What the limiter answers, whether a
connection succeeds and when a session fails comes from outside, and a call may
be dropped at every step.
-/

namespace PoleClient.RateLimit

/-! ## State -/

structure InitializedWindow where
  sessionId : Nat
  clientKey : UInt32
  counters : List UInt32
deriving DecidableEq, Repr

/-- `QuotaWindow` of the distributed quota, without its lock. -/
structure DistributedWindow where
  key : QuotaWindowKey
  initialized : Option InitializedWindow
deriving DecidableEq, Repr

/-- What the manager asks of a session: the stream is healthy and its channel open. -/
structure SessionHandle where
  endpoint : String
  usable : Bool
deriving DecidableEq, Repr

/-- The variables of `reserve_many` between its specs. -/
structure Work where
  endpoint : String
  sessionId : Nat
  clientKey : Option UInt32
  counterKeys : List UInt32
  groups : List LeaseCounterGroup
  specs : List DistributedQuotaSpec
deriving DecidableEq, Repr

inductive ReserveOutcome where
  | reserved (sessionId : Nat) (lease : DistributedLeaseBackend)
  | rejected (message : String)
deriving DecidableEq, Repr

/-- Where a call stands in `session_for`. -/
inductive SessionStage where
  | lookup
  | connectLock
  | lookupAgain
  | connecting (id : Nat)
deriving DecidableEq, Repr

/-- Where a call stands in `ensure_window`. -/
inductive WindowStage where
  | lookup
  | initializeLock
  | lookupAgain
  | requesting
  | awaiting
  | recording (init : InitializedWindow)
deriving DecidableEq, Repr

inductive ReserveStage where
  | idle
  | session (endpoint : String) (place : SessionStage)
  | nextSpec (work : Work)
  | entering (work : Work) (spec : DistributedQuotaSpec) (key : QuotaWindowKey)
  | window (work : Work) (spec : DistributedQuotaSpec) (address : Nat) (place : WindowStage)
  | awaiting (work : Work) (clientKey : UInt32)
  | returned (result : Except PoleError ReserveOutcome)
  | dropped

/-- What has gone over the wire, and what was made of the answers. -/
inductive QuotaEvent (κ : Type) where
  | connected (sessionId : Nat) (endpoint : String)
  | initSent (call : κ) (sessionId address : Nat) (request : RateLimitInitRequest)
  | initialized (address : Nat) (key : QuotaWindowKey) (init : InitializedWindow)
  | reserveSent (call : κ) (sessionId : Nat) (request : QuotaReserveRequest)
deriving DecidableEq, Repr

/-- What the calls share, without the locks. Windows live at addresses, and outlive their entry
in the map. -/
structure QuotaShared (κ : Type) where
  sessions : String → Option Nat
  opened : Nat → Option SessionHandle
  nextSessionId : Nat
  windows : QuotaWindowKey → Option Nat
  heap : Nat → Option DistributedWindow
  nextAddress : Nat
  log : List (QuotaEvent κ)

structure ManagerState (κ : Type) extends QuotaShared κ where
  stage : κ → ReserveStage
  bindings : DistributedQuotaManager
  connectLock : Option κ
  initializeLock : Nat → Option κ

structure ReserveCall where
  req : QuotaRequest
  specs : List DistributedQuotaSpec
  instances : List Instance
  clientId : String

def emptyReservationError : PoleError :=
  .new .apiInvalidArgument "distributed quota reservation is empty"

def unavailableError : PoleError :=
  networkErrorMessage "rate limit stream is unavailable"

/-- What `ensure_window` makes of the answer to its request. -/
def initOutcome (sessionId : Nat) (answer : Except PoleError (Option RateLimitInitResponse)) :
    Except PoleError InitializedWindow :=
  match answer with
  | .error err => .error err
  | .ok none => .error (.new .invalidResponse "rate limit init response is missing")
  | .ok (some init) =>
      if init.code ≠ rateLimitSuccessCode then
        .error (.new .serverError ("rate limit init returned code " ++ toString init.code))
      else if init.counters.isEmpty then
        .error (.new .invalidResponse "rate limit init returned no counters")
      else .ok ⟨sessionId, init.clientKey, init.counters⟩

/-- The rest of a round of `reserve_many`, once the window is ready. -/
def Work.absorb (work : Work) (spec : DistributedQuotaSpec) (init : InitializedWindow) :
    Except PoleError Work :=
  if work.clientKey.any (· ≠ init.clientKey) then .error clientKeyError
  else
    match insertCounters work.counterKeys init.counters with
    | none => .error duplicateCounterError
    | some counterKeys =>
        match quotaResource spec.trigger.resource with
        | none => .error unsupportedResourceError
        | some resource =>
            .ok { work with
              clientKey := some init.clientKey
              counterKeys := counterKeys
              groups := work.groups ++ [⟨resource, spec.amount,
                quotaAccounting spec.trigger.resource, init.counters⟩] }

/-- What `reserve` makes of the result of its round trip. -/
def Work.outcome (work : Work) (clientKey : UInt32)
    (answer : Except PoleError RemoteRateLimitResponse) : Except PoleError ReserveOutcome :=
  (reserveOutcome answer).map fun
    | .reserved leaseId => .reserved work.sessionId ⟨clientKey, leaseId, work.groups⟩
    | .rejected message => .rejected message

namespace QuotaShared

variable {κ : Type}

def sessionEndpoint (d : QuotaShared κ) (id : Nat) : Option String :=
  (d.opened id).map SessionHandle.endpoint

def isUsable (d : QuotaShared κ) (id : Nat) : Bool :=
  ((d.opened id).map SessionHandle.usable).getD false

def usableSession (d : QuotaShared κ) (endpoint : String) : Option Nat :=
  (d.sessions endpoint).filter d.isUsable

def windowKey (d : QuotaShared κ) (address : Nat) : Option QuotaWindowKey :=
  (d.heap address).map DistributedWindow.key

def initializedAs (d : QuotaShared κ) (address : Nat) : Option InitializedWindow :=
  (d.heap address).bind DistributedWindow.initialized

def initializedOn (d : QuotaShared κ) (address sessionId : Nat) : Option InitializedWindow :=
  (d.initializedAs address).filter fun init => init.sessionId == sessionId

def record (d : QuotaShared κ) (event : QuotaEvent κ) : QuotaShared κ :=
  { d with log := d.log ++ [event] }

def forgetSession (d : QuotaShared κ) (endpoint : String) : QuotaShared κ :=
  { d with
    sessions := Function.update d.sessions endpoint none
    nextSessionId := d.nextSessionId + 1 }

def openSession (d : QuotaShared κ) (endpoint : String) (id : Nat) : QuotaShared κ :=
  { d with
    sessions := Function.update d.sessions endpoint (some id)
    opened := Function.update d.opened id (some ⟨endpoint, true⟩)
    log := d.log ++ [.connected id endpoint] }

def failSession (d : QuotaShared κ) (id : Nat) : QuotaShared κ :=
  { d with
    opened := fun other => (d.opened other).map fun session =>
      if other = id then { session with usable := false } else session }

def removeStaleWindows (d : QuotaShared κ) (current : QuotaWindowKey) : QuotaShared κ :=
  { d with windows := fun key => if key.staleFor current then none else d.windows key }

def addWindow (d : QuotaShared κ) (key : QuotaWindowKey) : QuotaShared κ :=
  { d with
    windows := Function.update d.windows key (some d.nextAddress)
    heap := Function.update d.heap d.nextAddress (some ⟨key, none⟩)
    nextAddress := d.nextAddress + 1 }

def setInitialized (d : QuotaShared κ) (address : Nat) (window : DistributedWindow)
    (init : InitializedWindow) : QuotaShared κ :=
  { d with
    heap := Function.update d.heap address (some { window with initialized := some init })
    log := d.log ++ [.initialized address window.key init] }

end QuotaShared

namespace ManagerState

variable {κ : Type}

def initial : ManagerState κ where
  sessions := fun _ => none
  opened := fun _ => none
  nextSessionId := 1
  windows := fun _ => none
  heap := fun _ => none
  nextAddress := 0
  log := []
  stage := fun _ => .idle
  bindings := .default
  connectLock := none
  initializeLock := fun _ => none

variable [DecidableEq κ]

def setStage (s : ManagerState κ) (call : κ) (stage : ReserveStage) : ManagerState κ :=
  { s with stage := Function.update s.stage call stage }

def setShared (s : ManagerState κ) (shared : QuotaShared κ) : ManagerState κ :=
  { s with toQuotaShared := shared }

def takeConnectLock (s : ManagerState κ) (call : κ) (stage : ReserveStage) : ManagerState κ :=
  { s.setStage call stage with connectLock := some call }

def takeInitializeLock (s : ManagerState κ) (call : κ) (address : Nat) (stage : ReserveStage) :
    ManagerState κ :=
  { s.setStage call stage with
    initializeLock := Function.update s.initializeLock address (some call) }

def leave (s : ManagerState κ) (call : κ) (stage : ReserveStage) : ManagerState κ :=
  { s.setStage call stage with
    connectLock := if s.connectLock = some call then none else s.connectLock
    initializeLock := fun address =>
      if s.initializeLock address = some call then none else s.initializeLock address }

/-! ## Steps of a call -/

section Steps

variable (env : EndpointEnv) (calls : κ → ReserveCall)

/-- Up to the choice of the endpoint. -/
def start (s : ManagerState κ) (call : κ) : ManagerState κ :=
  let args := calls call
  if args.specs.isEmpty then s.leave call (.returned (.error emptyReservationError))
  else
    match ensureSameCluster args.specs with
    | .error err => s.leave call (.returned (.error err))
    | .ok () =>
        match callAffinity args.req args.specs with
        | .error err => s.leave call (.returned (.error err))
        | .ok affinity =>
            match s.bindings.endpointFor env args.instances affinity with
            | (.err err, bindings) =>
                { s with bindings := bindings }.leave call (.returned (.error err))
            | (.moduloByZero, bindings) => { s with bindings := bindings }.leave call .dropped
            | (.ok endpoint, bindings) =>
                { s with bindings := bindings }.setStage call (.session endpoint .lookup)

/-- The loop over the specs begins. -/
def workOn (endpoint : String) (sessionId : Nat) (args : ReserveCall) : Work where
  endpoint := endpoint
  sessionId := sessionId
  clientKey := none
  counterKeys := []
  groups := []
  specs := args.specs

def sessionStep (s : ManagerState κ) (call : κ) (endpoint : String) :
    SessionStage → ManagerState κ
  | .lookup =>
      match s.usableSession endpoint with
      | some id => s.setStage call (.nextSpec (workOn endpoint id (calls call)))
      | none => s.setStage call (.session endpoint .connectLock)
  | .connectLock =>
      match s.connectLock with
      | none => s.takeConnectLock call (.session endpoint .lookupAgain)
      | some _ => s
  | .lookupAgain =>
      match s.usableSession endpoint with
      | some id => s.leave call (.nextSpec (workOn endpoint id (calls call)))
      | none =>
          (s.setShared (s.forgetSession endpoint)).setStage call
            (.session endpoint (.connecting s.nextSessionId))
  | .connecting _ => s

/-- A new session is entered into the map before anything else can run for the call. -/
def finishConnect (s : ManagerState κ) (call : κ) (endpoint : String) (id : Nat)
    (result : Except PoleError Unit) : ManagerState κ :=
  match result with
  | .error err => s.leave call (.returned (.error err))
  | .ok () =>
      (s.setShared (s.openSession endpoint id)).leave call
        (.nextSpec (workOn endpoint id (calls call)))

/-- The next spec drops the windows that its own replaces; after the last one the request to
reserve goes out. -/
def nextSpec (s : ManagerState κ) (call : κ) (work : Work) : ManagerState κ :=
  match work.specs with
  | spec :: specs =>
      match QuotaWindowKey.fromRule (calls call).req spec work.endpoint with
      | .error err => s.leave call (.returned (.error err))
      | .ok key =>
          (s.setShared (s.removeStaleWindows key)).setStage call
            (.entering { work with specs := specs } spec key)
  | [] =>
      match work.clientKey with
      | none => s.leave call .dropped
      | some clientKey =>
          if s.isUsable work.sessionId then
            (s.setShared (s.record (.reserveSent call work.sessionId
              (buildReserveRequest (calls call).req clientKey work.groups)))).setStage call
                (.awaiting work clientKey)
          else s.leave call (.returned (.error unavailableError))

/-- `entry(key).or_insert_with(..)`. -/
def enter (s : ManagerState κ) (call : κ) (work : Work) (spec : DistributedQuotaSpec)
    (key : QuotaWindowKey) : ManagerState κ :=
  match s.windows key with
  | some address => s.setStage call (.window work spec address .lookup)
  | none =>
      (s.setShared (s.addWindow key)).setStage call (.window work spec s.nextAddress .lookup)

/-- `ensure_window` returns. -/
def ready (s : ManagerState κ) (call : κ) (work : Work) (spec : DistributedQuotaSpec)
    (init : InitializedWindow) : ManagerState κ :=
  match work.absorb spec init with
  | .error err => s.leave call (.returned (.error err))
  | .ok work => s.leave call (.nextSpec work)

def windowStep (s : ManagerState κ) (call : κ) (work : Work) (spec : DistributedQuotaSpec)
    (address : Nat) : WindowStage → ManagerState κ
  | .lookup =>
      match s.initializedOn address work.sessionId with
      | some init => s.ready call work spec init
      | none => s.setStage call (.window work spec address .initializeLock)
  | .initializeLock =>
      match s.initializeLock address with
      | some _ => s
      | none => s.takeInitializeLock call address (.window work spec address .lookupAgain)
  | .lookupAgain =>
      match s.initializedOn address work.sessionId with
      | some init => s.ready call work spec init
      | none => s.setStage call (.window work spec address .requesting)
  | .requesting =>
      match s.heap address with
      | none => s
      | some window =>
          match buildInitRequest (calls call).clientId window.key spec with
          | .error err => s.leave call (.returned (.error err))
          | .ok request =>
              if s.isUsable work.sessionId then
                (s.setShared (s.record
                  (.initSent call work.sessionId address request))).setStage call
                    (.window work spec address .awaiting)
              else s.leave call (.returned (.error unavailableError))
  | .awaiting => s
  | .recording init =>
      match s.heap address with
      | none => s
      | some window =>
          (s.setShared (s.setInitialized address window init)).ready call work spec init

/-! ## The system -/

inductive ManagerAction (κ : Type) where
  | advance (call : κ)
  | connectResult (call : κ) (result : Except PoleError Unit)
  | initAnswer (call : κ) (answer : Except PoleError (Option RateLimitInitResponse))
  | reserveAnswer (call : κ) (answer : Except PoleError RemoteRateLimitResponse)
  | cancel (call : κ)
  | sessionFails (id : Nat)

def advance (s : ManagerState κ) (call : κ) : ManagerState κ :=
  match s.stage call with
  | .idle => s.start env calls call
  | .session endpoint place => s.sessionStep calls call endpoint place
  | .nextSpec work => s.nextSpec calls call work
  | .entering work spec key => s.enter call work spec key
  | .window work spec address place => s.windowStep calls call work spec address place
  | .awaiting _ _ | .returned _ | .dropped => s

/-- One step; an action that is not enabled changes nothing. -/
def step (s : ManagerState κ) : ManagerAction κ → ManagerState κ
  | .advance call => s.advance env calls call
  | .connectResult call result =>
      match s.stage call with
      | .session endpoint (.connecting id) => s.finishConnect calls call endpoint id result
      | _ => s
  | .initAnswer call answer =>
      match s.stage call with
      | .window work spec address .awaiting =>
          match initOutcome work.sessionId answer with
          | .error err => s.leave call (.returned (.error err))
          | .ok init => s.setStage call (.window work spec address (.recording init))
      | _ => s
  | .reserveAnswer call answer =>
      match s.stage call with
      | .awaiting work clientKey => s.leave call (.returned (work.outcome clientKey answer))
      | _ => s
  | .cancel call =>
      match s.stage call with
      | .returned _ => s
      | _ => s.leave call .dropped
  | .sessionFails id => s.setShared (s.failSession id)

end Steps

end ManagerState

end PoleClient.RateLimit
