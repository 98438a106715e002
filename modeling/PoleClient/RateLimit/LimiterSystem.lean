import PoleClient.RateLimit.LeaseRequests
import PoleClient.RateLimit.LimiterLedger

/-! # Leases and their limiter

Clients reserve leases from the limiter and use them in every way; whatever they
have sent may reach the limiter at any time, in any order, repeatedly or never,
and what they hear of it may be anything. No request that a client makes can make
the limiter panic.
-/

namespace PoleClient.RateLimit

open Lib

/-! ## State -/

/-- The reservation of a lease with counters of the limiter. -/
structure LeaseOpening where
  env : CallEnv
  req : QuotaRequest
  rules : List RateLimitRule
  state : LocalQuotaState
  clientKey : UInt32
  groups : List LeaseCounterGroup
  valid : req.checkValid = .ok ()
  asks : distributedSpecs env req rules ≠ []
  built : ∃ ensureWindow, leaseGroups ensureWindow none [] (distributedSpecs env req rules) =
    .ok (some clientKey, groups)

structure LeaseClient where
  env : CallEnv
  lease : QuotaLease
  backend : DistributedLeaseBackend
  wire : WireSystem

/-- Without a limiter a request has made it panic. -/
structure LimiterSystem where
  limiter : Option Limiter
  clients : List LeaseClient
  sent : List LeaseRequest

inductive LimiterMove where
  | init (totals : List QuotaTotal)
  | reserve (opening : LeaseOpening) (heard : Bool) (serverTimestamp : Int)
  | client (index : Nat) (move : WireMove)
  | deliver (index : Nat)

def LimiterMove.totals : LimiterMove → List QuotaTotal
  | .init totals => totals
  | .reserve _ _ _ | .client _ _ | .deliver _ => []

namespace LeaseOpening

def request (self : LeaseOpening) : QuotaReserveRequest :=
  buildReserveRequest self.req self.clientKey self.groups

def backend (self : LeaseOpening) (leaseId : String) : DistributedLeaseBackend :=
  ⟨self.clientKey, leaseId, self.groups⟩

/-- The rest of the reservation, once the limiter has granted its part: the client has a lease, or
settles what was granted as it came. -/
def granted (self : LeaseOpening) (leaseId : String) (serverTimestamp : Int) :
    List LeaseClient × List LeaseRequest :=
  match reserveQuotas self.env (fun _ => .ok .reserved) self.state self.req self.rules with
  | (call, .ok lease) =>
      ([⟨self.env, lease, self.backend leaseId, wireOpened lease call⟩], [])
  | (_, .error _) =>
      match (self.backend leaseId).request true (initialConsumptions self.req.quotas) 1
        serverTimestamp with
      | .ok request => ([], [request])
      | .error _ => ([], [])

end LeaseOpening

namespace LimiterSystem

def start : LimiterSystem := ⟨some .new, [], []⟩

/-- What the client makes of the answer, if it hears it. -/
def reserved (s : LimiterSystem) (opening : LeaseOpening) (heard : Bool) (serverTimestamp : Int)
    (response : QuotaReserveResponse) : LimiterSystem :=
  if heard then
    match reserveOutcome (.ok ⟨.known .reserve, some response⟩) with
    | .ok (.reserved leaseId) =>
        { s with
          clients := s.clients ++ (opening.granted leaseId serverTimestamp).1
          sent := s.sent ++ (opening.granted leaseId serverTimestamp).2 }
    | _ => s
  else s

def step (s : LimiterSystem) : LimiterMove → LimiterSystem
  | .init totals =>
      { s with limiter := s.limiter.bind fun limiter => limiter.handle (.init totals) }
  | .reserve opening heard serverTimestamp =>
      match s.limiter with
      | none => s
      | some limiter =>
          match limiter.server.handleReserve opening.request.reservations with
          | none => { s with limiter := none }
          | some (server, response) =>
              { s with limiter := some { limiter with server } }.reserved opening heard
                serverTimestamp response
  | .client index move =>
      match s.clients[index]? with
      | none => s
      | some client =>
          let wire := wireStep client.env client.lease client.backend client.wire move
          { s with
            clients := s.clients.set index { client with wire }
            sent := s.sent ++ (wire.log.drop client.wire.log.length).map LeaseExchange.request }
  | .deliver index =>
      match s.sent[index]? with
      | none => s
      | some request =>
          { s with limiter := s.limiter.bind fun limiter => limiter.handle (.lease request) }

end LimiterSystem

/-! ## What a request leaves -/

/-- Leases that were granted keep their reservations as long as they are there. -/
structure Keeps (s t : ServerState) : Prop where
  numbers : s.nextLease ≤ t.nextLease
  leases : ∀ number ≤ s.nextLease, ∀ lease, t.leases.lookup (leaseIdOf number) = some lease →
    ∃ old, s.leases.lookup (leaseIdOf number) = some old ∧
      lease.reservations = old.reservations

structure SameTotals (s t : ServerState) : Prop where
  length : t.counters.rows.length = s.counters.rows.length
  totals : ∀ key new, t.counters.lookup key = some new →
    ∃ old, s.counters.lookup key = some old ∧ new.maxAmount = old.maxAmount

section Steps

variable {s t : ServerState}

theorem Keeps.refl (s : ServerState) : Keeps s s :=
  ⟨Nat.le_refl _, fun _ _ lease h => ⟨lease, h, rfl⟩⟩

theorem SameTotals.refl (s : ServerState) : SameTotals s s :=
  ⟨rfl, fun _ new h => ⟨new, h, rfl⟩⟩

theorem Changed.sameTotals {change : UInt32 → CounterState → CounterState → Prop}
    (changed : Changed change s.counters t.counters) : SameTotals s t := by
  constructor
  · rw [AList.length_rows, AList.length_rows, changed.keys]
  · intro key new hnew
    obtain ⟨old, hold, hmax, -⟩ := changed.counters key new hnew
    exact ⟨old, hold, hmax⟩

theorem keeps_erase (leaseId : String) :
    Keeps s { s with leases := s.leases.erase leaseId } := by
  refine ⟨Nat.le_refl _, fun number _ lease h => ?_⟩
  rw [AList.lookup_erase_ite] at h
  split at h
  · cases h
  · exact ⟨lease, h, rfl⟩

/-- A grant is for the reservations that were asked for, under an identifier of its own. -/
theorem handleReserve_kept {reservations : List QuotaReservation}
    {response : QuotaReserveResponse}
    (nodup : (reservations.map QuotaReservation.counterKey).Nodup)
    (h : s.handleReserve reservations = some (t, response)) :
    Keeps s t ∧ SameTotals s t ∧ (response.code = rateLimitSuccessCode →
      response.leaseId = leaseIdOf t.nextLease ∧
        t.leases.lookup response.leaseId = some (newLease reservations)) := by
  rcases handleReserve_cases h with ⟨rfl, rfl⟩ | ⟨counters, hcounters, -, -, rfl, rfl⟩
  · exact ⟨Keeps.refl t, SameTotals.refl t, fun hcode => absurd hcode (by decide)⟩
  · refine ⟨⟨Nat.le_succ _, fun number hle lease hlookup => ?_⟩,
      (changed_reserveCounters nodup hcounters).sameTotals, fun _ => ⟨rfl, ?_⟩⟩
    · have hne : leaseIdOf number ≠ leaseIdOf (s.nextLease + 1) := by
        intro heq
        have hsame := leaseIdOf_injective heq
        omega
      rw [AList.lookup_insert_ite, if_neg hne] at hlookup
      exact ⟨lease, hlookup, rfl⟩
    · rw [AList.lookup_insert_ite, if_pos rfl]

theorem handleUpdate_kept (update : QuotaUpdateRequest) :
    Keeps s (s.handleUpdate update).1 ∧ SameTotals s (s.handleUpdate update).1 := by
  rcases handleUpdate_cases s update with hsame | ⟨lease, hlookup, hmodified⟩
  · rw [hsame]
    exact ⟨Keeps.refl s, SameTotals.refl s⟩
  · rw [hmodified]
    refine ⟨⟨Nat.le_refl _, fun number _ other hother => ?_⟩, rfl, (SameTotals.refl s).totals⟩
    rw [AList.lookup_modify] at hother
    by_cases hid : leaseIdOf number = update.leaseId
    · rw [if_pos hid, hlookup] at hother
      cases hother
      exact ⟨lease, hid ▸ hlookup, rfl⟩
    · rw [if_neg hid] at hother
      exact ⟨other, hother, rfl⟩

theorem handleLease_kept {request : LeaseRequest} (h : s.handleLease request = some t) :
    Keeps s t ∧ SameTotals s t := by
  cases request with
  | update update =>
      cases h
      exact handleUpdate_kept update
  | settle settle =>
      have outcome := settleOutcome_of_handle h
      generalize s.forfeited (.settle settle) = lost at outcome
      cases outcome with
      | unchanged => exact ⟨Keeps.refl s, SameTotals.refl s⟩
      | forgotten => exact ⟨keeps_erase settle.leaseId, rfl, (SameTotals.refl s).totals⟩
      | settled lease held unsettled consumed counters settlements counted =>
          exact ⟨⟨Nat.le_refl _, (keeps_erase settle.leaseId).leases⟩,
            (changed_settleCounters lease.reservations.nodup_fst_rows counted).2.sameTotals⟩

end Steps

/-! ## Requests of a lease -/

/-- The limiter has granted the backend's reservations, and it has not changed them. -/
structure Backed (s : ServerState) (backend : DistributedLeaseBackend) : Prop where
  numbered : ∃ number ≤ s.nextLease, backend.leaseId = leaseIdOf number
  reserved : ∀ lease, s.leases.lookup backend.leaseId = some lease →
    lease.reservations = (newLease (backend.groups.flatMap fun group =>
      group.counterKeys.map (⟨·, group.amount⟩))).reservations

/-- Each leased counter once, and within what was reserved. -/
structure MadeFor (backend : DistributedLeaseBackend) (request : LeaseRequest) : Prop where
  distinct : (leasedCounters backend.groups).Nodup
  leaseId : request.leaseId = backend.leaseId
  counters : request.consumptions.map RemoteQuotaConsumption.counterKey =
    leasedCounters backend.groups
  reserved : ∀ new ∈ request.consumptions, ∃ group ∈ backend.groups,
    new.counterKey ∈ group.counterKeys ∧ new.consumedTotal ≤ group.amount

section Requests

variable {s t : ServerState} {backend : DistributedLeaseBackend}

theorem Backed.kept (backed : Backed s backend) (keeps : Keeps s t) : Backed t backend := by
  obtain ⟨number, hle, hid⟩ := backed.numbered
  refine ⟨⟨number, Nat.le_trans hle keeps.numbers, hid⟩, fun lease hlookup => ?_⟩
  rw [hid] at hlookup
  obtain ⟨old, hold, hsame⟩ := keeps.leases number hle lease hlookup
  rw [hsame]
  exact backed.reserved old (hid ▸ hold)

theorem keys_reservations (groups : List LeaseCounterGroup) :
    (groups.flatMap fun group => group.counterKeys.map fun key =>
      QuotaReservation.mk key group.amount).map QuotaReservation.counterKey =
      leasedCounters groups := by
  rw [List.map_flatMap]
  unfold leasedCounters
  congr 1
  funext group
  rw [List.map_map]
  exact List.map_id _

/-- What the limiter takes off a lease is there, counter by counter. -/
theorem MadeFor.lawful {settle : QuotaSettleRequest} (made : MadeFor backend (.settle settle))
    (backed : Backed s backend) (lease : ServerLease)
    (hlease : s.leases.lookup settle.leaseId = some lease) (key amount : UInt32)
    (hamount : lease.reservations.lookup key = some amount) :
    ∃ total, (Table.collect RemoteQuotaConsumption.counterKey
      RemoteQuotaConsumption.consumedTotal settle.consumptions).lookup key = some total ∧
      total ≤ amount := by
  have hid : settle.leaseId = backend.leaseId := made.leaseId
  have hcounters : settle.consumptions.map RemoteQuotaConsumption.counterKey =
    leasedCounters backend.groups := made.counters
  rw [backed.reserved lease (hid ▸ hlease),
    lookup_newLease (by rw [keys_reservations]; exact made.distinct)] at hamount
  obtain ⟨group, hgroup, hreservation⟩ := List.mem_flatMap.mp hamount
  obtain ⟨other, hkey, heq⟩ := List.mem_map.mp hreservation
  cases heq
  have hmem : key ∈ settle.consumptions.map RemoteQuotaConsumption.counterKey := by
    rw [hcounters]
    exact List.mem_flatMap.mpr ⟨group, hgroup, hkey⟩
  obtain ⟨consumption, hconsumption, rfl⟩ := List.mem_map.mp hmem
  obtain ⟨owner, howner, hown, hle⟩ := made.reserved consumption hconsumption
  obtain rfl := group_unique made.distinct hgroup howner hkey hown
  refine ⟨consumption.consumedTotal, ?_, hle⟩
  have hnodup : (settle.consumptions.map RemoteQuotaConsumption.counterKey).Nodup := by
    rw [hcounters]
    exact made.distinct
  rw [Table.lookup_collect, lastOfKeys_eq_self hnodup]
  exact ⟨consumption, hconsumption, rfl, rfl⟩

theorem handleLease_some {forfeits : List ServerLease} (books : Books s forfeits)
    {request : LeaseRequest} (made : MadeFor backend request) (backed : Backed s backend) :
    ∃ after, s.handleLease request = some after := by
  cases request with
  | update update => exact ⟨_, rfl⟩
  | settle settle =>
      obtain ⟨result, hresult⟩ := handleSettle_some books (made.lawful backed)
      exact ⟨result.1, by rw [ServerState.handleLease, hresult]; rfl⟩

theorem madeFor_request {reservations : List QuotaAmount} {totals : List QuotaConsumption}
    {settles : Bool} {sequence : Nat} {serverTimestamp : Int} {request : LeaseRequest}
    (distinct : (leasedCounters backend.groups).Nodup) (within : Within reservations totals)
    (reserved : ∀ group ∈ backend.groups, amountOf reservations group.resource =
      some group.amount)
    (h : backend.request settles totals sequence serverTimestamp = .ok request) :
    MadeFor backend request := by
  obtain ⟨-, -, hlease, hremote⟩ := request_spec h
  refine ⟨distinct, hlease, keys_expandConsumptions hremote, fun new hnew => ?_⟩
  obtain ⟨group, hgroup, hkey, htotal⟩ := mem_expandConsumptions hremote new hnew
  obtain ⟨amount, hamount, hle⟩ := within.total_le htotal
  obtain rfl := Option.some.inj ((reserved group hgroup).symm.trans hamount)
  exact ⟨group, hgroup, hkey, hle⟩

theorem madeFor_log {lease : QuotaLease} {wire : WireSystem} (leased : LeasedBy lease backend)
    (inv : WireInv lease backend wire) :
    ∀ exchange ∈ wire.log, MadeFor backend exchange.request := by
  intro exchange hmem
  obtain ⟨before, after, hlog⟩ := List.append_of_mem hmem
  have hbefore : EachEvent (Made lease backend) before := by
    intro first earlier rest hsplit
    refine inv.made first earlier (rest ++ exchange :: after) ?_
    rw [hlog, hsplit, List.append_assoc]
    rfl
  have orderly := orderly_of_made leased hbefore (inv.made before exchange after hlog)
  exact ⟨leased.distinct, orderly.leaseId, orderly.counters, orderly.reserved⟩

end Requests

/-! ## Openings -/

section Opening

theorem distributed_mem {env : CallEnv} {req : QuotaRequest} {rules : List RateLimitRule}
    {state : LocalQuotaState} {call : QuotaCall} {lease : QuotaLease}
    (asks : distributedSpecs env req rules ≠ [])
    (h : reserveQuotas env (fun _ => .ok .reserved) state req rules = (call, .ok lease)) :
    .distributed ∈ lease.backends := by
  have hasked : ¬ (distributedSpecs env req rules).isEmpty = true := by
    rwa [List.isEmpty_iff]
  unfold reserveQuotas reserveDistributed at h
  rw [if_neg hasked] at h
  simp only at h
  cases heach : reserveEach env req id ⟨state, []⟩ [.distributed] (localSpecs env req rules) with
  | mk after result =>
      rw [heach] at h
      cases result with
      | error err => cases h
      | ok held =>
          cases h
          exact (reserveEach_extends heach).subset List.mem_cons_self

variable (self : LeaseOpening)

theorem LeaseOpening.distinct : (leasedCounters self.groups).Nodup := by
  obtain ⟨ensureWindow, hbuilt⟩ := self.built
  exact (nodup_leaseGroups hbuilt).1

theorem LeaseOpening.granted_clients (leaseId : String) (serverTimestamp : Int) :
    ∀ client ∈ (self.granted leaseId serverTimestamp).1,
      client.backend = self.backend leaseId ∧ LeasedBy client.lease client.backend ∧
        WireInv client.lease client.backend client.wire := by
  intro client hclient
  unfold LeaseOpening.granted at hclient
  rcases hreserved : reserveQuotas self.env (fun _ => .ok .reserved) self.state self.req
    self.rules with ⟨call, result⟩
  rw [hreserved] at hclient
  cases result with
  | error err =>
      simp only at hclient
      split at hclient
      · cases hclient
      · cases hclient
  | ok lease =>
      obtain rfl := List.mem_singleton.mp hclient
      obtain ⟨ensureWindow, hbuilt⟩ := self.built
      exact ⟨rfl, @leasedBy_reserveQuotas _ _ _ _ _ _ _ (self.backend leaseId) _ self.valid
        hreserved (distributed_mem self.asks hreserved) _ hbuilt, wireInv_opened call⟩

theorem LeaseOpening.granted_requests (leaseId : String) (serverTimestamp : Int) :
    ∀ request ∈ (self.granted leaseId serverTimestamp).2,
      MadeFor (self.backend leaseId) request := by
  intro request hrequest
  unfold LeaseOpening.granted at hrequest
  rcases hreserved : reserveQuotas self.env (fun _ => .ok .reserved) self.state self.req
    self.rules with ⟨call, result⟩
  rw [hreserved] at hrequest
  cases result with
  | ok lease => cases hrequest
  | error err =>
      simp only at hrequest
      split at hrequest
      · rename_i settle hsettle
        obtain rfl := List.mem_singleton.mp hrequest
        obtain ⟨ensureWindow, hbuilt⟩ := self.built
        exact madeFor_request self.distinct (within_initial (checkValid_positive self.valid))
          (amountOf_leaseGroups self.valid hbuilt) hsettle
      · cases hrequest

end Opening

/-! ## Every run -/

/-- After moves with these totals the limiter is there, its books are kept, and what clients have
sent or will send is for leases it has granted. -/
structure LimiterSound (seen : List QuotaTotal) (s : LimiterSystem) (limiter : Limiter) :
    Prop where
  running : s.limiter = some limiter
  books : Books limiter.server limiter.forfeits
  counted : limiter.server.counters.rows.length = seen.length
  totals : ∀ key counter, limiter.server.counters.lookup key = some counter →
    ∃ total ∈ seen, counter.maxAmount = total.maxAmount
  clients : ∀ client ∈ s.clients, Backed limiter.server client.backend ∧
    LeasedBy client.lease client.backend ∧ WireInv client.lease client.backend client.wire
  sent : ∀ request ∈ s.sent, ∃ backend, Backed limiter.server backend ∧ MadeFor backend request

section Sound

variable {seen totals : List QuotaTotal} {s : LimiterSystem} {limiter : Limiter}

theorem sound_start : LimiterSound [] .start .new where
  running := rfl
  books := books_new
  counted := rfl
  totals := fun _ _ h => by cases h
  clients := fun _ h => absurd h List.not_mem_nil
  sent := fun _ h => absurd h List.not_mem_nil

theorem LimiterSound.handled (sound : LimiterSound seen s limiter) {next : Limiter}
    (books : Books next.server next.forfeits) (keeps : Keeps limiter.server next.server)
    (same : SameTotals limiter.server next.server) :
    LimiterSound seen { s with limiter := some next } next where
  running := rfl
  books := books
  counted := same.length.trans sound.counted
  totals := fun key counter hcounter => by
    obtain ⟨old, hold, hmax⟩ := same.totals key counter hcounter
    rw [hmax]
    exact sound.totals key old hold
  clients := fun client hclient => by
    obtain ⟨hbacked, hleased, hinv⟩ := sound.clients client hclient
    exact ⟨hbacked.kept keeps, hleased, hinv⟩
  sent := fun request hrequest => by
    obtain ⟨backend, hbacked, hmade⟩ := sound.sent request hrequest
    exact ⟨backend, hbacked.kept keeps, hmade⟩

theorem sound_init (sound : LimiterSound seen s limiter)
    (room : 100 + (seen ++ totals).length < 2 ^ 32) :
    ∃ next, LimiterSound (seen ++ totals) (s.step (.init totals)) next := by
  rw [List.length_append] at room
  have hfirst : limiter.server.firstCounterKey = 100 + seen.length := by
    rw [ServerState.firstCounterKey, sound.counted]
  have hroom : limiter.server.firstCounterKey < 2 ^ 32 ∧
      limiter.server.firstCounterKey + totals.length ≤ 2 ^ 32 := by
    rw [hfirst]
    omega
  have hinit : ∃ answer, limiter.server.handleInit totals = some answer := by
    unfold ServerState.handleInit
    simp only [if_pos hroom]
    exact ⟨_, rfl⟩
  obtain ⟨⟨server, response⟩, hanswer⟩ := hinit
  have hbooks := books_handleInit sound.books hanswer
  obtain ⟨fits, rfl⟩ := handleInit_cases hanswer
  obtain ⟨-, -, hentries⟩ := countersFrom_spec fits
  obtain ⟨hlength, hlookup, -⟩ := countersFrom_added fits sound.books.fresh
  refine ⟨⟨_, limiter.forfeits⟩, ?_, hbooks, ?_, ?_, ?_, ?_⟩
  · simp only [LimiterSystem.step, sound.running, Option.bind_some, Limiter.handle, hanswer,
      Option.map_some]
  · rw [hlength, sound.counted, List.length_append]
  · intro key counter hcounter
    rcases hlookup key counter hcounter with hold | ⟨-, hnew⟩
    · obtain ⟨total, htotal, hmax⟩ := sound.totals key counter hold
      exact ⟨total, List.mem_append_left _ htotal, hmax⟩
    · obtain ⟨total, htotal, hmax⟩ := (hentries (key, counter) hnew).2.2.2.2
      exact ⟨total, List.mem_append_right _ htotal, hmax⟩
  · intro client hclient
    obtain ⟨hbacked, hleased, hinv⟩ := sound.clients client hclient
    exact ⟨⟨hbacked.numbered, hbacked.reserved⟩, hleased, hinv⟩
  · intro request hrequest
    obtain ⟨backend, hbacked, hmade⟩ := sound.sent request hrequest
    exact ⟨backend, ⟨hbacked.numbered, hbacked.reserved⟩, hmade⟩

theorem reserveOutcome_reserved {response : QuotaReserveResponse} {leaseId : String}
    (h : reserveOutcome (.ok ⟨.known .reserve, some response⟩) = .ok (.reserved leaseId)) :
    response.code = rateLimitSuccessCode ∧ response.leaseId = leaseId := by
  unfold reserveOutcome at h
  simp only at h
  split at h
  · cases h
  · rename_i hcode
    split at h
    · cases h
    · cases h
      exact ⟨not_not.mp hcode, rfl⟩

theorem sound_reserved (sound : LimiterSound seen s limiter) (opening : LeaseOpening)
    (heard : Bool) (serverTimestamp : Int) {response : QuotaReserveResponse}
    (granted : response.code = rateLimitSuccessCode →
      Backed limiter.server (opening.backend response.leaseId)) :
    LimiterSound seen (s.reserved opening heard serverTimestamp response) limiter := by
  unfold LimiterSystem.reserved
  split
  · split
    · rename_i leaseId houtcome
      obtain ⟨hcode, rfl⟩ := reserveOutcome_reserved houtcome
      have hbacked := granted hcode
      refine ⟨sound.running, sound.books, sound.counted, sound.totals, ?_, ?_⟩
      · intro client hclient
        rcases List.mem_append.mp hclient with hold | hnew
        · exact sound.clients client hold
        · obtain ⟨hbackend, hleased, hinv⟩ := opening.granted_clients _ _ client hnew
          exact ⟨hbackend ▸ hbacked, hleased, hinv⟩
      · intro request hrequest
        rcases List.mem_append.mp hrequest with hold | hnew
        · exact sound.sent request hold
        · exact ⟨_, hbacked, opening.granted_requests _ _ request hnew⟩
    · exact sound
  · exact sound

theorem sound_reserve (sound : LimiterSound seen s limiter) (opening : LeaseOpening)
    (heard : Bool) (serverTimestamp : Int)
    (small : ∀ total ∈ seen, total.maxAmount.toNat < CounterArith.u32Max) :
    ∃ next, LimiterSound seen (s.step (.reserve opening heard serverTimestamp)) next := by
  have hnodup : (opening.request.reservations.map QuotaReservation.counterKey).Nodup := by
    have hkeys : opening.request.reservations.map QuotaReservation.counterKey =
        leasedCounters opening.groups := keys_reservations opening.groups
    rw [hkeys]
    exact opening.distinct
  have hreserve := @handleReserve_some limiter.server opening.request.reservations hnodup (by
    intro key counter hcounter
    obtain ⟨total, htotal, hmax⟩ := sound.totals key counter hcounter
    rw [hmax]
    exact small total htotal)
  obtain ⟨⟨server, response⟩, hanswer⟩ := hreserve
  obtain ⟨hkeeps, hsame, hgranted⟩ := handleReserve_kept hnodup hanswer
  have hhandled := @LimiterSound.handled _ _ _ sound ⟨server, limiter.forfeits⟩
    (books_handleReserve sound.books hnodup hanswer) hkeeps hsame
  refine ⟨⟨server, limiter.forfeits⟩, ?_⟩
  simp only [LimiterSystem.step, sound.running, hanswer]
  apply sound_reserved hhandled
  intro hcode
  obtain ⟨hid, hlookup⟩ := hgranted hcode
  refine ⟨⟨server.nextLease, Nat.le_refl _, hid⟩, fun lease hlease => ?_⟩
  obtain rfl := Option.some.inj (hlookup.symm.trans hlease)
  rfl

theorem sound_client (sound : LimiterSound seen s limiter) (index : Nat) (move : WireMove) :
    LimiterSound seen (s.step (.client index move)) limiter := by
  cases hclient : s.clients[index]? with
  | none =>
      simp only [LimiterSystem.step, hclient]
      exact sound
  | some client =>
      simp only [LimiterSystem.step, hclient]
      obtain ⟨hbacked, hleased, hinv⟩ := sound.clients client (List.mem_of_getElem? hclient)
      have hnext : WireInv client.lease client.backend
          (wireStep client.env client.lease client.backend client.wire move) :=
        wireInv_step hleased.leased hinv move
      refine ⟨sound.running, sound.books, sound.counted, sound.totals, ?_, ?_⟩
      · intro other hother
        rcases List.mem_or_eq_of_mem_set hother with hold | rfl
        · exact sound.clients other hold
        · exact ⟨hbacked, hleased, hnext⟩
      · intro request hrequest
        rcases List.mem_append.mp hrequest with hold | hnew
        · exact sound.sent request hold
        · obtain ⟨exchange, hexchange, rfl⟩ := List.mem_map.mp hnew
          exact ⟨_, hbacked, madeFor_log hleased hnext exchange (List.mem_of_mem_drop hexchange)⟩

theorem sound_deliver (sound : LimiterSound seen s limiter) (index : Nat) :
    ∃ next, LimiterSound seen (s.step (.deliver index)) next := by
  cases hrequest : s.sent[index]? with
  | none =>
      simp only [LimiterSystem.step, hrequest]
      exact ⟨limiter, sound⟩
  | some request =>
      obtain ⟨backend, hbacked, hmade⟩ := sound.sent request (List.mem_of_getElem? hrequest)
      obtain ⟨server, hserver⟩ := handleLease_some sound.books hmade hbacked
      obtain ⟨hkeeps, hsame⟩ := handleLease_kept hserver
      refine ⟨⟨server, limiter.forfeits ++ limiter.server.forfeited request⟩, ?_⟩
      simp only [LimiterSystem.step, hrequest, sound.running, Option.bind_some, Limiter.handle,
        hserver, Option.map_some]
      exact @LimiterSound.handled _ _ _ sound
        ⟨server, limiter.forfeits ++ limiter.server.forfeited request⟩
        (books_handleLease sound.books hserver) hkeeps hsame

theorem sound_step (sound : LimiterSound seen s limiter) (move : LimiterMove)
    (small : ∀ total ∈ seen, total.maxAmount.toNat < CounterArith.u32Max)
    (room : 100 + (seen ++ move.totals).length < 2 ^ 32) :
    ∃ next, LimiterSound (seen ++ move.totals) (s.step move) next := by
  cases move with
  | init totals => exact sound_init sound room
  | reserve opening heard serverTimestamp =>
      rw [LimiterMove.totals, List.append_nil]
      exact sound_reserve sound opening heard serverTimestamp small
  | client index move =>
      rw [LimiterMove.totals, List.append_nil]
      exact ⟨limiter, sound_client sound index move⟩
  | deliver index =>
      rw [LimiterMove.totals, List.append_nil]
      exact sound_deliver sound index

theorem sound_run (sound : LimiterSound seen s limiter) (moves : List LimiterMove)
    (small : ∀ total ∈ seen ++ moves.flatMap LimiterMove.totals,
      total.maxAmount.toNat < CounterArith.u32Max)
    (room : 100 + (seen ++ moves.flatMap LimiterMove.totals).length < 2 ^ 32) :
    ∃ last, LimiterSound (seen ++ moves.flatMap LimiterMove.totals)
      (run LimiterSystem.step s moves) last := by
  induction moves generalizing seen s limiter with
  | nil =>
      rw [List.flatMap_nil, List.append_nil]
      exact ⟨limiter, sound⟩
  | cons move moves ih =>
      rw [List.flatMap_cons, ← List.append_assoc] at small room ⊢
      have hstep := sound_step sound move
        (fun total htotal => small total (List.mem_append_left _ (List.mem_append_left _ htotal)))
        (by rw [List.length_append] at room; omega)
      obtain ⟨next, hnext⟩ := hstep
      exact ih hnext small room

end Sound

/-- However leases are reserved, used and dropped, and whenever their requests come in, the limiter
does not panic, provided that its totals are below the greatest word and its counters have keys.
Its books are kept, and it knows each client's lease with the reservations that the client made
or does not know it any more. -/
theorem limiter_never_panics {moves : List LimiterMove}
    (small : ∀ total ∈ moves.flatMap LimiterMove.totals,
      total.maxAmount.toNat < CounterArith.u32Max)
    (room : 100 + (moves.flatMap LimiterMove.totals).length < 2 ^ 32) :
    ∃ limiter, (run LimiterSystem.step .start moves).limiter = some limiter ∧
      Books limiter.server limiter.forfeits ∧
      ∀ client ∈ (run LimiterSystem.step .start moves).clients,
        Backed limiter.server client.backend := by
  obtain ⟨limiter, sound⟩ := sound_run sound_start moves small room
  exact ⟨limiter, sound.running, sound.books, fun client hclient =>
    (sound.clients client hclient).1⟩

def ordersOpening : LeaseOpening where
  env := .decimal
  req := ordersRequest [⟨.token, 40⟩]
  rules := [sharedRule]
  state := LocalQuotaState.empty
  clientKey := 7
  groups := [⟨.token, 40, .consumable, [100]⟩]
  valid := by decide +kernel
  asks := by decide +kernel
  built := ⟨fun _ => .ok (7, [100]), by decide +kernel⟩

/-- The answer to an update is lost, so that the settlement of the drop has the number of the
update, and the limiter forgets the lease with its forty tokens. -/
def updateThenDrop : List LimiterMove :=
  [.init [⟨.whole, 1, 100, .consumable⟩], .reserve ordersOpening true 0,
    .client 0 (.call (.update 20) 1 (.dropped true)), .client 0 (.drop 2 (.dropped true)),
    .deliver 0, .deliver 1]

theorem update_then_drop_forfeits :
    ∃ limiter : Limiter,
      (run LimiterSystem.step .start updateThenDrop).limiter = some limiter ∧
      Books limiter.server limiter.forfeits ∧
      limiter.server.counters.lookup 100 = some ⟨100, .consumable, 0, 40⟩ ∧
      limiter.forfeits.length = 1 := by
  have hrun : (run LimiterSystem.step .start updateThenDrop).limiter.map (fun limiter =>
      (limiter.server.counters.lookup 100, limiter.forfeits.length)) =
      some (some ⟨100, .consumable, 0, 40⟩, 1) := by decide +kernel
  obtain ⟨limiter, hlimiter, hcounter⟩ := Option.map_eq_some_iff.mp hrun
  obtain ⟨other, hother, hbooks, -⟩ := @limiter_never_panics updateThenDrop (by decide) (by decide)
  obtain rfl := Option.some.inj (hlimiter.symm.trans hother)
  obtain ⟨hlookup, hforfeits⟩ := Prod.mk.inj hcounter
  exact ⟨limiter, hlimiter, hbooks, hlookup, hforfeits⟩

end PoleClient.RateLimit
