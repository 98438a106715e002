import PoleClient.Core.Joined
import PoleClient.RateLimit.LocalCounter

/-! # Which reservations share a counter

Windows and occupancy counters are kept under texts that join the names of a
reservation, the length of its window and the digests of its captured request
parameters by `#`. The digest is a parameter; its hexadecimal text is written
out.
-/

namespace PoleClient.RateLimit

open Lib Text

/-! ## Reservations and what they are charged to -/

structure Reservation where
  req : QuotaRequest
  rule : RateLimitRule
  trigger : LimitTrigger

/-- `{:x}` of a digest. -/
def hexText (digest : List UInt8) : String :=
  String.ofList (digest.flatMap fun byte =>
    [Nat.digitChar (byte.toNat / 16), Nat.digitChar (byte.toNat % 16)])

inductive Counter where
  | window (key : String)
  | occupancy (key : String)
deriving DecidableEq, Repr

/-- What a granted reservation is charged to: a window of a length, or an occupancy counter. -/
def charges (trigger : LimitTrigger) : List (Option Nat) :=
  match trigger.resource with
  | .qps | .token => (positiveAmounts trigger).map fun amount => some (amountDuration amount)
  | .concurrency =>
      match trigger.concurrencyAmount with
      | none => []
      | some limit => if limit = 0 then [] else [none]
  | .other => []

namespace Reservation

variable (sha256 : String → List UInt8)

def counter (self : Reservation) : Option Nat → Counter
  | some seconds =>
      .window (quotaCounterKey (fun text => hexText (sha256 text)) self.req self.rule self.trigger
        seconds)
  | none =>
      .occupancy (concurrencyCounterKey (fun text => hexText (sha256 text)) self.req self.rule
        self.trigger)

/-- The captured request parameters, with their values. -/
def captured (self : Reservation) : List (MatchArgumentType × String × String) :=
  self.trigger.arguments.filterMap fun argument =>
    argument.value.bind fun value =>
      if value.valueType.get ≠ .parameter || !value.value.isEmpty then none
      else
        (self.req.trafficLabelProvider (ratelimitArgumentType argument.type) argument.key).map
          fun actual => (argument.type, argument.key, actual)

end Reservation

/-- Two charges that belong to one budget. -/
structure SameBucket (r s : Reservation) (first second : Option Nat) : Prop where
  namespaceName : r.req.namespaceName = s.req.namespaceName
  service : r.req.service = s.req.service
  method : r.req.method = s.req.method
  ruleId : r.rule.id = s.rule.id
  triggerName : r.trigger.name = s.trigger.name
  resource : r.trigger.resource = s.trigger.resource
  duration : first = second
  parameters : r.captured.Perm s.captured

/-- No counter of one reservation is one of the other, unless both belong to one budget. -/
def Isolated (sha256 : String → List UInt8) (r s : Reservation) : Prop :=
  ∀ first ∈ charges r.trigger, ∀ second ∈ charges s.trigger,
    r.counter sha256 first = s.counter sha256 second → SameBucket r s first second

/-! ## Keys as joined texts -/

def dimensionName (parameter : MatchArgumentType × String × String) : String :=
  parameter.1.debugName ++ "." ++ parameter.2.1

def dimensionText (sha256 : String → List UInt8)
    (parameter : MatchArgumentType × String × String) : String :=
  dimensionName parameter ++ "=" ++ hexText (sha256 parameter.2.2)

/-- The captured parameters in the order of their names. -/
def sortedParameters (r : Reservation) : List (MatchArgumentType × String × String) :=
  r.captured.insertionSort fun left right => dimensionName left ≤ dimensionName right

def lastName : Option Nat → String
  | some seconds => toString seconds
  | none => "concurrency"

def keyNames (sha256 : String → List UInt8) (r : Reservation) (charge : Option Nat) :
    List String :=
  r.req.namespaceName :: r.req.service :: r.req.method :: r.rule.id :: r.trigger.name ::
    lastName charge :: (sortedParameters r).map (dimensionText sha256)

def counterOf (charge : Option Nat) (key : String) : Counter :=
  match charge with
  | some _ => .window key
  | none => .occupancy key

section Keys

variable (sha256 : String → List UInt8) (r : Reservation)

theorem keyNames_ne_nil (charge : Option Nat) : keyNames sha256 r charge ≠ [] :=
  List.cons_ne_nil _ _

theorem dimensions_eq :
    requestParameterDimensions (fun text => hexText (sha256 text)) r.req r.trigger =
      r.captured.map fun parameter =>
        (dimensionName parameter, hexText (sha256 parameter.2.2)) := by
  rw [requestParameterDimensions, Reservation.captured, List.map_filterMap]
  congr 1
  funext argument
  cases argument.value with
  | none => rfl
  | some value =>
      simp only [Option.bind_some]
      split
      · rfl
      · rw [Option.map_map]
        rfl

theorem suffix_eq :
    requestParameterDimensionSuffix (fun text => hexText (sha256 text)) r.req r.trigger =
      String.join (((sortedParameters r).map (dimensionText sha256)).map fun name =>
        String.singleton '#' ++ name) := by
  have hsort : (requestParameterDimensions (fun text => hexText (sha256 text)) r.req
      r.trigger).insertionSort (fun left right => left.1 ≤ right.1) =
        (sortedParameters r).map fun parameter =>
          (dimensionName parameter, hexText (sha256 parameter.2.2)) := by
    rw [dimensions_eq]
    exact (List.map_insertionSort _ _ (fun parameter =>
      (dimensionName parameter, hexText (sha256 parameter.2.2))) r.captured
      fun _ _ _ _ => Iff.rfl).symm
  rw [requestParameterDimensionSuffix, hsort, List.map_map, List.map_map]
  simp only [Function.comp_def, dimensionText, ← String.append_assoc]
  rfl

theorem join_keyNames (charge : Option Nat) :
    join '#' (keyNames sha256 r charge) =
      counterKeyHead r.req r.rule r.trigger ++ lastName charge ++
        requestParameterDimensionSuffix (fun text => hexText (sha256 text)) r.req r.trigger := by
  rw [suffix_eq, keyNames, join_cons_cons, join_cons_cons, join_cons_cons, join_cons_cons,
    join_cons_cons, join_cons, counterKeyHead]
  simp only [String.append_assoc]
  rfl

theorem counter_eq (charge : Option Nat) :
    r.counter sha256 charge = counterOf charge (join '#' (keyNames sha256 r charge)) := by
  rw [join_keyNames]
  cases charge with
  | some seconds => rfl
  | none => rfl

end Keys

/-! ## What a key determines -/

theorem digitChar_inj : ∀ m < 16, ∀ n < 16, Nat.digitChar m = Nat.digitChar n → m = n := by
  decide

theorem digits_lt (byte : UInt8) : byte.toNat / 16 < 16 ∧ byte.toNat % 16 < 16 := by
  have hbyte := byte.toNat_lt
  omega

theorem byte_eq_of_digits {first second : UInt8}
    (hhigh : Nat.digitChar (first.toNat / 16) = Nat.digitChar (second.toNat / 16))
    (hlow : Nat.digitChar (first.toNat % 16) = Nat.digitChar (second.toNat % 16)) :
    first = second := by
  have hhigh := digitChar_inj _ (digits_lt first).1 _ (digits_lt second).1 hhigh
  have hlow := digitChar_inj _ (digits_lt first).2 _ (digits_lt second).2 hlow
  apply UInt8.toNat_inj.mp
  omega

theorem hexText_injective : Function.Injective hexText := by
  intro first second h
  have hlist := congrArg String.toList h
  simp only [hexText, String.toList_ofList] at hlist
  clear h
  induction first generalizing second with
  | nil =>
      cases second with
      | nil => rfl
      | cons byte second => cases hlist
  | cons byte first ih =>
      cases second with
      | nil => cases hlist
      | cons other second =>
          simp only [List.flatMap_cons, List.cons_append, List.nil_append, List.cons.injEq]
            at hlist
          obtain ⟨hhigh, hlow, hrest⟩ := hlist
          rw [byte_eq_of_digits hhigh hlow, ih hrest]

theorem mem_hexText {digest : List UInt8} {c : Char} (h : c ∈ (hexText digest).toList) :
    ∃ n < 16, Nat.digitChar n = c := by
  rw [hexText, String.toList_ofList, List.mem_flatMap] at h
  obtain ⟨byte, -, hbyte⟩ := h
  simp only [List.mem_cons, List.not_mem_nil, or_false] at hbyte
  rcases hbyte with rfl | rfl
  · exact ⟨_, (digits_lt byte).1, rfl⟩
  · exact ⟨_, (digits_lt byte).2, rfl⟩

theorem equals_notMem_hexText (digest : List UInt8) : '=' ∉ (hexText digest).toList := by
  intro h
  obtain ⟨n, hn, heq⟩ := mem_hexText h
  exact absurd heq ((by decide : ∀ n < 16, Nat.digitChar n ≠ '=') n hn)

theorem hash_notMem_hexText (digest : List UInt8) : '#' ∉ (hexText digest).toList := by
  intro h
  obtain ⟨n, hn, heq⟩ := mem_hexText h
  exact absurd heq ((by decide : ∀ n < 16, Nat.digitChar n ≠ '#') n hn)

theorem debugName_injective : Function.Injective MatchArgumentType.debugName := by
  intro first second h
  cases first <;> cases second <;> first | rfl | exact absurd h (by decide)

theorem hash_notMem_debugName (type : MatchArgumentType) : '#' ∉ type.debugName.toList := by
  cases type <;> decide

theorem dot_notMem_debugName (type : MatchArgumentType) : '.' ∉ type.debugName.toList := by
  cases type <;> decide

theorem dimensionName_inj {first second : MatchArgumentType × String × String}
    (h : dimensionName first = dimensionName second) :
    first.1 = second.1 ∧ first.2.1 = second.2.1 := by
  have hlist := congrArg String.toList h
  simp only [dimensionName, String.toList_append, List.append_assoc] at hlist
  obtain ⟨htype, hkey⟩ := eq_of_append_sep (dot_notMem_debugName first.1)
    (dot_notMem_debugName second.1) hlist
  exact ⟨debugName_injective (String.toList_inj.mp htype), String.toList_inj.mp hkey⟩

variable {sha256 : String → List UInt8}

theorem dimensionText_injective (injective : Function.Injective sha256) :
    Function.Injective (dimensionText sha256) := by
  intro first second h
  have hlist := congrArg String.toList h
  simp only [dimensionText, String.toList_append, List.append_assoc] at hlist
  obtain ⟨hname, hvalue⟩ := eq_of_append_sep_last (equals_notMem_hexText _)
    (equals_notMem_hexText _) hlist
  obtain ⟨htype, hkey⟩ := dimensionName_inj (String.toList_inj.mp hname)
  have hactual := injective (hexText_injective (String.toList_inj.mp hvalue))
  exact Prod.ext htype (Prod.ext hkey hactual)

theorem captured_value {r : Reservation} {first second : MatchArgumentType × String × String}
    (hfirst : first ∈ r.captured) (hsecond : second ∈ r.captured)
    (h : dimensionName first = dimensionName second) : first = second := by
  have hvalue : ∀ parameter ∈ r.captured,
      r.req.trafficLabelProvider (ratelimitArgumentType parameter.1) parameter.2.1 =
        some parameter.2.2 := by
    intro parameter hparameter
    obtain ⟨argument, -, hargument⟩ := List.mem_filterMap.mp hparameter
    obtain ⟨value, -, hvalue⟩ := Option.bind_eq_some_iff.mp hargument
    split at hvalue
    · cases hvalue
    · obtain ⟨actual, hactual, rfl⟩ := Option.map_eq_some_iff.mp hvalue
      exact hactual
  obtain ⟨htype, hkey⟩ := dimensionName_inj h
  have hsame := hvalue first hfirst
  rw [htype, hkey, hvalue second hsecond] at hsame
  exact Prod.ext htype (Prod.ext hkey (Option.some.inj hsame).symm)

theorem sortedParameters_perm (r : Reservation) : (sortedParameters r).Perm r.captured :=
  List.perm_insertionSort _ _

theorem sortedParameters_eq_iff (r s : Reservation) :
    sortedParameters r = sortedParameters s ↔ r.captured.Perm s.captured := by
  constructor
  · intro h
    exact (sortedParameters_perm r).symm.trans (h ▸ sortedParameters_perm s)
  · intro h
    have hanti : ∀ first second, first ∈ sortedParameters r → second ∈ sortedParameters s →
        dimensionName first ≤ dimensionName second → dimensionName second ≤ dimensionName first →
        first = second := by
      intro first second hfirst hsecond hle hge
      have hmem := h.mem_iff.mpr ((sortedParameters_perm s).mem_iff.mp hsecond)
      exact captured_value ((sortedParameters_perm r).mem_iff.mp hfirst) hmem
        (String.le_antisymm hle hge)
    exact List.Perm.eq_of_pairwise hanti (List.pairwise_insertionSort _ _)
      (List.pairwise_insertionSort _ _)
      ((sortedParameters_perm r).trans (h.trans (sortedParameters_perm s).symm))

/-! ## Isolation -/

/-- Charges of one kind whose names, cut at every `#`, give the same parts have the `#` in the
same places of the same names, and their triggers limit the same resource. -/
def LineUp (sha256 : String → List UInt8) (r s : Reservation) : Prop :=
  ∀ first ∈ charges r.trigger, ∀ second ∈ charges s.trigger, first.isSome = second.isSome →
    cut '#' (keyNames sha256 r first) = cut '#' (keyNames sha256 s second) →
      separators '#' (keyNames sha256 r first) = separators '#' (keyNames sha256 s second) ∧
        r.trigger.resource = s.trigger.resource

/-- No name of the reservation and no key of a captured parameter has a `#`. -/
structure Plain (r : Reservation) : Prop where
  namespaceName : '#' ∉ r.req.namespaceName.toList
  service : '#' ∉ r.req.service.toList
  method : '#' ∉ r.req.method.toList
  ruleId : '#' ∉ r.rule.id.toList
  triggerName : '#' ∉ r.trigger.name.toList
  parameters : ∀ parameter ∈ r.captured, '#' ∉ parameter.2.1.toList

theorem hash_notMem_toString (n : Nat) : '#' ∉ (toString n).toList := by
  intro h
  rw [Nat.toString_eq_repr, Nat.toList_repr] at h
  exact absurd (Nat.isDigit_of_mem_toDigits (by decide) (by decide) h) (by decide)

theorem plain_keyNames (sha256 : String → List UInt8) {r : Reservation} (plain : Plain r)
    (charge : Option Nat) : ∀ name ∈ keyNames sha256 r charge, '#' ∉ name.toList := by
  have hlast : '#' ∉ (lastName charge).toList := by
    cases charge with
    | some seconds => exact hash_notMem_toString seconds
    | none => decide
  have hdimension : ∀ parameter ∈ r.captured, '#' ∉ (dimensionText sha256 parameter).toList := by
    intro parameter hparameter h
    simp only [dimensionText, dimensionName, String.toList_append, List.mem_append] at h
    rcases h with (((htype | hdot) | hkey) | hequals) | hvalue
    · exact hash_notMem_debugName parameter.1 htype
    · exact absurd hdot (by decide)
    · exact plain.parameters parameter hparameter hkey
    · exact absurd hequals (by decide)
    · exact hash_notMem_hexText _ hvalue
  intro name hname
  simp only [keyNames, List.mem_cons, List.mem_map] at hname
  rcases hname with rfl | rfl | rfl | rfl | rfl | rfl | ⟨parameter, hparameter, rfl⟩
  · exact plain.namespaceName
  · exact plain.service
  · exact plain.method
  · exact plain.ruleId
  · exact plain.triggerName
  · exact hlast
  · exact hdimension parameter ((sortedParameters_perm r).mem_iff.mp hparameter)

/-- Reservations with plain names under triggers of one resource never share a budget. -/
theorem lineUp_of_plain (sha256 : String → List UInt8) {r s : Reservation} (hr : Plain r)
    (hs : Plain s) (resource : r.trigger.resource = s.trigger.resource) : LineUp sha256 r s := by
  intro first _ second _ _ hcut
  refine ⟨?_, resource⟩
  rw [cut_of_plain (plain_keyNames sha256 hr first),
    cut_of_plain (plain_keyNames sha256 hs second)] at hcut
  rw [List.map_injective_iff.mpr (fun _ _ => String.toList_inj.mp) hcut]

theorem counterOf_eq_iff {first second : Option Nat} {key other : String} :
    counterOf first key = counterOf second other ↔
      first.isSome = second.isSome ∧ key = other := by
  cases first <;> cases second <;> simp [counterOf]

theorem counter_eq_iff (r s : Reservation) (first second : Option Nat) :
    r.counter sha256 first = s.counter sha256 second ↔
      first.isSome = second.isSome ∧
        cut '#' (keyNames sha256 r first) = cut '#' (keyNames sha256 s second) := by
  rw [counter_eq, counter_eq, counterOf_eq_iff,
    join_eq_join_iff (keyNames_ne_nil sha256 r first) (keyNames_ne_nil sha256 s second)]

theorem lastName_inj {first second : Option Nat} (kind : first.isSome = second.isSome)
    (h : lastName first = lastName second) : first = second := by
  cases first with
  | none =>
      cases second with
      | none => rfl
      | some seconds => cases kind
  | some seconds =>
      cases second with
      | none => cases kind
      | some others => exact congrArg some (toString_nat_inj h)

/-- The names of a key and the resource are what a budget belongs to. -/
theorem sameBucket_iff (injective : Function.Injective sha256) {r s : Reservation}
    {first second : Option Nat} (kind : first.isSome = second.isSome) :
    SameBucket r s first second ↔
      keyNames sha256 r first = keyNames sha256 s second ∧
        r.trigger.resource = s.trigger.resource := by
  constructor
  · intro h
    refine ⟨?_, h.resource⟩
    rw [keyNames, keyNames, h.namespaceName, h.service, h.method, h.ruleId, h.triggerName,
      h.duration, (sortedParameters_eq_iff r s).mpr h.parameters]
  · rintro ⟨hnames, hresource⟩
    simp only [keyNames, List.cons.injEq] at hnames
    obtain ⟨hnamespace, hservice, hmethod, hid, hname, hlast, hdimensions⟩ := hnames
    have hsorted := List.map_injective_iff.mpr (dimensionText_injective injective) hdimensions
    exact ⟨hnamespace, hservice, hmethod, hid, hname, hresource, lastName_inj kind hlast,
      (sortedParameters_eq_iff r s).mp hsorted⟩

/-- Two reservations share no counter across budgets exactly if, wherever their names have the
same parts, the separators line up and the resources agree. -/
theorem isolated_iff (injective : Function.Injective sha256) (r s : Reservation) :
    Isolated sha256 r s ↔ LineUp sha256 r s := by
  constructor
  · intro h first hfirst second hsecond hkind hcut
    have hbucket := h first hfirst second hsecond ((counter_eq_iff r s first second).mpr
      ⟨hkind, hcut⟩)
    obtain ⟨hnames, hresource⟩ := (sameBucket_iff injective hkind).mp hbucket
    exact ⟨(eq_iff_separators hcut).mp hnames, hresource⟩
  · intro h first hfirst second hsecond hcounter
    obtain ⟨hkind, hcut⟩ := (counter_eq_iff r s first second).mp hcounter
    obtain ⟨hseparators, hresource⟩ := h first hfirst second hsecond hkind hcut
    exact (sameBucket_iff injective hkind).mpr
      ⟨(eq_iff_separators hcut).mpr hseparators, hresource⟩

def recordedDigest (text : String) : List UInt8 :=
  if text = "alice" then
    [0x2b, 0xd8, 0x06, 0xc9, 0x7f, 0x0e, 0x00, 0xaf, 0x1a, 0x1f, 0xc3, 0x32, 0x8f, 0xa7, 0x63,
      0xa9, 0x26, 0x97, 0x23, 0xc8, 0xdb, 0x8f, 0xac, 0x4f, 0x93, 0xaf, 0x71, 0xdb, 0x18, 0x6d,
      0x6e, 0x90]
  else 0 :: text.toUTF8.data.toList

theorem recordedDigest_injective : Function.Injective recordedDigest := by
  have hbytes : ∀ first second : String,
      first.toUTF8.data.toList = second.toUTF8.data.toList → first = second := by
    intro first second h
    exact String.toByteArray_inj.mp (ByteArray.ext (Array.toList_inj.mp h))
  intro first second h
  unfold recordedDigest at h
  split at h
  · rename_i hfirst
    split at h
    · rename_i hsecond
      rw [hfirst, hsecond]
    · simp at h
  · split at h
    · simp at h
    · exact hbytes first second (List.cons.inj h).2

def userReservation (resource : LimitResource) (service : String) : Reservation where
  req :=
    { namespaceName := "prod"
      service := service
      method := "pay"
      trafficLabelProvider := fun type key =>
        if type = .header ∧ key = "user" then some "alice" else none
      quotas := [⟨.qps, 1⟩]
      leaseTtl := nanosPerSecond }
  rule := ⟨"r1", 0, false, .localCount, [], none⟩
  trigger :=
    { name := ""
      disable := false
      resource := resource
      amounts := [⟨10, none⟩]
      concurrencyAmount := none
      arguments := [⟨.header, "user", some ⟨.exact, "", .known .parameter⟩⟩]
      apis := []
      failover := .failoverLocal }

theorem userReservation_plain (resource : LimitResource) {service : String}
    (h : '#' ∉ service.toList) : Plain (userReservation resource service) where
  namespaceName := (by decide : '#' ∉ "prod".toList)
  service := h
  method := (by decide : '#' ∉ "pay".toList)
  ruleId := (by decide : '#' ∉ "r1".toList)
  triggerName := (by decide : '#' ∉ "".toList)
  parameters := by
    intro parameter hparameter
    obtain rfl := List.mem_singleton.mp hparameter
    decide

theorem userReservation_isolated :
    Isolated recordedDigest (userReservation .qps "orders") (userReservation .qps "payments") := by
  refine (isolated_iff recordedDigest_injective _ _).mpr (lineUp_of_plain recordedDigest ?_ ?_ rfl)
  · exact userReservation_plain .qps (by decide)
  · exact userReservation_plain .qps (by decide)

/-- The requests and the tokens of one rule are counted in one window. -/
theorem requests_charged_to_tokens : ¬ ∀ sha256 : String → List UInt8,
    Function.Injective sha256 → ∀ r s : Reservation, Isolated sha256 r s := by
  intro h
  have hisolated := h recordedDigest recordedDigest_injective (userReservation .qps "orders")
    (userReservation .token "orders")
  have hbucket := hisolated (some 1) List.mem_cons_self (some 1) List.mem_cons_self rfl
  exact absurd hbucket.resource (by decide)

/-! ## The charges of a granted reservation -/

theorem checkWindows_keys {arith : CounterArith} {now amount : Nat} {keyOf : Nat → String}
    {windows after : String → Option QuotaWindow} {limits : List Amount}
    {reservations : List LocalWindowReservation}
    (h : checkWindows arith now keyOf amount windows limits = (after, some reservations)) :
    reservations.map LocalWindowReservation.key =
      limits.map fun limit => keyOf (amountDuration limit) := by
  induction limits generalizing windows reservations with
  | nil =>
      simp only [checkWindows, Prod.mk.injEq, Option.some.injEq] at h
      rw [← h.2]
      rfl
  | cons limit limits ih =>
      simp only [checkWindows] at h
      split at h
      · cases h
      · rcases hrest : checkWindows arith now keyOf amount
          (Function.update windows (keyOf (amountDuration limit))
            (some (currentWindow now (amountDuration limit) windows
              (keyOf (amountDuration limit))))) limits with ⟨rest, found⟩
        rw [hrest] at h
        simp only [Prod.mk.injEq] at h
        obtain ⟨rfl, hfound⟩ := h
        obtain ⟨others, rfl, rfl⟩ := Option.map_eq_some_iff.mp hfound
        rw [List.map_cons, List.map_cons, ih hrest]

def LocalLeaseState.counters (lease : LocalLeaseState) : List Counter :=
  lease.windows.map (fun reservation => .window reservation.key) ++
    lease.concurrencyKey.toList.map .occupancy

theorem reserveConsumable_counters {arith : CounterArith} {env : QuotaEnv}
    (digest : env.sha256Hex = fun text => hexText (sha256 text)) {now : Nat}
    {state after : LocalQuotaState} {r : Reservation} {amount expiresAt : Nat}
    {asked backend : LocalLeaseBackend}
    (hstate : (reserveConsumable arith env now state r.req r.rule r.trigger amount expiresAt
      asked).1 = after)
    (hresult : (reserveConsumable arith env now state r.req r.rule r.trigger amount expiresAt
      asked).2 = .reserved backend) :
    ∃ lease, after.leases.lookup backend.leaseId = some lease ∧
      lease.counters =
        ((positiveAmounts r.trigger).map fun limit => some (amountDuration limit)).map
          (r.counter sha256) := by
  unfold reserveConsumable at hstate hresult
  split at hresult
  · cases hresult
  · rename_i hconfigured
    rw [if_neg hconfigured] at hstate
    rcases hcheck : checkWindows arith now (quotaCounterKey env.sha256Hex r.req r.rule r.trigger)
      amount state.windows (positiveAmounts r.trigger) with ⟨windows, _ | reservations⟩
    · rw [hcheck] at hresult
      cases hresult
    · rw [hcheck] at hresult hstate
      simp only at hstate hresult
      obtain rfl := LocalReserveResult.reserved.inj hresult
      rw [← hstate]
      refine ⟨_, by rw [AList.lookup_insert_ite, if_pos rfl], ?_⟩
      have hkeys := checkWindows_keys hcheck
      simp only [LocalLeaseState.counters, Option.toList_none, List.map_nil, List.append_nil,
        List.map_map]
      have hmap := congrArg (List.map Counter.window) hkeys
      rw [List.map_map, List.map_map] at hmap
      simpa [Function.comp_def, Reservation.counter, digest] using hmap

theorem reserveConcurrency_counters {arith : CounterArith} {env : QuotaEnv}
    (digest : env.sha256Hex = fun text => hexText (sha256 text))
    {state after : LocalQuotaState} {r : Reservation} {amount expiresAt : Nat}
    {asked backend : LocalLeaseBackend}
    (hstate : (reserveConcurrency arith env state r.req r.rule r.trigger amount expiresAt
      asked).1 = after)
    (hresult : (reserveConcurrency arith env state r.req r.rule r.trigger amount expiresAt
      asked).2 = .reserved backend) :
    ∃ lease, after.leases.lookup backend.leaseId = some lease ∧
      lease.counters =
        (match r.trigger.concurrencyAmount with
          | none => []
          | some limit => if limit = 0 then [] else [none]).map (r.counter sha256) := by
  unfold reserveConcurrency at hstate hresult
  cases hlimit : r.trigger.concurrencyAmount with
  | none =>
      rw [hlimit] at hresult
      cases hresult
  | some limit =>
      simp only [hlimit] at hresult hstate ⊢
      split at hresult
      · cases hresult
      · rename_i hpositive
        rw [if_neg hpositive] at hstate ⊢
        split at hresult
        · cases hresult
        · rename_i hroom
          rw [if_neg hroom] at hstate
          obtain rfl := LocalReserveResult.reserved.inj hresult
          rw [← hstate]
          refine ⟨_, by rw [AList.lookup_insert_ite, if_pos rfl], ?_⟩
          simp [LocalLeaseState.counters, Reservation.counter, digest]

theorem reserve_counters {arith : CounterArith} {env : QuotaEnv}
    (digest : env.sha256Hex = fun text => hexText (sha256 text)) {now : Nat}
    {state after : LocalQuotaState} {r : Reservation} {amount : Nat} {backend : LocalLeaseBackend}
    (h : reserve arith env now state r.req r.rule r.trigger amount =
      (after, .ok (.reserved backend))) :
    ∃ lease, after.leases.lookup backend.leaseId = some lease ∧
      lease.counters = (charges r.trigger).map (r.counter sha256) := by
  unfold reserve at h
  simp only at h
  split at h
  · cases h
  · cases hresource : r.trigger.resource with
    | qps =>
        simp only [hresource, Prod.mk.injEq, Except.ok.injEq] at h
        rw [charges, hresource]
        exact reserveConsumable_counters digest h.1 h.2
    | token =>
        simp only [hresource, Prod.mk.injEq, Except.ok.injEq] at h
        rw [charges, hresource]
        exact reserveConsumable_counters digest h.1 h.2
    | concurrency =>
        simp only [hresource, Prod.mk.injEq, Except.ok.injEq] at h
        rw [charges, hresource]
        exact reserveConcurrency_counters digest h.1 h.2
    | other => 
        simp [hresource] at h

end PoleClient.RateLimit
