import PoleClient.Cache.Model
import PoleClient.Core.WireText
import PoleClient.Traffic.LabelMatch
import PoleClient.Traffic.Sampling

/-! # Where a copy of a request goes

A mirror sender looks an instance of the destination up, writes its address down as a
URL and reads the URL again, as it does with the URLs that it was given. Nothing is lost
on the way: the copy goes to the address of the first instance that matches.
-/

namespace PoleClient

open Cache Text

abbrev LabelledDestination : Type := MirrorDestination (List (String × MatchString))

/-! ## The two senders -/

/-- The HTTP and the gRPC sender, which differ in the schemes that they read and in their texts. -/
inductive MirrorKind where
  | http
  | grpc
deriving DecidableEq, Repr

namespace MirrorKind

def protocol : MirrorKind → String
  | http => "http"
  | grpc => "grpc"

/-- Before the texts of the gRPC sender. -/
def label : MirrorKind → String
  | http => ""
  | grpc => "grpc "

/-- What is left of the URL after a scheme that the sender reads. -/
def stripScheme (baseUrl : String) : MirrorKind → Option String
  | http => stripPrefix baseUrl "http://"
  | grpc => (stripPrefix baseUrl "grpc://").or (stripPrefix baseUrl "http://")

end MirrorKind

/-- `HttpTarget` and `GrpcTarget`. -/
structure MirrorTarget where
  host : String
  port : UInt16
deriving DecidableEq, Repr

/-- A sender; the cache is there if it was made with one, and loads the instances of a service. -/
structure MirrorSender where
  kind : MirrorKind
  destinationBaseUrls : StringMap
  resourceCache : Option (String → String → Except PoleError ServiceInstancesCacheItem)

namespace MirrorSender

def withResourceCache (kind : MirrorKind)
    (cache : String → String → Except PoleError ServiceInstancesCacheItem) : MirrorSender :=
  ⟨kind, .empty, some cache⟩

end MirrorSender

/-! ## URLs -/

def mirrorInstanceMatches (regex : RegexEngine) (ins : Instance)
    (destination : LabelledDestination) : Bool :=
  ins.isAvailable && destination.labels.all fun label =>
    ((ins.metadata label.1).map fun actual => matchLabelValue regex label.2 actual).getD false

def mirrorInstanceBaseUrlWithProtocol (ins : Instance) (expectedProtocol : String) :
    Except PoleError String :=
  if ins.ip.isEmpty || ins.port == 0 then
    .error (.new .invalidServerResponse
      s!"invalid mirror destination instance address: {ins.ip}:{ins.port}")
  else
    let protocol := if ins.protocol.isEmpty then expectedProtocol else ins.protocol
    if protocol ≠ expectedProtocol then
      .error (.new .apiInvalidArgument s!"unsupported mirror destination protocol: {protocol}")
    else .ok s!"{expectedProtocol}://{ins.ip}:{ins.port}"

/-- `parse_http_base_url` and `parse_grpc_base_url`. -/
def parseBaseUrl (kind : MirrorKind) (baseUrl : String) : Except PoleError MirrorTarget := do
  let address ← (kind.stripScheme baseUrl).elim
    (.error (.new .apiInvalidArgument
      s!"only {kind.protocol} mirror destination is supported: {baseUrl}")) .ok
  let address := trimEndMatches address '/'
  let target ← match rsplitOnce address ':' with
    | some (host, port) =>
        match parseU16 port with
        | some port => .ok ⟨host, port⟩
        | none => .error (.new .apiInvalidArgument
            s!"invalid {kind.label}mirror destination port: {baseUrl}")
    | none => .ok ⟨address, 80⟩
  if target.host.isEmpty then
    throw (.new .apiInvalidArgument s!"invalid {kind.label}mirror destination host: {baseUrl}")
  return target

namespace MirrorSender

def destinationKey (destination : LabelledDestination) : String :=
  s!"{destination.namespaceName}#{destination.service}"

def resolveDestinationBaseUrl (sender : MirrorSender) (regex : RegexEngine)
    (destination : LabelledDestination) : Except PoleError String := do
  match sender.resourceCache with
  | none => throw (.new .serviceNotFound
      s!"{sender.kind.label}mirror destination {destinationKey destination} is not configured")
  | some cache =>
      let cacheItem ← cache destination.namespaceName destination.service
      match (cacheItem.listInstances true).find? fun ins =>
          mirrorInstanceMatches regex ins destination with
      | some ins => mirrorInstanceBaseUrlWithProtocol ins sender.kind.protocol
      | none => throw (.new .serviceNotFound (s!"no available {sender.kind.label}mirror " ++
          s!"destination instance: {destination.namespaceName}#{destination.service}"))

/-- `send`, up to the connection that it makes. -/
def target (sender : MirrorSender) (regex : RegexEngine) (destination : LabelledDestination) :
    Except PoleError MirrorTarget := do
  let baseUrl ← match sender.destinationBaseUrls (destinationKey destination) with
    | some baseUrl => .ok baseUrl
    | none => sender.resolveDestinationBaseUrl regex destination
  parseBaseUrl sender.kind baseUrl

end MirrorSender

/-! ## Reading what was written down -/

def writtenAddress (ip : String) (port : UInt32) : String :=
  ip ++ ":" ++ toString port.toNat

def writtenUrl (kind : MirrorKind) (ip : String) (port : UInt32) : String :=
  s!"{kind.protocol}://{ip}:{port}"

theorem stripScheme_writtenUrl (kind : MirrorKind) (ip : String) (port : UInt32) :
    kind.stripScheme (writtenUrl kind ip port) = some (writtenAddress ip port) := by
  have hport : toString port = toString port.toNat := rfl
  cases kind with
  | http =>
      have hurl : writtenUrl .http ip port = "http://" ++ writtenAddress ip port := by
        apply String.toList_inj.mp
        simp [writtenUrl, writtenAddress, MirrorKind.protocol, toString]
      rw [MirrorKind.stripScheme, hurl, stripPrefix_append]
  | grpc =>
      have hurl : writtenUrl .grpc ip port = "grpc://" ++ writtenAddress ip port := by
        apply String.toList_inj.mp
        simp [writtenUrl, writtenAddress, MirrorKind.protocol, toString]
      rw [MirrorKind.stripScheme, hurl, stripPrefix_append, Option.some_or]

theorem not_mem_toString {c : Char} (h : c.isDigit = false) (n : Nat) :
    c ∉ (toString n).toList := by
  intro hmem
  rw [isDigit_of_mem_toString hmem] at h
  cases h

theorem parseBaseUrl_written (kind : MirrorKind) {ip : String} (hip : ip ≠ "") (port : UInt32) :
    parseBaseUrl kind (writtenUrl kind ip port) =
      if port.toNat < 2 ^ 16 then .ok ⟨ip, UInt16.ofNat port.toNat⟩
      else .error (.new .apiInvalidArgument
        s!"invalid {kind.label}mirror destination port: {writtenUrl kind ip port}") := by
  have htrim : trimEndMatches (writtenAddress ip port) '/' = writtenAddress ip port :=
    trimEndMatches_append (toString_ne_empty _) (not_mem_toString (by decide) _)
  have hsplit : rsplitOnce (writtenAddress ip port) ':' = some (ip, toString port.toNat) := by
    have hcolon : ":" = String.singleton ':' := rfl
    rw [writtenAddress, hcolon, rsplitOnce_append (not_mem_toString (by decide) _)]
  have hhost : ip.isEmpty = false := by simpa using hip
  unfold parseBaseUrl
  rw [stripScheme_writtenUrl]
  by_cases hfits : port.toNat < 2 ^ 16
  · have hport : parseU16 (toString port.toNat) = some (UInt16.ofNat port.toNat) := by
      rw [parseU16_toString, if_pos hfits]
    rw [if_pos hfits]
    simp only [Option.elim_some, bind, Except.bind, htrim, hsplit, hport, hhost,
      Bool.false_eq_true, if_false, pure, Except.pure]
  · have hport : parseU16 (toString port.toNat) = none := by
      rw [parseU16_toString, if_neg hfits]
    rw [if_neg hfits]
    simp only [Option.elim_some, bind, Except.bind, htrim, hsplit, hport]

/-- The instance can be written to by a sender of the kind. -/
def Reachable (kind : MirrorKind) (ins : Instance) : Prop :=
  ins.ip ≠ "" ∧ ins.port ≠ 0 ∧ (ins.protocol = "" ∨ ins.protocol = kind.protocol)

theorem mirrorInstanceBaseUrl_ok_iff {kind : MirrorKind} {ins : Instance} {url : String} :
    mirrorInstanceBaseUrlWithProtocol ins kind.protocol = .ok url ↔
      Reachable kind ins ∧ url = writtenUrl kind ins.ip ins.port := by
  unfold mirrorInstanceBaseUrlWithProtocol Reachable
  by_cases haddress : ins.ip = "" ∨ ins.port = 0
  · have htest : (ins.ip.isEmpty || ins.port == 0) = true := by
      simpa [Bool.or_eq_true, String.isEmpty_iff] using haddress
    rw [if_pos htest]
    constructor
    · exact fun h => by cases h
    · rintro ⟨⟨hip, hport, -⟩, -⟩
      exact absurd haddress (by simp [hip, hport])
  · have htest : (ins.ip.isEmpty || ins.port == 0) = false := by
      simpa [String.isEmpty_iff] using haddress
    simp only [not_or] at haddress
    rw [htest, if_neg Bool.false_ne_true]
    by_cases hprotocol : ins.protocol = "" ∨ ins.protocol = kind.protocol
    · have hsame : (if ins.protocol.isEmpty then kind.protocol else ins.protocol) =
          kind.protocol := by
        split
        · rfl
        · rename_i hne
          exact hprotocol.resolve_left (by simpa using hne)
      simp only [hsame, ne_eq, not_true_eq_false, if_false, Except.ok.injEq]
      exact ⟨fun h => ⟨⟨haddress.1, haddress.2, hprotocol⟩, h.symm⟩, fun h => h.2.symm⟩
    · have hother : (if ins.protocol.isEmpty then kind.protocol else ins.protocol) ≠
          kind.protocol := by
        rw [if_neg (by simpa using fun h => hprotocol (.inl h))]
        exact fun h => hprotocol (.inr h)
      simp only [ne_eq, hother, not_false_eq_true, if_true]
      constructor
      · exact fun h => by cases h
      · exact fun h => absurd h.1.2.2 hprotocol

/-! ## The copies -/

/-- What is parsed of the URL of an instance is its address. -/
theorem parseBaseUrl_written_iff {kind : MirrorKind} {ip : String} (hip : ip ≠ "") (port : UInt32)
    (target : MirrorTarget) :
    parseBaseUrl kind (writtenUrl kind ip port) = .ok target ↔
      target.host = ip ∧ target.port.toNat = port.toNat := by
  rw [parseBaseUrl_written kind hip]
  obtain ⟨host, targetPort⟩ := target
  split
  · rename_i hfits
    have hnat : (UInt16.ofNat port.toNat).toNat = port.toNat := UInt16.toNat_ofNat_of_lt' hfits
    simp only [Except.ok.injEq, MirrorTarget.mk.injEq]
    constructor
    · rintro ⟨rfl, rfl⟩
      exact ⟨rfl, hnat⟩
    · rintro ⟨rfl, hport⟩
      exact ⟨rfl, UInt16.toNat.inj (hnat.trans hport.symm)⟩
  · rename_i hwide
    constructor
    · exact fun h => by cases h
    · rintro ⟨-, hport⟩
      exact absurd (hport ▸ targetPort.toNat_lt) hwide

/-- A sender with a cache connects exactly to the address of the first available instance of the
destination that matches all labels, if the instance can be written to and its port is one. -/
theorem mirror_target_iff (kind : MirrorKind)
    (cache : String → String → Except PoleError ServiceInstancesCacheItem) (regex : RegexEngine)
    (destination : LabelledDestination) (target : MirrorTarget) :
    (MirrorSender.withResourceCache kind cache).target regex destination = .ok target ↔
      ∃ item ins, cache destination.namespaceName destination.service = .ok item ∧
        (item.listInstances true).find? (fun ins => mirrorInstanceMatches regex ins destination) =
          some ins ∧
        Reachable kind ins ∧ target.host = ins.ip ∧ target.port.toNat = ins.port.toNat := by
  unfold MirrorSender.target MirrorSender.resolveDestinationBaseUrl MirrorSender.withResourceCache
  simp only [StringMap.empty]
  cases hcache : cache destination.namespaceName destination.service with
  | error err =>
      constructor
      · exact fun h => by cases h
      · rintro ⟨item, ins, hitem, -⟩
        cases hitem
  | ok item =>
      simp only [bind, Except.bind]
      cases hfind : (item.listInstances true).find? fun ins =>
          mirrorInstanceMatches regex ins destination with
      | none =>
          constructor
          · exact fun h => by cases h
          · rintro ⟨_, ins, hitem, hins, -⟩
            cases hitem
            rw [hfind] at hins
            cases hins
      | some ins =>
          simp only
          cases hurl : mirrorInstanceBaseUrlWithProtocol ins kind.protocol with
          | error err =>
              constructor
              · exact fun h => by cases h
              · rintro ⟨_, other, hitem, hother, hreach, -⟩
                cases hitem
                obtain rfl : ins = other := Option.some.inj (hfind.symm.trans hother)
                have hwritten := mirrorInstanceBaseUrl_ok_iff.mpr ⟨hreach, rfl⟩
                rw [hurl] at hwritten
                cases hwritten
          | ok url =>
              obtain ⟨hreach, rfl⟩ := mirrorInstanceBaseUrl_ok_iff.mp hurl
              simp only
              rw [parseBaseUrl_written_iff hreach.1]
              constructor
              · exact fun h => ⟨item, ins, rfl, hfind, hreach, h.1, h.2⟩
              · rintro ⟨_, other, hitem, hother, -, h⟩
                cases hitem
                obtain rfl : ins = other := Option.some.inj (hfind.symm.trans hother)
                exact h

end PoleClient
