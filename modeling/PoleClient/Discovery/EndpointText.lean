import PoleClient.Discovery.Lossless
import PoleClient.FaultDetect.ProbeExchange

/-! # Requests and answers of the endpoint as bytes

A probe of another client asks the endpoint of an instance. The endpoint has some
first bytes of the request, and the probe some first bytes of the answer: enough of
them, and the one reads the path that the plan names and the other the status of
the answer.
-/

namespace PoleClient.Discovery

open Lib Text FaultDetect

/-! ## The endpoint -/

def parseHttpRequestPath (req : ByteArray) : Option String :=
  (String.fromUTF8? req).bind fun s =>
    (firstLine s).bind fun line => (splitWhitespace line)[1]?

/-- `handle_lossless_endpoint_stream`: the path that it handles. -/
def requestedPath (req : ByteArray) : String :=
  (parseHttpRequestPath req).getD "/"

def statusText (statusCode : UInt16) : String :=
  if statusCode = 200 then "OK"
  else if statusCode = 404 then "Not Found"
  else if statusCode = 503 then "Service Unavailable"
  else "OK"

/-- `handle_lossless_endpoint_stream`: what it writes. -/
def rawResponse (response : LosslessEndpointResponse) : String :=
  s!"HTTP/1.1 {response.statusCode} {statusText response.statusCode}\r\n" ++
    s!"content-length: {response.body.utf8ByteSize}\r\nconnection: close\r\n\r\n" ++ response.body

/-! ## Reading what the other one has written -/

def requestHead (plan : FaultDetectPlan) : String :=
  let config := plan.httpConfig.getD defaultHttpFaultDetectConfig
  httpMethod config ++ " " ++ httpRequestTarget config.url

def probeTarget (plan : FaultDetectPlan) : String :=
  httpRequestTarget (plan.httpConfig.getD defaultHttpFaultDetectConfig).url

/-- The method and the target are words, as in a request line they have to be. -/
def PlainRequest (plan : FaultDetectPlan) : Prop :=
  OneWord (httpMethod (plan.httpConfig.getD defaultHttpFaultDetectConfig)) ∧
    OneWord (probeTarget plan)

def requestRest (host : String) (plan : FaultDetectPlan) : String :=
  " HTTP/1.1\r\n" ++
    httpRequestRest host plan.port (plan.httpConfig.getD defaultHttpFaultDetectConfig)

theorem startsBlank_of_blank (s : String) : StartsBlank (" " ++ s) := by
  intro c hc
  have hblank : c = ' ' := by simpa using hc.symm
  rw [hblank]
  decide

theorem startsBlank_requestRest (host : String) (plan : FaultDetectPlan) :
    StartsBlank (requestRest host plan) := by
  have hrest : requestRest host plan = " " ++ ("HTTP/1.1\r\n" ++
      httpRequestRest host plan.port (plan.httpConfig.getD defaultHttpFaultDetectConfig)) := by
    rw [requestRest, ← String.append_assoc]
    rfl
  rw [hrest]
  exact startsBlank_of_blank _

theorem httpRequest_eq (host : String) (plan : FaultDetectPlan) :
    httpRequest host plan = requestHead plan ++ requestRest host plan := by
  simp only [httpRequest, buildHttpFaultDetectRequest, requestHead, requestRest,
    String.append_assoc, toString]

/-- From the end of the target on, the endpoint reads the path that the plan names, unless the
read ends inside a character. -/
theorem requestedPath_read {host : String} {plan : FaultDetectPlan} {size : Nat}
    (plain : PlainRequest plan) (hsize : (requestHead plan).utf8ByteSize ≤ size) :
    requestedPath (firstBytes (httpRequest host plan) size) =
      if (firstBytes (httpRequest host plan) size).IsValidUTF8 then probeTarget plan
      else "/" := by
  cases hread : String.fromUTF8? (firstBytes (httpRequest host plan) size) with
  | none =>
      have hinvalid : ¬(firstBytes (httpRequest host plan) size).IsValidUTF8 := by
        rw [isValidUTF8_iff, hread]
        rintro ⟨s, hs⟩
        cases hs
      rw [requestedPath, parseHttpRequestPath, hread, if_neg hinvalid]
      rfl
  | some part =>
      have hvalid : (firstBytes (httpRequest host plan) size).IsValidUTF8 :=
        isValidUTF8_iff.mpr ⟨part, hread⟩
      have hpath : parseHttpRequestPath (firstBytes (httpRequest host plan) size) =
          secondWord part := by
        rw [parseHttpRequestPath, hread]
        rfl
      rw [httpRequest_eq] at hread
      rw [if_pos hvalid, requestedPath, hpath,
        secondWord_read plain.1 plain.2 (startsBlank_requestRest host plan) hsize hread]
      rfl

/-! ## The answer -/

def responseRest (response : LosslessEndpointResponse) : String :=
  " " ++ (statusText response.statusCode ++ "\r\ncontent-length: " ++
    toString response.body.utf8ByteSize ++ "\r\nconnection: close\r\n\r\n" ++ response.body)

theorem rawResponse_eq (response : LosslessEndpointResponse) :
    rawResponse response =
      "HTTP/1.1" ++ " " ++ toString response.statusCode.toNat ++ responseRest response := by
  have hcode : toString response.statusCode = toString response.statusCode.toNat := rfl
  simp only [rawResponse, responseRest, ← hcode]
  apply String.toList_inj.mp
  simp [toString]

theorem isAscii_statusText (statusCode : UInt16) : IsAscii (statusText statusCode) := by
  unfold statusText
  split
  · decide
  · split
    · decide
    · split
      · decide
      · decide

theorem isAscii_rawResponse {response : LosslessEndpointResponse} (h : IsAscii response.body) :
    IsAscii (rawResponse response) := by
  have hlines : IsAscii (statusText response.statusCode ++ "\r\ncontent-length: ") :=
    isAscii_append (isAscii_statusText _) (by decide)
  have hlength : IsAscii (statusText response.statusCode ++ "\r\ncontent-length: " ++
      toString response.body.utf8ByteSize ++ "\r\nconnection: close\r\n\r\n") :=
    isAscii_append (isAscii_append hlines (isAscii_toString _)) (by decide)
  rw [rawResponse_eq]
  refine isAscii_append (isAscii_append (by decide) (isAscii_toString _)) ?_
  exact isAscii_append (by decide) (isAscii_append hlength h)

/-- From the end of the code on, a probe reads the status that the endpoint has answered. -/
theorem parseHttpStatusCode_read {response : LosslessEndpointResponse} {size : Nat}
    (ascii : IsAscii response.body)
    (hsize : ("HTTP/1.1" ++ " " ++ toString response.statusCode.toNat).utf8ByteSize ≤ size) :
    parseHttpStatusCode (firstBytes (rawResponse response) size) =
      .ok response.statusCode := by
  obtain ⟨part, hpart⟩ := fromUTF8?_of_ascii (isAscii_rawResponse ascii) size
  have hversion : OneWord "HTTP/1.1" := by
    refine ⟨by simp, ?_⟩
    simp [isWhitespace]
  have hcode : parseU16 (toString response.statusCode.toNat) = some response.statusCode := by
    rw [parseU16_toString, if_pos response.statusCode.toNat_lt, UInt16.ofNat_toNat]
  have hword : secondWord part = some (toString response.statusCode.toNat) := by
    rw [rawResponse_eq] at hpart
    exact secondWord_read hversion (oneWord_toString _) (startsBlank_of_blank _) hsize hpart
  obtain ⟨line, hline, hsecond⟩ := Option.bind_eq_some_iff.mp hword
  rw [parseHttpStatusCode, fromUtf8Lossy_of_some hpart, hline]
  simp only [hsecond, hcode]

/-- The probe connects, writes its request and reads the bytes, all in time. -/
structure Answers (network : Network) (host : String) (plan : FaultDetectPlan)
    (bytes : ByteArray) : Prop where
  inTime : network.timesOut = false
  connected : network.connect s!"{host}:{plan.port}" = .ok ()
  written : network.write (httpRequest host plan) = .ok ()
  read : network.read (httpRequest host plan) = .ok bytes

/-- The bytes that are read cover the status of the answer. -/
def CoversStatus (response : LosslessEndpointResponse) (size : Nat) : Prop :=
  ("HTTP/1.1" ++ " " ++ toString response.statusCode.toNat).utf8ByteSize ≤ size

theorem size_read_ne_zero {response : LosslessEndpointResponse} {size : Nat}
    (covers : CoversStatus response size) : (firstBytes (rawResponse response) size).size ≠ 0 := by
  have hversion : "HTTP/1.1".utf8ByteSize = 8 := by decide
  unfold CoversStatus at covers
  rw [firstBytes, rawResponse_eq, String.toUTF8_eq_toByteArray, ByteArray.size_extract,
    String.size_toByteArray]
  simp only [String.utf8ByteSize_append, hversion] at covers ⊢
  omega

theorem success_iff {network : Network} {host : String} {plan : FaultDetectPlan}
    {response : LosslessEndpointResponse} {size : Nat} (ascii : IsAscii response.body)
    (covers : CoversStatus response size)
    (answers : Answers network host plan (firstBytes (rawResponse response) size)) :
    (executeHttpFaultDetect network host plan).success = true ↔
      200 ≤ response.statusCode ∧ response.statusCode < 400 := by
  have hsent : sendHttpFaultDetect network host plan = .ok response.statusCode := by
    unfold sendHttpFaultDetect
    rw [answers.connected, answers.written, answers.read]
    simp only [bind, Except.bind]
    rw [if_neg (size_read_ne_zero covers)]
    exact parseHttpStatusCode_read ascii covers
  unfold executeHttpFaultDetect
  simp only [answers.inTime, hsent, Bool.false_eq_true, if_false]
  split
  · rename_i hpasses
    simpa using hpasses
  · rename_i hfails
    simpa using hfails

end PoleClient.Discovery
