import PoleClient.CircuitBreaker.Composite
import PoleClient.Core.WireText
import PoleClient.FaultDetect.Model

/-! # One execution of a plan

What a probe writes, what it makes of the bytes that it reads, and what is reported
of it. The network answers a probe with an error or with some first part of what
the peer has written, and a probe may run out of time at any point.
-/

namespace PoleClient.FaultDetect

open Lib Text CircuitBreaker

structure FaultDetectResult where
  ruleId : String
  success : Bool
  message : String
deriving DecidableEq, Repr

/-- What the network does on one probe. The texts are those of the errors; `read` has the first
bytes, at most 1024, that the peer writes after the request. `debug` is the debug format of a
text. -/
structure Network where
  timesOut : Bool
  bind : Except String Unit
  connect : String → Except String Unit
  write : String → Except String Unit
  read : String → Except String ByteArray
  debug : String → String

/-! ## Requests -/

/-- `http_request_target`: the path begins at the first slash or question mark after the scheme. -/
def httpRequestTarget (url : String) : String :=
  let trimmed := trim url
  if trimmed.isEmpty then "/"
  else
    match (stripPrefix trimmed "http://").or (stripPrefix trimmed "https://") with
    | some rest =>
        match rest.toList.dropWhile fun c => c ≠ '/' && c ≠ '?' with
        | [] => "/"
        | '?' :: query => "/" ++ String.ofList ('?' :: query)
        | path => String.ofList path
    | none => if trimmed.toList.head? = some '/' then trimmed else "/" ++ trimmed

def hasHeader (headers : List (String × String)) (name : String) : Bool :=
  headers.any fun header => eqIgnoreAsciiCase header.1 name

def httpRequestRest (host : String) (port : UInt32) (config : HttpFaultDetectConfig) : String :=
  (if hasHeader config.headers "host" then "" else s!"Host: {host}:{port}\r\n") ++
    (if hasHeader config.headers "connection" then "" else "Connection: close\r\n") ++
    (if !config.body.isEmpty && !hasHeader config.headers "content-length" then
      s!"Content-Length: {config.body.utf8ByteSize}\r\n" else "") ++
    String.join ((config.headers.filter fun header => !(trim header.1).isEmpty).map
      fun header => s!"{trim header.1}: {header.2}\r\n") ++
    "\r\n" ++ config.body

def buildHttpFaultDetectRequest (method target host : String) (port : UInt32)
    (config : HttpFaultDetectConfig) : String :=
  s!"{method} {target} HTTP/1.1\r\n" ++ httpRequestRest host port config

def defaultHttpFaultDetectConfig : HttpFaultDetectConfig :=
  ⟨"GET", "/", [], ""⟩

def httpMethod (config : HttpFaultDetectConfig) : String :=
  if (trim config.method).isEmpty then "GET" else toAsciiUppercase (trim config.method)

/-- What `send_http_fault_detect` writes. -/
def httpRequest (host : String) (plan : FaultDetectPlan) : String :=
  let config := plan.httpConfig.getD defaultHttpFaultDetectConfig
  buildHttpFaultDetectRequest (httpMethod config) (httpRequestTarget config.url) host plan.port
    config

/-! ## Answers -/

def parseHttpStatusCode (response : ByteArray) : Except String UInt16 :=
  match firstLine (fromUtf8Lossy response) with
  | none => .error "empty http response"
  | some statusLine =>
      match (splitWhitespace statusLine)[1]? with
      | none => .error s!"invalid http status line: {statusLine}"
      | some status =>
          match parseU16 status with
          | none => .error s!"invalid http status code: {status}"
          | some code => .ok code

def ensureExpectedResponse (network : Network) (protocol : String) (response : ByteArray)
    (expectedValues : List String) : Except String Unit :=
  let response := fromUtf8Lossy response
  if expectedValues.any fun expected => contains response expected then .ok ()
  else
    let expected := ", ".intercalate (expectedValues.map network.debug)
    .error (s!"{protocol} response {network.debug response} did not match expected values " ++
      "[" ++ expected ++ "]")

/-! ## Probes -/

def sendHttpFaultDetect (network : Network) (host : String) (plan : FaultDetectPlan) :
    Except String UInt16 := do
  network.connect s!"{host}:{plan.port}"
  network.write (httpRequest host plan)
  let response ← network.read (httpRequest host plan)
  if response.size = 0 then throw "empty http response"
  parseHttpStatusCode response

def sendTcpFaultDetect (network : Network) (host : String) (plan : FaultDetectPlan) :
    Except String Unit := do
  let config := plan.tcpConfig.getD ⟨"", []⟩
  network.connect s!"{host}:{plan.port}"
  if !config.send.isEmpty then network.write config.send
  if config.receive.isEmpty then return
  let response ← network.read config.send
  if response.size = 0 then throw "empty tcp response"
  ensureExpectedResponse network "tcp" response config.receive

def sendUdpFaultDetect (network : Network) (host : String) (plan : FaultDetectPlan) :
    Except String Unit := do
  let config := plan.udpConfig.getD ⟨"", []⟩
  network.bind
  network.connect s!"{host}:{plan.port}"
  if config.send.isEmpty && config.receive.isEmpty then return
  network.write config.send
  if config.receive.isEmpty then return
  let response ← network.read config.send
  if response.size = 0 then throw "empty udp response"
  ensureExpectedResponse network "udp" response config.receive

def executeHttpFaultDetect (network : Network) (host : String) (plan : FaultDetectPlan) :
    FaultDetectResult :=
  let address := s!"{host}:{plan.port}"
  let target := (plan.httpConfig.map fun config => httpRequestTarget config.url).getD "/"
  if network.timesOut then
    ⟨plan.ruleId, false, s!"http fault detect request {address}{target} timeout"⟩
  else
    match sendHttpFaultDetect network host plan with
    | .ok statusCode =>
        if 200 ≤ statusCode && statusCode < 400 then ⟨plan.ruleId, true, ""⟩
        else
          ⟨plan.ruleId, false,
            s!"http fault detect request {address}{target} returned status {statusCode}"⟩
    | .error err =>
        ⟨plan.ruleId, false, s!"http fault detect request {address}{target} failed: {err}"⟩

/-- `execute_tcp_fault_detect` and `execute_udp_fault_detect`, which differ in the protocol. -/
def executeSocketFaultDetect (network : Network) (protocol host : String) (plan : FaultDetectPlan)
    (sent : Except String Unit) : FaultDetectResult :=
  let address := s!"{host}:{plan.port}"
  if network.timesOut then
    ⟨plan.ruleId, false, s!"{protocol} fault detect request {address} timeout"⟩
  else
    match sent with
    | .ok () => ⟨plan.ruleId, true, ""⟩
    | .error err =>
        ⟨plan.ruleId, false, s!"{protocol} fault detect request {address} failed: {err}"⟩

def executeTcpFaultDetect (network : Network) (host : String) (plan : FaultDetectPlan) :
    FaultDetectResult :=
  executeSocketFaultDetect network "tcp" host plan (sendTcpFaultDetect network host plan)

def executeUdpFaultDetect (network : Network) (host : String) (plan : FaultDetectPlan) :
    FaultDetectResult :=
  executeSocketFaultDetect network "udp" host plan (sendUdpFaultDetect network host plan)

def executeFaultDetectPlan (network : Network) (host : String) (plan : FaultDetectPlan) :
    FaultDetectResult :=
  match plan.protocol with
  | .tcp => executeTcpFaultDetect network host plan
  | .http => executeHttpFaultDetect network host plan
  | .udp => executeUdpFaultDetect network host plan

/-! ## Reports -/

structure ResourceStat where
  resource : Resource
  retCode : String
  delay : Nat
  status : RetStatus
deriving DecidableEq, Repr

/-- A failure counts as a timeout if the message says so somewhere. -/
def faultDetectResultToResourceStat (plan : FaultDetectPlan) (result : FaultDetectResult) :
    ResourceStat where
  resource := .serviceResource ⟨⟨plan.namespaceName, plan.service⟩, none⟩
  retCode := result.ruleId
  delay := 0
  status :=
    if result.success then .retSuccess
    else if contains (toAsciiLowercase result.message) "timeout" then .retTimeout
    else .retFail

end PoleClient.FaultDetect
