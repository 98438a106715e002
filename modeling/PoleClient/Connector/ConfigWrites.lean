import PoleClient.Cache.Model
import PoleClient.Core.Model
import PoleClient.Lib.Remote

/-! # Writing and publishing configuration files

A file is published in two requests: it is written, by an update or, where the
server has no such file, by a creation, and the release then names it without its
content. Other clients write to the same files between the requests.
-/

namespace PoleClient.Connector

open Cache Lib Remote

/-! ## Requests -/

/-- A file as it is sent. -/
structure SentConfigFile where
  name : String
  namespaceName : String
  group : String
  content : String
  labels : StringMap

/-- A release as it is sent: the file is named, not sent again. -/
structure SentRelease where
  name : String
  namespaceName : String
  group : String
  fileName : String
  md5 : String
  releaseType : String
  betaLabels : List ClientLabel

structure ConfigFileRequest where
  flowId : String
  configFile : ConfigFile

def ConfigFileRequest.convertSpec (req : ConfigFileRequest) : SentConfigFile where
  name := req.configFile.name
  namespaceName := req.configFile.namespaceName
  group := req.configFile.group
  content := req.configFile.content
  labels := req.configFile.labels

structure ReleasedFile where
  namespaceName : String
  group : String
  fileName : String
  releaseName : String
  md5 : String
  releaseType : String
  betaLabels : List ClientLabel

structure ConfigReleaseRequest where
  flowId : String
  configFile : ReleasedFile

def ConfigReleaseRequest.convertSpec (req : ConfigReleaseRequest) : SentRelease where
  name := req.configFile.releaseName
  namespaceName := req.configFile.namespaceName
  group := req.configFile.group
  fileName := req.configFile.fileName
  md5 := req.configFile.md5
  releaseType := req.configFile.releaseType
  betaLabels := req.configFile.betaLabels

structure ConfigPublishRequest where
  flowId : String
  md5 : String
  releaseName : String
  configFile : ConfigFile

namespace ConfigPublishRequest

def toConfigFileRequest (req : ConfigPublishRequest) : ConfigFileRequest :=
  ⟨req.flowId, req.configFile⟩

def toConfigReleaseRequest (req : ConfigPublishRequest) : ConfigReleaseRequest where
  flowId := req.flowId
  configFile :=
    { namespaceName := req.configFile.namespaceName
      group := req.configFile.group
      fileName := req.configFile.name
      releaseName := req.releaseName
      md5 := req.md5
      releaseType := "normal"
      betaLabels := [] }

end ConfigPublishRequest

/-! ## The connector -/

inductive WriteCode where
  | executeSuccess
  | notFoundResource
  | existedResource
  | other (code : UInt32)
deriving DecidableEq, Repr

/-- The requests of the configuration stub, under their flow identifiers. -/
inductive ConfigCall where
  | createConfigFile (flowId : String) (file : SentConfigFile)
  | updateConfigFile (flowId : String) (file : SentConfigFile)
  | publishConfigFile (flowId : String) (release : SentRelease)

abbrev ConfigReply := Except String (WriteCode × String)

abbrev ConfigAnswer := Except PoleError (WriteCode × String)

/-- A part of the connector that sends configuration requests. -/
abbrev ConfigProgram := Remote ConfigCall ConfigReply

/-- What becomes of an answer, for any of the requests. -/
def readReply : ConfigReply → ConfigAnswer
  | .ok answer => .ok answer
  | .error status => .error (.new .serverError status)

def sendCreateConfigFile (req : ConfigFileRequest) : ConfigProgram ConfigAnswer :=
  .call (.createConfigFile req.flowId req.convertSpec) readReply

def sendUpdateConfigFile (req : ConfigFileRequest) : ConfigProgram ConfigAnswer :=
  .call (.updateConfigFile req.flowId req.convertSpec) readReply

def sendPublishConfigFile (req : ConfigReleaseRequest) : ConfigProgram ConfigAnswer :=
  .call (.publishConfigFile req.flowId req.convertSpec) readReply

def ensureConfigFileWritten (req : ConfigFileRequest) : ConfigProgram (Except PoleError Unit) := do
  match ← sendUpdateConfigFile req with
  | .error err => return .error err
  | .ok (updateCode, updateInfo) =>
      if updateCode = .executeSuccess then return .ok ()
      if updateCode ≠ .notFoundResource then return .error (.new .serverError updateInfo)
      match ← sendCreateConfigFile req with
      | .error err => return .error err
      | .ok (createCode, createInfo) =>
          if createCode = .executeSuccess then return .ok ()
          if createCode = .existedResource then
            match ← sendUpdateConfigFile req with
            | .error err => return .error err
            | .ok (retryUpdateCode, retryUpdateInfo) =>
                if retryUpdateCode = .executeSuccess then return .ok ()
                return .error (.new .serverError retryUpdateInfo)
          return .error (.new .serverError createInfo)

/-- The answer to the last request of a write decides. -/
def writeOutcome : ConfigAnswer → Except PoleError Bool
  | .error err => .error err
  | .ok (code, info) =>
      if code = .executeSuccess then .ok true else .error (.new .serverError info)

def createConfigFile (req : ConfigFileRequest) : ConfigProgram (Except PoleError Bool) := do
  return writeOutcome (← sendCreateConfigFile req)

def updateConfigFile (req : ConfigFileRequest) : ConfigProgram (Except PoleError Bool) := do
  return writeOutcome (← sendUpdateConfigFile req)

def releaseConfigFile (req : ConfigReleaseRequest) : ConfigProgram (Except PoleError Bool) := do
  return writeOutcome (← sendPublishConfigFile req)

def upsertPublishConfigFile (req : ConfigPublishRequest) :
    ConfigProgram (Except PoleError Bool) := do
  match ← ensureConfigFileWritten req.toConfigFileRequest with
  | .error err => return .error err
  | .ok () => return writeOutcome (← sendPublishConfigFile req.toConfigReleaseRequest)

/-! ## Requests in order -/

section Requests

variable (req : ConfigFileRequest)

def updateCall : ConfigCall := .updateConfigFile req.flowId req.convertSpec

def createCall : ConfigCall := .createConfigFile req.flowId req.convertSpec

def publishCall (release : ConfigReleaseRequest) : ConfigCall :=
  .publishConfigFile release.flowId release.convertSpec

/-- The refusals that lead to the request to write the file that decides, and its answer. -/
inductive Attempted : List (ConfigCall × ConfigReply) → ConfigCall → ConfigReply → Prop
  | update {reply : ConfigReply} : (∀ info, reply ≠ .ok (.notFoundResource, info)) →
      Attempted [] (updateCall req) reply
  | create {reply : ConfigReply} (info : String) :
      (∀ createInfo, reply ≠ .ok (.existedResource, createInfo)) →
      Attempted [(updateCall req, .ok (.notFoundResource, info))] (createCall req) reply
  | retry (info createInfo : String) (reply : ConfigReply) :
      Attempted [(updateCall req, .ok (.notFoundResource, info)),
        (createCall req, .ok (.existedResource, createInfo))] (updateCall req) reply

variable {req}

/-- A request that was not accepted, or the last one, decides. -/
theorem ensureConfigFileWritten_transcript {trace : List (ConfigCall × ConfigReply)}
    {result : Except PoleError Unit} (h : Transcript (ensureConfigFileWritten req) trace result) :
    ∃ refused last reply, trace = refused ++ [(last, reply)] ∧ Attempted req refused last reply ∧
      result = (writeOutcome (readReply reply)).map fun _ => () := by
  simp only [ensureConfigFileWritten, sendUpdateConfigFile, sendCreateConfigFile] at h
  obtain ⟨answer, second, htrace, hupdate⟩ := transcript_call_bind.mp h
  clear h
  subst htrace
  rcases answer with status | ⟨code, info⟩
  · obtain ⟨rfl, rfl⟩ := transcript_pure.mp hupdate
    exact ⟨[], _, _, rfl, .update (by simp), rfl⟩
  · simp only [readReply] at hupdate
    by_cases haccepted : code = .executeSuccess
    · rw [if_pos haccepted] at hupdate
      obtain ⟨rfl, rfl⟩ := transcript_pure.mp hupdate
      exact ⟨[], _, _, rfl, .update (by simp [haccepted]),
        by simp [readReply, writeOutcome, haccepted, Except.map]⟩
    · rw [if_neg haccepted] at hupdate
      by_cases hmissing : code = .notFoundResource
      · rw [if_neg (not_not.mpr hmissing)] at hupdate
        subst hmissing
        obtain ⟨answer, third, htrace, hcreate⟩ := transcript_call_bind.mp hupdate
        clear hupdate
        subst htrace
        rcases answer with status | ⟨createCode, createInfo⟩
        · obtain ⟨rfl, rfl⟩ := transcript_pure.mp hcreate
          exact ⟨[_], _, _, rfl, .create info (by simp), rfl⟩
        · simp only [readReply] at hcreate
          by_cases hcreated : createCode = .executeSuccess
          · rw [if_pos hcreated] at hcreate
            obtain ⟨rfl, rfl⟩ := transcript_pure.mp hcreate
            exact ⟨[_], _, _, rfl, .create info (by simp [hcreated]),
              by simp [readReply, writeOutcome, hcreated, Except.map]⟩
          · rw [if_neg hcreated] at hcreate
            by_cases hexists : createCode = .existedResource
            · rw [if_pos hexists] at hcreate
              subst hexists
              obtain ⟨answer, fourth, htrace, hretry⟩ := transcript_call_bind.mp hcreate
              clear hcreate
              subst htrace
              rcases answer with status | ⟨retryUpdateCode, retryUpdateInfo⟩
              · obtain ⟨rfl, rfl⟩ := transcript_pure.mp hretry
                exact ⟨[_, _], _, _, rfl, .retry info createInfo _, rfl⟩
              · simp only [readReply] at hretry
                split at hretry <;> rename_i hcode <;>
                  obtain ⟨rfl, rfl⟩ := transcript_pure.mp hretry <;>
                  exact ⟨[_, _], _, _, rfl, .retry info createInfo _,
                    by simp [readReply, writeOutcome, hcode, Except.map]⟩
            · rw [if_neg hexists] at hcreate
              obtain ⟨rfl, rfl⟩ := transcript_pure.mp hcreate
              exact ⟨[_], _, _, rfl, .create info (by simp [hexists]),
                by simp [readReply, writeOutcome, hcreated, Except.map]⟩
      · rw [if_pos hmissing] at hupdate
        obtain ⟨rfl, rfl⟩ := transcript_pure.mp hupdate
        exact ⟨[], _, _, rfl, .update (by simp [hmissing]),
        by simp [readReply, writeOutcome, haccepted, Except.map]⟩

/-- The request goes out once, and its answer decides. -/
def SentOnce (request : ConfigCall) (trace : List (ConfigCall × ConfigReply))
    (result : Except PoleError Bool) : Prop :=
  ∃ reply, trace = [(request, reply)] ∧ result = writeOutcome (readReply reply)

theorem transcript_write {request : ConfigCall} {trace : List (ConfigCall × ConfigReply)}
    {result : Except PoleError Bool} :
    Transcript (do return writeOutcome (← .call request readReply)) trace result ↔
      SentOnce request trace result := by
  rw [transcript_call_bind]
  constructor
  · rintro ⟨reply, rest, rfl, hrest⟩
    obtain ⟨rfl, rfl⟩ := transcript_pure.mp hrest
    exact ⟨reply, rfl, rfl⟩
  · rintro ⟨reply, rfl, rfl⟩
    exact ⟨reply, [], rfl, transcript_pure.mpr ⟨rfl, rfl⟩⟩

/-- Creating, updating and releasing a file take one request each. -/
theorem sentOnce_of_write (release : ConfigReleaseRequest)
    {trace : List (ConfigCall × ConfigReply)} {result : Except PoleError Bool} :
    (Transcript (createConfigFile req) trace result ↔ SentOnce (createCall req) trace result) ∧
      (Transcript (updateConfigFile req) trace result ↔ SentOnce (updateCall req) trace result) ∧
      (Transcript (releaseConfigFile release) trace result ↔
        SentOnce (publishCall release) trace result) :=
  ⟨transcript_write, transcript_write, transcript_write⟩

theorem writeOutcome_accepts {reply : ConfigReply} :
    writeOutcome (readReply reply) = .ok true ↔ ∃ info, reply = .ok (.executeSuccess, info) := by
  rcases reply with status | ⟨code, info⟩
  · simp [readReply, writeOutcome]
  · by_cases hcode : code = .executeSuccess <;> simp [readReply, writeOutcome, hcode]

theorem writeOutcome_ok {reply : ConfigReply} {accepted : Bool}
    (h : writeOutcome (readReply reply) = .ok accepted) : accepted = true := by
  rcases reply with status | ⟨code, info⟩
  · cases h
  · simp only [readReply, writeOutcome] at h
    split at h <;> cases h
    rfl

theorem attempted_length {refused : List (ConfigCall × ConfigReply)} {last : ConfigCall}
    {reply : ConfigReply}
    (h : Attempted req refused last reply) : refused.length ≤ 2 := by
  cases h <;> simp

theorem attempted_writes {refused : List (ConfigCall × ConfigReply)} {last : ConfigCall}
    {reply : ConfigReply}
    (h : Attempted req refused last reply) :
    (last = updateCall req ∨ last = createCall req) ∧
      ∀ exchange ∈ refused, (exchange.1 = updateCall req ∨ exchange.1 = createCall req) ∧
        ∃ code info, exchange.2 = .ok (code, info) ∧
          (code = .notFoundResource ∨ code = .existedResource) := by
  cases h with
  | update => simp
  | create info => simp
  | retry info createInfo => simp

end Requests

def raceTrace (req : ConfigPublishRequest) : List (ConfigCall × ConfigReply) :=
  [(updateCall req.toConfigFileRequest, .ok (.notFoundResource, "")),
    (createCall req.toConfigFileRequest, .ok (.existedResource, "")),
    (updateCall req.toConfigFileRequest, .ok (.executeSuccess, "")),
    (publishCall req.toConfigReleaseRequest, .ok (.executeSuccess, ""))]

theorem raceTrace_transcript (req : ConfigPublishRequest) :
    Transcript (upsertPublishConfigFile req) (raceTrace req) (.ok true) :=
  .ask (.ask (.ask (.ask (.done _))))

def sampleRequest : ConfigPublishRequest where
  flowId := "f1"
  md5 := ""
  releaseName := "r1"
  configFile :=
    { namespaceName := "default"
      group := "app"
      name := "server.yaml"
      version := 0
      content := "port: 80"
      labels := .empty
      releaseName := ""
      releaseType := ""
      active := false
      betaLabels := []
      encryptAlgo := ""
      encryptKey := "" }

/-- Whatever the server answers, there are at most four requests. The last answer is the outcome;
those before it are answers of the server to writes of the file, and the last request is for the
release exactly where the answer before it accepted the file. -/
theorem publish_follows_write {req : ConfigPublishRequest}
    {trace : List (ConfigCall × ConfigReply)} {result : Except PoleError Bool}
    (h : Transcript (upsertPublishConfigFile req) trace result) :
    ∃ before last reply, trace = before ++ [(last, reply)] ∧ before.length ≤ 3 ∧
      result = writeOutcome (readReply reply) ∧
      (∀ exchange ∈ before,
        (exchange.1 = updateCall req.toConfigFileRequest ∨
          exchange.1 = createCall req.toConfigFileRequest) ∧
        ∃ code info, exchange.2 = .ok (code, info)) ∧
      (last = publishCall req.toConfigReleaseRequest ↔
        ∃ earlier write info, before = earlier ++ [(write, .ok (.executeSuccess, info))]) ∧
      (result = .ok true → last = publishCall req.toConfigReleaseRequest) := by
  simp only [upsertPublishConfigFile] at h
  obtain ⟨written, first, second, rfl, hensure, hrest⟩ := transcript_bind.mp h
  obtain ⟨refused, last, reply, rfl, hattempted, rfl⟩ :=
    ensureConfigFileWritten_transcript hensure
  have hlength := attempted_length hattempted
  obtain ⟨hlast, hwrites⟩ := attempted_writes hattempted
  cases houtcome : writeOutcome (readReply reply) with
  | error err =>
      rw [houtcome] at hrest
      obtain ⟨rfl, rfl⟩ := transcript_pure.mp hrest
      refine ⟨refused, last, reply, by simp, by omega, houtcome.symm, ?_, ?_, by simp⟩
      · intro exchange hexchange
        obtain ⟨hcall, code, info, hreply, -⟩ := hwrites exchange hexchange
        exact ⟨hcall, code, info, hreply⟩
      · constructor
        · intro hpublish
          rcases hlast with hlast | hlast <;> rw [hlast] at hpublish <;> cases hpublish
        · rintro ⟨earlier, write, info, rfl⟩
          obtain ⟨-, code, other, hreply, hcode⟩ :=
            hwrites (write, .ok (.executeSuccess, info)) (by simp)
          cases hreply
          simp at hcode
  | ok accepted =>
      rw [houtcome] at hrest
      obtain ⟨answer, third, rfl, hdone⟩ := transcript_call_bind.mp hrest
      obtain ⟨rfl, rfl⟩ := transcript_pure.mp hdone
      rw [writeOutcome_ok houtcome] at houtcome
      obtain ⟨info, rfl⟩ := writeOutcome_accepts.mp houtcome
      refine ⟨refused ++ [(last, .ok (.executeSuccess, info))], _, answer, rfl, ?_, rfl, ?_, ?_,
        fun _ => rfl⟩
      · simpa using by omega
      · intro exchange hexchange
        rcases List.mem_append.mp hexchange with hexchange | hexchange
        · obtain ⟨hcall, code, info, hreply, -⟩ := hwrites exchange hexchange
          exact ⟨hcall, code, info, hreply⟩
        · rw [List.mem_singleton.mp hexchange]
          exact ⟨hlast, _, _, rfl⟩
      · exact ⟨fun _ => ⟨refused, last, info, rfl⟩, fun _ => rfl⟩

theorem publish_follows_write_race :
    Transcript (upsertPublishConfigFile sampleRequest) (raceTrace sampleRequest) (.ok true) ∧
      ∃ before last reply, raceTrace sampleRequest = before ++ [(last, reply)] ∧
        before.length ≤ 3 ∧ writeOutcome (readReply reply) = .ok true := by
  obtain ⟨before, last, reply, htrace, hlength, hresult, -⟩ :=
    publish_follows_write (raceTrace_transcript sampleRequest)
  exact ⟨raceTrace_transcript sampleRequest, before, last, reply, htrace, hlength, hresult.symm⟩

/-! ## Other clients -/

structure FileKey where
  namespaceName : String
  group : String
  name : String
deriving DecidableEq, Repr

structure ReleaseKey where
  file : FileKey
  name : String
deriving DecidableEq, Repr

def SentConfigFile.key (file : SentConfigFile) : FileKey :=
  ⟨file.namespaceName, file.group, file.name⟩

def SentRelease.key (release : SentRelease) : ReleaseKey :=
  ⟨⟨release.namespaceName, release.group, release.fileName⟩, release.name⟩

/-- A server with the files and the releases of its states. -/
structure ConfigServer (σ : Type) where
  stored : σ → FileKey → Option SentConfigFile
  released : σ → ReleaseKey → Option SentConfigFile
  serves : σ → ConfigCall → ConfigReply → σ → Prop

namespace ConfigServer

variable {σ : Type} (server : ConfigServer σ)

/-- What the codes of the answers say about the state. -/
structure Truthful : Prop where
  updated : ∀ s flowId file info t,
    server.serves s (.updateConfigFile flowId file) (.ok (.executeSuccess, info)) t →
      server.stored t file.key = some file
  created : ∀ s flowId file info t,
    server.serves s (.createConfigFile flowId file) (.ok (.executeSuccess, info)) t →
      server.stored t file.key = some file
  existed : ∀ s flowId file info t,
    server.serves s (.createConfigFile flowId file) (.ok (.existedResource, info)) t →
      (server.stored t file.key).isSome
  published : ∀ s flowId release info t,
    server.serves s (.publishConfigFile flowId release) (.ok (.executeSuccess, info)) t →
      (server.stored s release.key.file).isSome ∧
        server.released t release.key = server.stored s release.key.file

/-- Every request is answered, and refused only for the file it names. -/
structure Reliable : Prop where
  updates : ∀ s flowId file reply t,
    server.serves s (.updateConfigFile flowId file) reply t → ∃ info,
      reply = .ok (if (server.stored s file.key).isSome then .executeSuccess
        else .notFoundResource, info)
  creates : ∀ s flowId file reply t,
    server.serves s (.createConfigFile flowId file) reply t → ∃ info,
      reply = .ok (if (server.stored s file.key).isSome then .existedResource
        else .executeSuccess, info)
  publishes : ∀ s flowId release reply t,
    server.serves s (.publishConfigFile flowId release) reply t →
      (server.stored s release.key.file).isSome → ∃ info, reply = .ok (.executeSuccess, info)

variable {server} {others : σ → σ → Prop}

/-- A request that was accepted last leaves the file as it was sent. -/
theorem stored_of_accepted (truthful : server.Truthful) {req : ConfigFileRequest}
    {refused : List (ConfigCall × ConfigReply)} {last : ConfigCall}
    {reply : ConfigReply} (hattempted : Attempted req refused last reply) {info : String} {s t : σ}
    (hserves : server.serves s last (.ok (.executeSuccess, info)) t) :
    server.stored t req.convertSpec.key = some req.convertSpec := by
  cases hattempted with
  | update => exact truthful.updated _ _ _ _ _ hserves
  | create => exact truthful.created _ _ _ _ _ hserves
  | retry => exact truthful.updated _ _ _ _ _ hserves

theorem publish_key (req : ConfigPublishRequest) :
    req.toConfigReleaseRequest.convertSpec.key.file =
      req.toConfigFileRequest.convertSpec.key := rfl

theorem publish_run {req : ConfigPublishRequest} {trace : List (ConfigCall × ConfigReply)}
    {result : Except PoleError Bool} {s u : σ}
    (h : Transcript (upsertPublishConfigFile req) trace result)
    (hserved : Served server.serves others s trace u) :
    ∃ refused last reply r t v, Served server.serves others s refused r ∧ others r t ∧
      server.serves t last reply v ∧ Attempted req.toConfigFileRequest refused last reply ∧
      ((∃ err, writeOutcome (readReply reply) = .error err ∧ result = .error err ∧ v = u) ∨
        ∃ info w answer, reply = .ok (.executeSuccess, info) ∧ others v w ∧
          server.serves w (publishCall req.toConfigReleaseRequest) answer u ∧
          result = writeOutcome (readReply answer)) := by
  simp only [upsertPublishConfigFile] at h
  obtain ⟨written, first, second, rfl, hensure, hrest⟩ := transcript_bind.mp h
  obtain ⟨refused, last, reply, rfl, hattempted, rfl⟩ :=
    ensureConfigFileWritten_transcript hensure
  obtain ⟨v, hfirst, hsecond⟩ := served_append.mp hserved
  obtain ⟨r, t, hbefore, hothers, hserves⟩ := served_last.mp hfirst
  refine ⟨refused, last, reply, r, t, v, hbefore, hothers, hserves, hattempted, ?_⟩
  cases houtcome : writeOutcome (readReply reply) with
  | error err =>
      rw [houtcome] at hrest
      obtain ⟨rfl, rfl⟩ := transcript_pure.mp hrest
      cases hsecond
      exact .inl ⟨err, rfl, rfl, rfl⟩
  | ok accepted =>
      rw [houtcome] at hrest
      obtain ⟨answer, third, rfl, hdone⟩ := transcript_call_bind.mp hrest
      obtain ⟨rfl, rfl⟩ := transcript_pure.mp hdone
      rw [writeOutcome_ok houtcome] at houtcome
      obtain ⟨info, rfl⟩ := writeOutcome_accepts.mp houtcome
      obtain ⟨w, hmeanwhile, hpublish⟩ := served_singleton.mp hsecond
      exact .inr ⟨info, w, answer, rfl, hmeanwhile, hpublish, rfl⟩

/-- The first refusal says that the file is missing, the second that it is there by now. -/
theorem accepted_of_reliable (truthful : server.Truthful) (reliable : server.Reliable)
    {req : ConfigFileRequest} {refused : List (ConfigCall × ConfigReply)} {last : ConfigCall}
    {reply : ConfigReply} {r s t u : σ}
    (hothers : ∀ v w, others v w →
      (server.stored v req.convertSpec.key).isSome → (server.stored w req.convertSpec.key).isSome)
    (hattempted : Attempted req refused last reply)
    (hbefore : Served server.serves others r refused s) (hmeanwhile : others s t)
    (hserves : server.serves t last reply u) :
    ∃ info, reply = .ok (.executeSuccess, info) := by
  cases hattempted with
  | update hfound =>
      obtain ⟨info, rfl⟩ := reliable.updates _ _ _ _ _ hserves
      by_cases hpresent : (server.stored t req.convertSpec.key).isSome
      · exact ⟨info, by rw [if_pos hpresent]⟩
      · exact absurd (by rw [if_neg hpresent]) (hfound info)
  | create updateInfo habsent =>
      obtain ⟨info, rfl⟩ := reliable.creates _ _ _ _ _ hserves
      by_cases hpresent : (server.stored t req.convertSpec.key).isSome
      · exact absurd (by rw [if_pos hpresent]) (habsent info)
      · exact ⟨info, by rw [if_neg hpresent]⟩
  | retry updateInfo createInfo =>
      obtain ⟨v, -, hsecond⟩ := served_append.mp (show Served server.serves others r
        ([_] ++ [_]) s from hbefore)
      obtain ⟨w, -, hcreate⟩ := served_singleton.mp hsecond
      have hexisted := truthful.existed _ _ _ _ _ hcreate
      have hpresent := hothers s t hmeanwhile hexisted
      obtain ⟨info, rfl⟩ := reliable.updates _ _ _ _ _ hserves
      exact ⟨info, by rw [if_pos hpresent]⟩

end ConfigServer

/-! ## A server -/

structure ConfigCenter where
  files : FileKey → Option SentConfigFile
  releases : ReleaseKey → Option SentConfigFile

namespace ConfigCenter

def write (center : ConfigCenter) (file : SentConfigFile) : ConfigCenter :=
  { center with
    files := fun key => if key = file.key then some file else center.files key }

def release (center : ConfigCenter) (released : ReleaseKey) : ConfigCenter :=
  { center with
    releases := fun key =>
      if key = released then center.files released.file else center.releases key }

def respond (center : ConfigCenter) : ConfigCall → ConfigReply × ConfigCenter
  | .updateConfigFile _ file =>
      if (center.files file.key).isSome then (.ok (.executeSuccess, ""), center.write file)
      else (.ok (.notFoundResource, ""), center)
  | .createConfigFile _ file =>
      if (center.files file.key).isSome then (.ok (.existedResource, ""), center)
      else (.ok (.executeSuccess, ""), center.write file)
  | .publishConfigFile _ release =>
      if (center.files release.key.file).isSome then
        (.ok (.executeSuccess, ""), center.release release.key)
      else (.ok (.notFoundResource, ""), center)

def server : ConfigServer ConfigCenter where
  stored := files
  released := releases
  serves := fun s call reply t => respond s call = (reply, t)

theorem server_truthful : server.Truthful where
  updated := by
    intro s flowId file info t h
    simp only [server, respond] at h
    split at h <;> cases h
    simp [server, write]
  created := by
    intro s flowId file info t h
    simp only [server, respond] at h
    split at h <;> cases h
    simp [server, write]
  existed := by
    intro s flowId file info t h
    simp only [server, respond] at h
    split at h <;> cases h
    assumption
  published := by
    intro s flowId release info t h
    simp only [server, respond] at h
    split at h <;> cases h
    simpa [server, ConfigCenter.release]

theorem server_reliable : server.Reliable where
  updates := by
    intro s flowId file reply t h
    simp only [server, respond] at h
    split at h <;> rename_i hpresent <;> cases h <;> exact ⟨"", by simp [server, hpresent]⟩
  creates := by
    intro s flowId file reply t h
    simp only [server, respond] at h
    split at h <;> rename_i hpresent <;> cases h <;> exact ⟨"", by simp [server, hpresent]⟩
  publishes := by
    intro s flowId release reply t h hpresent
    simp only [server, respond] at h
    simp only [server] at hpresent
    rw [if_pos hpresent] at h
    cases h
    exact ⟨"", rfl⟩

/-- What others may do: files are written, never removed. -/
def NeverRemoves (v w : ConfigCenter) : Prop :=
  ∀ key, (v.files key).isSome → (w.files key).isSome

theorem neverRemoves_write (center : ConfigCenter) (file : SentConfigFile) :
    NeverRemoves center (center.write file) := by
  intro key h
  simp only [write]
  split
  · rfl
  · exact h

def raced (center : ConfigCenter) (req : ConfigPublishRequest) (other : SentConfigFile) :
    ConfigCenter :=
  ((center.write other).write req.toConfigFileRequest.convertSpec).release
    req.toConfigReleaseRequest.convertSpec.key

theorem race_served {center : ConfigCenter} {req : ConfigPublishRequest} {other : SentConfigFile}
    (hother : other.key = req.toConfigFileRequest.convertSpec.key)
    (hfree : center.files req.toConfigFileRequest.convertSpec.key = none) :
    Served server.serves NeverRemoves center (raceTrace req) (center.raced req other) := by
  have hcreated :
      ((center.write other).files req.toConfigFileRequest.convertSpec.key).isSome := by
    simp [write, hother]
  have hwritten : (((center.write other).write req.toConfigFileRequest.convertSpec).files
      req.toConfigReleaseRequest.convertSpec.key.file).isSome := by
    simp [write, ConfigServer.publish_key]
  have hnothing : ∀ v, NeverRemoves v v := fun _ _ h => h
  refine .cons (hnothing center) (u := center) ?_
    (.cons (neverRemoves_write center other) (u := center.write other) ?_
      (.cons (hnothing _) (u := (center.write other).write req.toConfigFileRequest.convertSpec) ?_
        (.cons (hnothing _) (u := center.raced req other) ?_ (.nil _))))
  · simp [server, respond, updateCall, hfree]
  · simp [server, respond, createCall, hcreated]
  · simp [server, respond, updateCall, hcreated]
  · simp only [server, respond, publishCall]
    rw [if_pos hwritten]
    rfl

def sampleOther : SentConfigFile :=
  { sampleRequest.toConfigFileRequest.convertSpec with content := "port: 8080" }

def emptyCenter : ConfigCenter := ⟨fun _ => none, fun _ => none⟩

theorem sample_served :
    Served server.serves NeverRemoves emptyCenter (raceTrace sampleRequest)
      (emptyCenter.raced sampleRequest sampleOther) :=
  race_served rfl rfl

end ConfigCenter

namespace ConfigServer

variable {σ : Type} {server : ConfigServer σ} {others : σ → σ → Prop}

/-- A publication that succeeds has released the file as others left it after the write: the one
that was sent, where they let it be. -/
theorem published_content (truthful : server.Truthful) {req : ConfigPublishRequest}
    {trace : List (ConfigCall × ConfigReply)} {s u : σ}
    (h : Transcript (upsertPublishConfigFile req) trace (.ok true))
    (hserved : Served server.serves others s trace u) :
    (∃ v w, server.stored v req.toConfigFileRequest.convertSpec.key =
        some req.toConfigFileRequest.convertSpec ∧ others v w ∧
      (server.stored w req.toConfigFileRequest.convertSpec.key).isSome ∧
      server.released u req.toConfigReleaseRequest.convertSpec.key =
        server.stored w req.toConfigFileRequest.convertSpec.key) ∧
    ((∀ v w, others v w → server.stored w req.toConfigFileRequest.convertSpec.key =
        server.stored v req.toConfigFileRequest.convertSpec.key) →
      server.released u req.toConfigReleaseRequest.convertSpec.key =
        some req.toConfigFileRequest.convertSpec) := by
  obtain ⟨refused, last, reply, r, t, v, -, -, hserves, hattempted, hend⟩ := publish_run h hserved
  rcases hend with ⟨err, -, herr, -⟩ | ⟨info, w, answer, rfl, hothers, hpublish, haccepted⟩
  · cases herr
  · have hstored := stored_of_accepted truthful hattempted hserves
    obtain ⟨publishInfo, rfl⟩ := writeOutcome_accepts.mp haccepted.symm
    obtain ⟨hsome, hreleased⟩ := truthful.published _ _ _ _ _ hpublish
    rw [publish_key] at hsome hreleased
    refine ⟨⟨v, w, hstored, hothers, hsome, hreleased⟩, ?_⟩
    intro hunchanged
    rw [hreleased, hunchanged v w hothers, hstored]

theorem published_content_race :
    ∃ v w, ConfigCenter.server.stored v
        sampleRequest.toConfigFileRequest.convertSpec.key =
          some sampleRequest.toConfigFileRequest.convertSpec ∧ ConfigCenter.NeverRemoves v w ∧
      (ConfigCenter.emptyCenter.raced sampleRequest ConfigCenter.sampleOther).releases
          sampleRequest.toConfigReleaseRequest.convertSpec.key =
        ConfigCenter.server.stored w sampleRequest.toConfigFileRequest.convertSpec.key := by
  obtain ⟨⟨v, w, hstored, hothers, -, hreleased⟩, -⟩ :=
    published_content ConfigCenter.server_truthful (raceTrace_transcript sampleRequest)
      ConfigCenter.sample_served
  exact ⟨v, w, hstored, hothers, hreleased⟩

/-- Where nobody removes the file, a publication succeeds from any state, also when others create
or write the file between any two of its requests. -/
theorem publish_survives_races (truthful : server.Truthful) (reliable : server.Reliable)
    {req : ConfigPublishRequest} {trace : List (ConfigCall × ConfigReply)}
    {result : Except PoleError Bool} {s u : σ}
    (hothers : ∀ v w, others v w →
      (server.stored v req.toConfigFileRequest.convertSpec.key).isSome →
        (server.stored w req.toConfigFileRequest.convertSpec.key).isSome)
    (h : Transcript (upsertPublishConfigFile req) trace result)
    (hserved : Served server.serves others s trace u) :
    result = .ok true := by
  obtain ⟨refused, last, reply, r, t, v, hbefore, hmeanwhile, hserves, hattempted, hend⟩ :=
    publish_run h hserved
  rcases hend with ⟨err, hrefuses, -, -⟩ | ⟨info, w, answer, rfl, hafter, hpublish, rfl⟩
  · obtain ⟨info, rfl⟩ := accepted_of_reliable truthful reliable hothers hattempted hbefore
      hmeanwhile hserves
    rw [writeOutcome_accepts.mpr ⟨info, rfl⟩] at hrefuses
    cases hrefuses
  · have hstored := stored_of_accepted truthful hattempted hserves
    have hpresent := hothers v w hafter (by rw [hstored]; rfl)
    obtain ⟨publishInfo, rfl⟩ := reliable.publishes _ _ _ _ _ hpublish hpresent
    exact writeOutcome_accepts.mpr ⟨publishInfo, rfl⟩

theorem publish_survives_races_sample :
    ∃ result, Transcript (upsertPublishConfigFile sampleRequest) (raceTrace sampleRequest) result ∧
      result = .ok true :=
  ⟨.ok true, raceTrace_transcript sampleRequest,
    publish_survives_races ConfigCenter.server_truthful ConfigCenter.server_reliable
      (fun _ _ hothers h => hothers _ h) (raceTrace_transcript sampleRequest)
      ConfigCenter.sample_served⟩

end ConfigServer

end PoleClient.Connector
