import Mathlib.Data.List.Induction
import PoleClient.Cache.Failover

/-! # Round trips through the failover files

A response is saved in the file of the resource that it names, and loaded from
the file of the resource that is asked for. The two differ for a configuration
response that carries no release, and two resources have one file when their
names have the separator.
-/

namespace PoleClient.Cache

open Lib

variable {ρ β : Type}

/-! ## Files of resources -/

theorem toPersistFile_injective {type other : GovernanceType}
    (h : type.toPersistFile = other.toPersistFile) : type = other := by
  revert h
  cases type <;> cases other <;> decide

namespace FailoverKind

theorem sep_not_mem_suffix (self : FailoverKind) : '#' ∉ self.suffix.toList := by
  cases self with
  | governance type => cases type <;> decide
  | services | «instance» | configFile | configGroup => decide

theorem suffix_injective {self other : FailoverKind} (h : self.suffix = other.suffix) :
    self = other := by
  cases self with
  | governance type =>
      cases other with
      | governance other => rw [toPersistFile_injective h]
      | services | «instance» | configFile | configGroup =>
          revert h
          cases type <;> decide
  | services | «instance» | configFile | configGroup =>
      cases other with
      | governance other =>
          revert h
          cases other <;> decide
      | services | «instance» | configFile | configGroup =>
          revert h
          decide

end FailoverKind

namespace FailoverResource

theorem length_names {self other : FailoverResource} (h : self.kind = other.kind) :
    self.names.length = other.names.length := by
  cases self <;> cases other <;> cases h <;> rfl

theorem eq_of_kind_names {self other : FailoverResource} (hkind : self.kind = other.kind)
    (hnames : self.names = other.names) : self = other := by
  cases self <;> cases other <;> cases hkind <;> cases hnames <;> rfl

theorem toList_file (persistDir : String) (self : FailoverResource) :
    (self.file persistDir).toList =
      (persistDir ++ self.kind.start ++ Text.join '#' self.names).toList ++
        '#' :: self.kind.suffix.toList := by
  unfold file
  simp [String.toList_append]

theorem file_eq_iff {persistDir : String} {self other : FailoverResource} :
    self.file persistDir = other.file persistDir ↔
      self.kind = other.kind ∧ Text.join '#' self.names = Text.join '#' other.names := by
  constructor
  · intro h
    have hlist := congrArg String.toList h
    rw [toList_file, toList_file] at hlist
    obtain ⟨hstart, hsuffix⟩ := Text.eq_of_append_sep_last self.kind.sep_not_mem_suffix
      other.kind.sep_not_mem_suffix hlist
    have hkind := FailoverKind.suffix_injective (String.toList_inj.mp hsuffix)
    refine ⟨hkind, ?_⟩
    rw [hkind] at hstart
    simp only [String.toList_append] at hstart
    exact String.toList_inj.mp (List.append_cancel_left hstart)
  · rintro ⟨hkind, hjoin⟩
    unfold file
    rw [hkind, hjoin]

theorem exists_of_names {self : FailoverResource} {others : List String}
    (h : others.length = self.names.length) :
    ∃ other : FailoverResource, other.names = others ∧ other.kind = self.kind := by
  cases self with
  | services namespaceName =>
      obtain ⟨first, rfl⟩ := List.length_eq_one_iff.mp h
      exact ⟨.services first, rfl, rfl⟩
  | «instance» namespaceName service =>
      obtain ⟨first, second, rfl⟩ := List.length_eq_two.mp h
      exact ⟨.«instance» first second, rfl, rfl⟩
  | governance type namespaceName service =>
      obtain ⟨first, second, rfl⟩ := List.length_eq_two.mp h
      exact ⟨.governance type first second, rfl, rfl⟩
  | configFile namespaceName group file =>
      obtain ⟨first, second, third, rfl⟩ := List.length_eq_three.mp h
      exact ⟨.configFile first second third, rfl, rfl⟩
  | configGroup namespaceName group =>
      obtain ⟨first, second, rfl⟩ := List.length_eq_two.mp h
      exact ⟨.configGroup first second, rfl, rfl⟩

/-- A resource is alone in its file exactly when its names can be told from it. -/
theorem alone_iff (persistDir : String) (self : FailoverResource) :
    (∀ other : FailoverResource, other.file persistDir = self.file persistDir → other = self) ↔
      self.Plain := by
  constructor
  · intro alone
    unfold Plain
    by_contra hnot
    rw [not_or] at hnot
    obtain ⟨hlength, hplain⟩ := hnot
    have hsep : ∃ name ∈ self.names, '#' ∈ name.toList := by
      by_contra hnone
      exact hplain fun name hname hmem => hnone ⟨name, hname, hmem⟩
    rcases Text.exists_other_join (by omega) hsep with ⟨others, hothers, hne, hjoin⟩
    rcases exists_of_names hothers with ⟨other, hnames, hkind⟩
    have hsame := alone other (file_eq_iff.mpr ⟨hkind, by rw [hnames, hjoin]⟩)
    rw [hsame] at hnames
    exact hne hnames.symm
  · intro plain other hfile
    obtain ⟨hkind, hjoin⟩ := file_eq_iff.mp hfile
    have hlength := length_names hkind
    apply eq_of_kind_names hkind
    rcases plain with hshort | hplain
    · cases self with
      | services namespaceName =>
          obtain ⟨first, hfirst⟩ := List.length_eq_one_iff.mp hlength
          rw [hfirst] at hjoin ⊢
          simp only [names, Text.join_singleton] at hjoin ⊢
          rw [hjoin]
      | «instance» | governance | configFile | configGroup => simp [names] at hshort
    · exact Text.eq_of_join_plain hplain hlength hjoin

end FailoverResource

/-! ## Saves -/

def saveFileOf (persistDir : String) : FailoverResponse ρ → FileChoice
  | .naming value => namingSaveFile persistDir value
  | .config value => configSaveFile persistDir value

def encodeResponse (platform : Platform ρ β) : FailoverResponse ρ → β
  | .naming value => platform.naming.encode value
  | .config value => platform.config.encode value

theorem failoverSave_eq {conf : LocalCacheConfig} {platform : Platform ρ β} {files : Files β}
    {save : FailoverSave ρ} {path : String} (enabled : conf.persistEnable = true)
    (h : saveFileOf conf.persistDir save.response = .file path) :
    failoverSave conf platform files save =
      Function.update files path (some (encodeResponse platform save.response)) := by
  unfold failoverSave
  cases hresponse : save.response with
  | naming value =>
      rw [hresponse] at h
      replace h : namingSaveFile conf.persistDir value = .file path := h
      unfold saveNamingFailover saveFile
      simp only [enabled, not_true, if_false, h]
      rfl
  | config value =>
      rw [hresponse] at h
      replace h : configSaveFile conf.persistDir value = .file path := h
      unfold saveConfigFailover saveFile
      simp only [enabled, not_true, if_false, h]
      rfl

def namedResource (save : FailoverSave ρ) : FailoverResource :=
  match save.resource, save.response with
  | .configFile .., .config value =>
      .configFile (savedConf value).namespaceName (savedConf value).group (savedConf value).fileName
  | .configGroup .., .config value =>
      .configGroup (savedConf value).namespaceName (savedConf value).group
  | resource, _ => resource

theorem kind_namedResource (save : FailoverSave ρ) :
    (namedResource save).kind = save.resource.kind := by
  unfold namedResource
  cases save.resource <;> cases save.response <;> rfl

theorem file_of_one (persistDir namespaceName : String) {resource : FailoverResource}
    (hnames : resource.names = [namespaceName]) :
    resource.file persistDir = persistDir ++ resource.kind.start ++ namespaceName ++ "#" ++
      resource.kind.suffix := by
  unfold FailoverResource.file
  rw [hnames, Text.join_singleton]

theorem file_of_two (persistDir namespaceName service : String) {resource : FailoverResource}
    (hnames : resource.names = [namespaceName, service]) :
    resource.file persistDir = persistDir ++ resource.kind.start ++ namespaceName ++ "#" ++
      service ++ "#" ++ resource.kind.suffix := by
  have hsep : String.singleton '#' = "#" := rfl
  unfold FailoverResource.file
  rw [hnames, Text.join_cons_cons, Text.join_singleton, hsep]
  simp only [String.append_assoc]

theorem file_of_three (persistDir namespaceName group file : String)
    {resource : FailoverResource} (hnames : resource.names = [namespaceName, group, file]) :
    resource.file persistDir = persistDir ++ resource.kind.start ++ namespaceName ++ "#" ++
      group ++ "#" ++ file ++ "#" ++ resource.kind.suffix := by
  have hsep : String.singleton '#' = "#" := rfl
  unfold FailoverResource.file
  rw [hnames, Text.join_cons_cons, Text.join_cons_cons, Text.join_singleton, hsep]
  simp only [String.append_assoc]

/-- A response for a resource is saved, in the file of the resource that it names. -/
theorem saveFileOf_answers {save : FailoverSave ρ} (persistDir : String)
    (h : Answers save.resource save.response) :
    saveFileOf persistDir save.response = .file ((namedResource save).file persistDir) := by
  rcases save with ⟨resource, response⟩
  cases response with
  | naming value =>
      cases resource with
      | services namespaceName =>
          rcases h with ⟨service, htype, svc, hsvc, rfl, -⟩
          show namingSaveFile persistDir value = .file (FailoverResource.file persistDir
            (.services svc.namespaceName))
          rw [file_of_one persistDir svc.namespaceName rfl]
          unfold namingSaveFile
          rw [hsvc, htype]
          simp [FailoverResource.kind, FailoverKind.start, FailoverKind.suffix,
            String.append_assoc]
      | «instance» namespaceName service =>
          rcases h with ⟨htype, svc, hsvc, rfl, rfl⟩
          show namingSaveFile persistDir value = .file (FailoverResource.file persistDir
            (.«instance» svc.namespaceName svc.name))
          rw [file_of_two persistDir svc.namespaceName svc.name rfl]
          unfold namingSaveFile
          rw [hsvc, htype]
          rfl
      | governance type namespaceName service =>
          rcases h with ⟨htype, svc, hsvc, rfl, rfl⟩
          show namingSaveFile persistDir value = .file (FailoverResource.file persistDir
            (.governance type svc.namespaceName svc.name))
          rw [file_of_two persistDir svc.namespaceName svc.name rfl]
          unfold namingSaveFile
          rw [hsvc, htype]
          cases type <;> rfl
      | configFile | configGroup => cases h
  | config value =>
      cases resource with
      | configFile namespaceName group file =>
          show configSaveFile persistDir value = .file (FailoverResource.file persistDir
            (.configFile (savedConf value).namespaceName (savedConf value).group
              (savedConf value).fileName))
          rw [file_of_three persistDir _ _ _ rfl]
          unfold configSaveFile
          rw [h.1]
          simp [FailoverResource.kind, FailoverKind.start, FailoverKind.suffix,
            String.append_assoc]
      | configGroup namespaceName group =>
          show configSaveFile persistDir value = .file (FailoverResource.file persistDir
            (.configGroup (savedConf value).namespaceName (savedConf value).group))
          rw [file_of_two persistDir _ _ rfl]
          unfold configSaveFile
          rw [h.1]
          simp [FailoverResource.kind, FailoverKind.start, FailoverKind.suffix,
            String.append_assoc]
      | services | «instance» | governance => cases h

theorem savedConf_mem {value : Connector.ConfigDiscoverResponse} (h : releases value ≠ []) :
    savedConf value ∈ releases value := by
  unfold releases savedConf at *
  cases hfile : value.file with
  | some file => simp
  | none =>
      cases hnames : value.fileNames with
      | nil => simp [hfile, hnames] at h
      | cons first rest => simp

theorem savedConf_of_empty {value : Connector.ConfigDiscoverResponse} (h : releases value = []) :
    savedConf value = default := by
  unfold releases at h
  obtain ⟨hfile, hnames⟩ := List.append_eq_nil_iff.mp h
  unfold savedConf
  rw [Option.toList_eq_nil_iff.mp hfile, hnames]
  rfl

/-- A response names its own resource exactly when it carries a release of it, where there are
names to carry. -/
theorem namedResource_eq_iff {save : FailoverSave ρ} (h : Answers save.resource save.response) :
    namedResource save = save.resource ↔ Carried save := by
  rcases save with ⟨resource, response⟩
  cases response with
  | naming value =>
      unfold namedResource Carried
      cases resource <;> simp
  | config value =>
      unfold Carried
      by_cases hempty : releases value = []
      · have hconf := savedConf_of_empty hempty
        cases resource with
        | configFile namespaceName group file =>
            simp [namedResource, hconf, hempty, FailoverResource.names, default,
              @eq_comm String ""]
        | configGroup namespaceName group =>
            simp [namedResource, hconf, hempty, FailoverResource.names, default,
              @eq_comm String ""]
        | services | «instance» | governance => cases h
      · have hmem := savedConf_mem hempty
        cases resource with
        | configFile namespaceName group file =>
            simp [namedResource, hempty, h.2 _ hmem]
        | configGroup namespaceName group =>
            simp [namedResource, hempty, h.2 _ hmem]
        | services | «instance» | governance => cases h

/-- A response that does not carry a release is saved under empty names. -/
theorem plain_of_not_carried {save : FailoverSave ρ} (h : Answers save.resource save.response)
    (hnot : ¬ Carried save) : (namedResource save).Plain := by
  rcases save with ⟨resource, response⟩
  cases response with
  | naming value => exact absurd trivial hnot
  | config value =>
      have hempty : releases value = [] := by
        by_contra hne
        exact hnot (.inl hne)
      have hconf := savedConf_of_empty hempty
      right
      intro name hname
      cases resource with
      | configFile namespaceName group file =>
          simp [namedResource, hconf, FailoverResource.names, default] at hname
          simp [hname]
      | configGroup namespaceName group =>
          simp [namedResource, hconf, FailoverResource.names, default] at hname
          simp [hname]
      | services | «instance» | governance => cases h

/-! ## Loads -/

def FailoverResponse.isConfig : FailoverResponse ρ → Bool
  | naming _ => false
  | config _ => true

def FailoverKind.isConfig : FailoverKind → Bool
  | services | «instance» | governance _ => false
  | configFile | configGroup => true

theorem isConfig_of_answers {resource : FailoverResource} {response : FailoverResponse ρ}
    (h : Answers resource response) : resource.kind.isConfig = response.isConfig := by
  cases resource <;> cases response <;> first | rfl | cases h

/-- The content of a resource's file, read as a response of its family. -/
def readResource (conf : LocalCacheConfig) (platform : Platform ρ β) (files : Files β)
    (resource : FailoverResource) : Except PoleError (FailoverResponse ρ) :=
  if resource.kind.isConfig then
    (readFile platform.config platform files (resource.file conf.persistDir)).map .config
  else (readFile platform.naming platform files (resource.file conf.persistDir)).map .naming

theorem namingLoadFile_eq {key : ResourceEventKey} {resource : FailoverResource}
    (persistDir : String) (h : key.failoverResource = some resource)
    (hfamily : resource.kind.isConfig = false) :
    namingLoadFile persistDir key = .file (resource.file persistDir) := by
  unfold ResourceEventKey.failoverResource at h
  unfold namingLoadFile
  cases htype : key.eventType with
  | service =>
      simp only [htype, Option.some.injEq] at h
      rw [← h, file_of_one persistDir key.namespaceName rfl]
      simp [FailoverResource.kind, FailoverKind.start, FailoverKind.suffix, String.append_assoc]
  | «instance» =>
      simp only [htype, Option.map_eq_some_iff] at h
      rcases h with ⟨service, hservice, rfl⟩
      rw [file_of_two persistDir key.namespaceName service rfl, hservice]
      rfl
  | governance type =>
      simp only [htype, Option.map_eq_some_iff] at h
      rcases h with ⟨service, hservice, rfl⟩
      rw [file_of_two persistDir key.namespaceName service rfl, hservice]
      rfl
  | configFile =>
      simp only [htype, Option.bind_eq_bind, Option.bind_eq_some_iff] at h
      rcases h with ⟨group, -, file, -, heq⟩
      cases heq
      cases hfamily
  | configGroup =>
      simp only [htype, Option.map_eq_some_iff] at h
      rcases h with ⟨group, -, rfl⟩
      cases hfamily
  | unknown | serviceContract | serviceIdentity | serviceIdentityBundle | namespaces
  | configGroups =>
      simp only [htype] at h
      cases h

theorem configLoadFile_eq {key : ResourceEventKey} {resource : FailoverResource}
    (persistDir : String) (h : key.failoverResource = some resource)
    (hfamily : resource.kind.isConfig = true) :
    configLoadFile persistDir key = .file (resource.file persistDir) := by
  unfold ResourceEventKey.failoverResource at h
  unfold configLoadFile
  cases htype : key.eventType with
  | configFile =>
      simp only [htype, Option.bind_eq_bind, Option.bind_eq_some_iff] at h
      rcases h with ⟨group, hgroup, file, hname, heq⟩
      cases heq
      rw [file_of_three persistDir key.namespaceName group file rfl, hgroup, hname]
      simp [FailoverResource.kind, FailoverKind.start, FailoverKind.suffix, String.append_assoc]
  | configGroup =>
      simp only [htype, Option.map_eq_some_iff] at h
      rcases h with ⟨group, hgroup, rfl⟩
      rw [file_of_two persistDir key.namespaceName group rfl, hgroup]
      simp [FailoverResource.kind, FailoverKind.start, FailoverKind.suffix, String.append_assoc]
  | service =>
      simp only [htype, Option.some.injEq] at h
      rw [← h] at hfamily
      cases hfamily
  | «instance» | governance =>
      simp only [htype, Option.map_eq_some_iff] at h
      rcases h with ⟨service, -, rfl⟩
      cases hfamily
  | unknown | serviceContract | serviceIdentity | serviceIdentityBundle | namespaces
  | configGroups =>
      simp only [htype] at h
      cases h

/-- The type of a key tells the family of its resource. -/
theorem isConfig_iff {key : ResourceEventKey} {resource : FailoverResource}
    (h : key.failoverResource = some resource) :
    resource.kind.isConfig = true ↔
      key.eventType = .configFile ∨ key.eventType = .configGroup := by
  unfold ResourceEventKey.failoverResource at h
  cases htype : key.eventType with
  | configFile =>
      simp only [htype, Option.bind_eq_bind, Option.bind_eq_some_iff] at h
      rcases h with ⟨group, -, file, -, heq⟩
      cases heq
      exact ⟨fun _ => .inl rfl, fun _ => rfl⟩
  | configGroup =>
      simp only [htype, Option.map_eq_some_iff] at h
      rcases h with ⟨group, -, rfl⟩
      exact ⟨fun _ => .inr rfl, fun _ => rfl⟩
  | service =>
      simp only [htype, Option.some.injEq] at h
      rw [← h]
      exact ⟨nofun, nofun⟩
  | «instance» | governance =>
      simp only [htype, Option.map_eq_some_iff] at h
      rcases h with ⟨service, -, rfl⟩
      exact ⟨nofun, nofun⟩
  | unknown | serviceContract | serviceIdentity | serviceIdentityBundle | namespaces
  | configGroups =>
      simp only [htype] at h
      cases h

theorem failoverLoad_eq {conf : LocalCacheConfig} {platform : Platform ρ β} {files : Files β}
    {key : ResourceEventKey} {resource : FailoverResource} (enabled : conf.persistEnable = true)
    (h : key.failoverResource = some resource) :
    failoverLoad conf platform files key =
      .done (readResource conf platform files resource) := by
  have hiff := isConfig_iff h
  unfold failoverLoad readResource
  cases hfamily : resource.kind.isConfig with
  | true =>
      have hload : failoverConfigLoad conf platform files key =
          .done (readFile platform.config platform files (resource.file conf.persistDir)) := by
        unfold failoverConfigLoad loadFile
        rw [configLoadFile_eq conf.persistDir h hfamily]
        simp [enabled]
      rcases hiff.mp hfamily with htype | htype <;> rw [htype, hload] <;> rfl
  | false =>
      have hload : failoverNamingLoad conf platform files key =
          .done (readFile platform.naming platform files (resource.file conf.persistDir)) := by
        unfold failoverNamingLoad loadFile
        rw [namingLoadFile_eq conf.persistDir h hfamily]
        simp [enabled]
      rw [hfamily] at hiff
      split
      · exact absurd (hiff.mpr (.inl ‹_›)) Bool.false_ne_true
      · exact absurd (hiff.mpr (.inr ‹_›)) Bool.false_ne_true
      · rw [hload]
        rfl

theorem readResource_of_some {conf : LocalCacheConfig} {platform : Platform ρ β}
    {files : Files β} {resource : FailoverResource} {response : FailoverResponse ρ}
    (hfamily : resource.kind.isConfig = response.isConfig)
    (h : files (resource.file conf.persistDir) = some (encodeResponse platform response)) :
    readResource conf platform files resource = .ok response := by
  unfold readResource readFile
  rw [hfamily, h]
  cases response with
  | naming value =>
      simp only [FailoverResponse.isConfig, encodeResponse, platform.naming.decode_encode]
      rfl
  | config value =>
      simp only [FailoverResponse.isConfig, encodeResponse, platform.config.decode_encode]
      rfl

theorem readResource_of_none {conf : LocalCacheConfig} {platform : Platform ρ β}
    {files : Files β} {resource : FailoverResource}
    (h : files (resource.file conf.persistDir) = none) :
    ∃ error, readResource conf platform files resource = .error error := by
  unfold readResource readFile
  rw [h]
  split <;> exact ⟨_, rfl⟩

theorem exists_key (resource : FailoverResource) :
    ∃ key : ResourceEventKey, key.failoverResource = some resource := by
  cases resource with
  | services namespaceName => exact ⟨⟨namespaceName, .service, fun _ => none⟩, rfl⟩
  | «instance» namespaceName service =>
      exact ⟨⟨namespaceName, .«instance», fun _ => some service⟩, rfl⟩
  | governance type namespaceName service =>
      exact ⟨⟨namespaceName, .governance type, fun _ => some service⟩, rfl⟩
  | configFile namespaceName group file =>
      exact ⟨⟨namespaceName, .configFile,
        fun name => if name = "group" then some group else some file⟩, rfl⟩
  | configGroup namespaceName group =>
      exact ⟨⟨namespaceName, .configGroup, fun _ => some group⟩, rfl⟩

/-! ## Sequences of saves -/

section Sequences

variable {conf : LocalCacheConfig} {platform : Platform ρ β}

theorem roundTrips_iff (enabled : conf.persistEnable = true) {saves : List (FailoverSave ρ)} :
    RoundTrips conf platform saves ↔ ∀ resource,
      match lastSaved saves resource with
      | some response =>
          readResource conf platform (run (failoverSave conf platform) noFiles saves) resource =
            .ok response
      | none => ∃ error,
          readResource conf platform (run (failoverSave conf platform) noFiles saves) resource =
            .error error := by
  constructor
  · intro h resource
    rcases exists_key resource with ⟨key, hkey⟩
    have hload := h key resource hkey
    rw [failoverLoad_eq enabled hkey] at hload
    cases hlast : lastSaved saves resource with
    | some response =>
        simp only [hlast, LoadResult.done.injEq] at hload
        exact hload
    | none =>
        simp only [hlast, LoadResult.done.injEq] at hload
        exact hload
  · intro h key resource hkey
    rw [failoverLoad_eq enabled hkey]
    have hread := h resource
    cases hlast : lastSaved saves resource with
    | some response =>
        simp only [hlast] at hread
        rw [hread]
    | none =>
        simp only [hlast] at hread
        rcases hread with ⟨error, hread⟩
        exact ⟨error, by rw [hread]⟩

theorem lastSaved_append (saves : List (FailoverSave ρ)) (save : FailoverSave ρ)
    (resource : FailoverResource) :
    lastSaved (saves ++ [save]) resource =
      if save.resource = resource then some save.response else lastSaved saves resource := by
  unfold lastSaved
  rw [List.filter_append]
  by_cases h : save.resource = resource
  · rw [if_pos h, List.filter_cons_of_pos (by simpa using h)]
    simp
  · rw [if_neg h, List.filter_cons_of_neg (by simpa using h)]
    simp

theorem run_save (enabled : conf.persistEnable = true) {save : FailoverSave ρ}
    (h : Answers save.resource save.response) (files : Files β) :
    failoverSave conf platform files save =
      Function.update files ((namedResource save).file conf.persistDir)
        (some (encodeResponse platform save.response)) :=
  failoverSave_eq enabled (saveFileOf_answers conf.persistDir h)

theorem saved_of_file (enabled : conf.persistEnable = true) {saves : List (FailoverSave ρ)}
    (answers : ∀ save ∈ saves, Answers save.resource save.response) {path : String} {buf : β}
    (h : run (failoverSave conf platform) noFiles saves path = some buf) :
    ∃ save ∈ saves, (namedResource save).file conf.persistDir = path ∧
      buf = encodeResponse platform save.response := by
  induction saves using List.reverseRecOn with
  | nil => cases h
  | append_singleton saves save ih =>
      rw [run_append, run_cons, run_nil, run_save enabled (answers save (by simp))] at h
      by_cases hpath : path = (namedResource save).file conf.persistDir
      · rw [hpath, Function.update_self] at h
        cases h
        exact ⟨save, by simp, hpath.symm, rfl⟩
      · rw [Function.update_of_ne hpath] at h
        rcases ih (fun other hother => answers other (List.mem_append_left _ hother)) h with
          ⟨other, hother, hfile⟩
        exact ⟨other, List.mem_append_left _ hother, hfile⟩

theorem exists_of_lastSaved {saves : List (FailoverSave ρ)} {resource : FailoverResource}
    {response : FailoverResponse ρ} (h : lastSaved saves resource = some response) :
    ∃ save ∈ saves, save.resource = resource ∧ save.response = response := by
  unfold lastSaved at h
  rcases Option.map_eq_some_iff.mp h with ⟨save, hlast, rfl⟩
  obtain ⟨hmem, hresource⟩ := List.mem_filter.mp (List.mem_of_getLast? hlast)
  exact ⟨save, hmem, by simpa using hresource, rfl⟩

theorem resource_unique {save other : FailoverSave ρ}
    (hsave : Answers save.resource save.response) (hother : Answers other.resource other.response)
    (carried : Carried save) (otherCarried : Carried other)
    (hkind : save.resource.kind = other.resource.kind)
    (hresponse : save.response = other.response) : save.resource = other.resource := by
  have hnamed := (namedResource_eq_iff hsave).mpr carried
  have hotherNamed := (namedResource_eq_iff hother).mpr otherCarried
  rcases save with ⟨resource, response⟩
  rcases other with ⟨otherResource, otherResponse⟩
  obtain rfl : response = otherResponse := hresponse
  cases response with
  | naming value =>
      cases resource <;> cases otherResource <;> cases hkind <;> first
        | (cases hsave; done)
        | (rcases hsave with ⟨-, svc, hsvc, rfl, rfl⟩
           rcases hother with ⟨-, found, hfound, rfl, rfl⟩
           cases hsvc.symm.trans hfound
           rfl)
        | (rcases hsave with ⟨_, -, svc, hsvc, rfl, -⟩
           rcases hother with ⟨_, -, found, hfound, rfl, -⟩
           cases hsvc.symm.trans hfound
           rfl)
  | config value =>
      rw [← hnamed, ← hotherNamed]
      cases resource <;> cases otherResource <;> cases hkind <;> first | rfl | cases hsave

/-- A load that gives the response just saved finds it in its file, as the response carries its
names. -/
theorem carried_of_roundTrips (enabled : conf.persistEnable = true)
    {first : List (FailoverSave ρ)} {save : FailoverSave ρ}
    (answers : ∀ other ∈ first ++ [save], Answers other.resource other.response)
    (h : RoundTrips conf platform (first ++ [save])) : Carried save := by
  by_contra hnot
  have hsave := answers save (by simp)
  have hne : namedResource save ≠ save.resource :=
    fun heq => hnot ((namedResource_eq_iff hsave).mp heq)
  have hfile : save.resource.file conf.persistDir ≠
      (namedResource save).file conf.persistDir := by
    intro heq
    have halone := (FailoverResource.alone_iff conf.persistDir (namedResource save)).mpr
      (plain_of_not_carried hsave hnot)
    exact hne (halone save.resource heq).symm
  have hread := (roundTrips_iff enabled).mp h save.resource
  rw [lastSaved_append, if_pos rfl] at hread
  simp only at hread
  have hfiles : run (failoverSave conf platform) noFiles (first ++ [save])
      (save.resource.file conf.persistDir) =
        run (failoverSave conf platform) noFiles first (save.resource.file conf.persistDir) := by
    rw [run_append, run_cons, run_nil, run_save enabled hsave, Function.update_of_ne hfile]
  cases hcontent : run (failoverSave conf platform) noFiles first
      (save.resource.file conf.persistDir) with
  | none =>
      rcases readResource_of_none (hfiles.trans hcontent) with ⟨error, herror⟩
      rw [herror] at hread
      cases hread
  | some buf =>
      have hbefore : ∀ other ∈ first, Answers other.resource other.response :=
        fun other hother => answers other (List.mem_append_left _ hother)
      rcases saved_of_file enabled hbefore hcontent with ⟨other, hmem, hotherFile, rfl⟩
      have hkind := (FailoverResource.file_eq_iff.mp hotherFile).1
      rw [kind_namedResource] at hkind
      have hfamily : save.resource.kind.isConfig = other.response.isConfig := by
        rw [← hkind]
        exact isConfig_of_answers (hbefore other hmem)
      rw [readResource_of_some hfamily (hfiles.trans hcontent)] at hread
      -- The file holds the response of the save, which is saved elsewhere.
      have hsame := saveFileOf_answers conf.persistDir (hbefore other hmem)
      rw [Except.ok.inj hread, saveFileOf_answers conf.persistDir hsave] at hsame
      exact hfile (hotherFile.symm.trans (FileChoice.file.inj hsame).symm)

/-- A load of another resource that is right finds another file. -/
theorem plain_of_roundTrips (enabled : conf.persistEnable = true)
    {first : List (FailoverSave ρ)} {save : FailoverSave ρ}
    (answers : ∀ other ∈ first ++ [save], Answers other.resource other.response)
    (carried : ∀ other ∈ first ++ [save], Carried other)
    (h : RoundTrips conf platform (first ++ [save])) : save.resource.Plain := by
  have hsave := answers save (by simp)
  have hnamed := (namedResource_eq_iff hsave).mpr (carried save (by simp))
  rw [← FailoverResource.alone_iff conf.persistDir]
  intro resource hfile
  by_contra hne
  have hkind := (FailoverResource.file_eq_iff.mp hfile).1
  have hcontent : run (failoverSave conf platform) noFiles (first ++ [save])
      (resource.file conf.persistDir) = some (encodeResponse platform save.response) := by
    rw [run_append, run_cons, run_nil, run_save enabled hsave, hnamed, hfile,
      Function.update_self]
  have hfamily : resource.kind.isConfig = save.response.isConfig := by
    rw [hkind]
    exact isConfig_of_answers hsave
  have hread := (roundTrips_iff enabled).mp h resource
  rw [lastSaved_append, if_neg fun heq => hne heq.symm,
    readResource_of_some hfamily hcontent] at hread
  cases hlast : lastSaved first resource with
  | none =>
      simp only [hlast] at hread
      rcases hread with ⟨error, herror⟩
      cases herror
  | some response =>
      simp only [hlast] at hread
      rcases exists_of_lastSaved hlast with ⟨other, hmem, rfl, rfl⟩
      have hother := List.mem_append_left [save] hmem
      exact hne (resource_unique (answers other hother) hsave (carried other hother)
        (carried save (by simp)) hkind (Except.ok.inj hread).symm)

/-- While every response carries its names and every resource is alone in its file, the file holds
the last response that was saved for it. -/
theorem file_of_lastSaved (platform : Platform ρ β) (enabled : conf.persistEnable = true)
    {saves : List (FailoverSave ρ)}
    (answers : ∀ save ∈ saves, Answers save.resource save.response)
    (good : ∀ save ∈ saves, Carried save ∧ save.resource.Plain) (resource : FailoverResource) :
    run (failoverSave conf platform) noFiles saves (resource.file conf.persistDir) =
      (lastSaved saves resource).map (encodeResponse platform) := by
  induction saves using List.reverseRecOn with
  | nil => rfl
  | append_singleton saves save ih =>
      have hsave := answers save (by simp)
      obtain ⟨hcarried, hplain⟩ := good save (by simp)
      rw [run_append, run_cons, run_nil, run_save enabled hsave,
        (namedResource_eq_iff hsave).mpr hcarried, lastSaved_append]
      by_cases heq : save.resource = resource
      · rw [if_pos heq, heq, Function.update_self]
        rfl
      · have hfile : resource.file conf.persistDir ≠ save.resource.file conf.persistDir :=
          fun hfile => heq
            ((FailoverResource.alone_iff conf.persistDir _).mpr hplain resource hfile).symm
        rw [if_neg heq, Function.update_of_ne hfile]
        exact ih (fun other hother => answers other (List.mem_append_left _ hother))
          fun other hother => good other (List.mem_append_left _ hother)

theorem roundTrips_of_good (enabled : conf.persistEnable = true)
    {saves : List (FailoverSave ρ)} (answers : ∀ save ∈ saves, Answers save.resource save.response)
    (good : ∀ save ∈ saves, Carried save ∧ save.resource.Plain) :
    RoundTrips conf platform saves := by
  rw [roundTrips_iff enabled]
  intro resource
  have hfile := file_of_lastSaved platform enabled answers good resource
  cases hlast : lastSaved saves resource with
  | none =>
      rw [hlast] at hfile
      exact readResource_of_none hfile
  | some response =>
      rw [hlast] at hfile
      rcases exists_of_lastSaved hlast with ⟨save, hmem, rfl, rfl⟩
      exact readResource_of_some (isConfig_of_answers (answers save hmem)) hfile

end Sequences

/-- Saves and loads round-trip after every save if and only if every configuration response carries
a release of its named resource, and no name has the separator, except that of a list of
services. -/
theorem failover_round_trip_iff (conf : LocalCacheConfig) (platform : Platform ρ β)
    (saves : List (FailoverSave ρ)) (enabled : conf.persistEnable = true)
    (answers : ∀ save ∈ saves, Answers save.resource save.response) :
    (∀ first, first <+: saves → RoundTrips conf platform first) ↔
      ∀ save ∈ saves, Carried save ∧ save.resource.Plain := by
  constructor
  · intro h
    have hcarried : ∀ save ∈ saves, Carried save := by
      intro save hmem
      rcases List.append_of_mem hmem with ⟨first, rest, rfl⟩
      have hpart : first ++ [save] <+: first ++ save :: rest := ⟨rest, by simp⟩
      exact carried_of_roundTrips enabled (fun other hother => answers other
        (hpart.subset hother)) (h _ hpart)
    intro save hmem
    refine ⟨hcarried save hmem, ?_⟩
    rcases List.append_of_mem hmem with ⟨first, rest, rfl⟩
    have hpart : first ++ [save] <+: first ++ save :: rest := ⟨rest, by simp⟩
    exact plain_of_roundTrips enabled (fun other hother => answers other (hpart.subset hother))
      (fun other hother => hcarried other (hpart.subset hother)) (h _ hpart)
  · intro good first hpart
    exact roundTrips_of_good enabled (fun save hsave => answers save (hpart.subset hsave))
      fun save hsave => good save (hpart.subset hsave)

/-! ## Rules, an emptied group, and a namespace with the separator -/

/-- Messages that are written as they are. -/
def plainPlatform :
    Platform Unit (Connector.DiscoverResponse Unit ⊕ Connector.ConfigDiscoverResponse) where
  naming :=
    { encode := .inl
      decode := fun
        | .inl value => .ok value
        | .inr _ => .error "invalid wire type"
      decode_encode := fun _ => rfl }
  config :=
    { encode := .inr
      decode := fun
        | .inl _ => .error "invalid wire type"
        | .inr value => .ok value
      decode_encode := fun _ => rfl }
  debug := fun text => text
  notFound := "No such file or directory"

def persistentCache : LocalCacheConfig := ⟨true, "./pole/cache"⟩

def routerRules (namespaceName service revision : String) : FailoverSave Unit where
  resource := .governance .routerRule namespaceName service
  response := .naming { ordersResponse with
    service := some ⟨"s1", namespaceName, service, .empty, revision⟩
    code := .executeSuccess
    type := .customRouteRule
    serviceIdentity := none
    serviceIdentityBundle := none }

theorem routerRules_answer (namespaceName service revision : String) :
    Answers (routerRules namespaceName service revision).resource
      (routerRules namespaceName service revision).response :=
  ⟨rfl, _, rfl, rfl, rfl⟩

def settingsFiles (files : List ConfigFileRelease) : FailoverSave Unit where
  resource := .configGroup "prod" "settings"
  response := .config
    { revision := "r1", file := none, fileNames := files, code := .executeSuccess,
      type := .configFileNames }

def settingsRelease : ConfigFileRelease := { appRelease with group := "settings" }

theorem settingsFiles_answer {files : List ConfigFileRelease}
    (h : ∀ release ∈ files, release = settingsRelease) :
    Answers (settingsFiles files).resource (settingsFiles files).response := by
  refine ⟨rfl, fun release hrelease => ?_⟩
  rw [h release (by simpa [settingsFiles, releases] using hrelease)]
  exact ⟨rfl, rfl⟩

/-- Rules of two services and a group of files, and then newer rules of the first service. -/
def revisedSaves : List (FailoverSave Unit) :=
  [routerRules "prod" "orders" "r1", settingsFiles [settingsRelease],
    routerRules "prod" "payments" "r1", routerRules "prod" "orders" "r2"]

theorem revisedSaves_answer : ∀ save ∈ revisedSaves, Answers save.resource save.response := by
  intro save hsave
  unfold revisedSaves at hsave
  rcases List.mem_cons.mp hsave with rfl | hsave
  · exact routerRules_answer "prod" "orders" "r1"
  rcases List.mem_cons.mp hsave with rfl | hsave
  · exact settingsFiles_answer (by simp)
  rcases List.mem_cons.mp hsave with rfl | hsave
  · exact routerRules_answer "prod" "payments" "r1"
  · rw [List.mem_singleton.mp hsave]
    exact routerRules_answer "prod" "orders" "r2"

theorem revisedSaves_good : ∀ save ∈ revisedSaves, Carried save ∧ save.resource.Plain := by
  intro save hsave
  unfold revisedSaves at hsave
  rcases List.mem_cons.mp hsave with rfl | hsave
  · exact ⟨trivial, .inr (by decide)⟩
  rcases List.mem_cons.mp hsave with rfl | hsave
  · exact ⟨.inl (List.cons_ne_nil _ _), .inr (by decide)⟩
  rcases List.mem_cons.mp hsave with rfl | hsave
  · exact ⟨trivial, .inr (by decide)⟩
  · rw [List.mem_singleton.mp hsave]
    exact ⟨trivial, .inr (by decide)⟩

/-- After the last of these saves the newer rules are loaded, and the other two responses as they
were saved. -/
theorem revisedSaves_round_trip :
    (∀ first, first <+: revisedSaves → RoundTrips persistentCache plainPlatform first) ∧
      lastSaved revisedSaves (.governance .routerRule "prod" "orders") =
        some (routerRules "prod" "orders" "r2").response ∧
      lastSaved revisedSaves (.governance .routerRule "prod" "payments") =
        some (routerRules "prod" "payments" "r1").response ∧
      lastSaved revisedSaves (.configGroup "prod" "settings") =
        some (settingsFiles [settingsRelease]).response := by
  refine ⟨?_, rfl, rfl, rfl⟩
  exact (failover_round_trip_iff persistentCache plainPlatform revisedSaves rfl
    revisedSaves_answer).mpr revisedSaves_good

/-- A group whose list has become empty is still loaded with its old files, and the rules of c in
a#b are loaded for b#c in a. -/
theorem emptied_group_kept_and_rules_shared :
    (∀ save ∈ [settingsFiles [settingsRelease], settingsFiles []],
        Answers save.resource save.response) ∧
      ¬ RoundTrips persistentCache plainPlatform
        [settingsFiles [settingsRelease], settingsFiles []] ∧
      Answers (routerRules "a#b" "c" "r1").resource (routerRules "a#b" "c" "r1").response ∧
      ¬ RoundTrips persistentCache plainPlatform [routerRules "a#b" "c" "r1"] := by
  have hanswers : ∀ save ∈ [settingsFiles [settingsRelease]] ++ [settingsFiles []],
      Answers save.resource save.response := by
    intro save hsave
    rcases List.mem_cons.mp hsave with rfl | hsave
    · exact settingsFiles_answer (by simp)
    · rw [List.mem_singleton.mp hsave]
      exact settingsFiles_answer nofun
  have hrules : ∀ save ∈ [] ++ [routerRules "a#b" "c" "r1"],
      Answers save.resource save.response := by
    intro save hsave
    rw [List.mem_singleton.mp hsave]
    exact routerRules_answer "a#b" "c" "r1"
  refine ⟨hanswers, fun h => ?_, routerRules_answer "a#b" "c" "r1", fun h => ?_⟩
  · rcases carried_of_roundTrips rfl hanswers h with hcarried | hnames
    · exact hcarried rfl
    · exact absurd (hnames "prod" (by decide)) (by decide)
  · have hplain := plain_of_roundTrips rfl hrules (fun save hsave => by
      rw [List.mem_singleton.mp hsave]
      trivial) h
    rcases hplain with hshort | hplain
    · exact absurd hshort (by decide)
    · exact hplain "a#b" (by decide) (by decide)

end PoleClient.Cache
