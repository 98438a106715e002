import Mathlib.Logic.Function.Basic
import PoleClient.Connector.Watch
import PoleClient.Lib.Run

/-! # Decryption of configuration files

The filter that decrypts the content of a configuration file, and the receive
loop that runs it on every configuration response. A panic ends the loop's task;
bytes that are taken for a string unchecked count as one. The base64 decoder and
the primitives of RSA and of the block cipher are parameters.
-/

namespace PoleClient.Connector

open Cache Lib

/-! ## Messages -/

/-- A release with the flag that only the filter reads. -/
structure SpecConfigFileRelease extends Cache.ConfigFileRelease where
  encrypted : Bool

instance : Inhabited SpecConfigFileRelease := ⟨⟨default, false⟩⟩

structure SpecConfigDiscoverResponse where
  code : Code
  type : ConfigDiscoverResponseType
  revision : String
  file : Option SpecConfigFileRelease
  fileNames : List Cache.ConfigFileRelease

/-- What the connector goes on with after the filters. -/
def SpecConfigDiscoverResponse.plain (resp : SpecConfigDiscoverResponse) :
    ConfigDiscoverResponse where
  revision := resp.revision
  file := resp.file.map SpecConfigFileRelease.toConfigFileRelease
  fileNames := resp.fileNames
  code := resp.code
  type := resp.type

/-! ## Partial operations -/

/-- What ends the task of the caller. -/
inductive Fault where
  /-- `decode(..).unwrap()` on a text that is not base64. -/
  | base64Unwrap
  /-- `String::from_utf8(..).unwrap()` on other bytes. -/
  | utf8Unwrap
  /-- `String::from_utf8_unchecked` on other bytes. -/
  | uncheckedUtf8
  /-- `[0..16]` of a shorter key. -/
  | sliceOutOfRange
  /-- `new_from_slices(..).unwrap()` on a key of another length. -/
  | keyLength
deriving DecidableEq, Repr

/-- The functions of the crates; their errors are given by their texts. -/
structure CryptoCrates where
  base64Decode : String → Except String ByteArray
  decryptVec : (key iv ciphertext : ByteArray) → Except String ByteArray

def fromUtf8Unchecked (bytes : ByteArray) : Except Fault String :=
  match String.fromUTF8? bytes with
  | some txt => .ok txt
  | none => .error .uncheckedUtf8

/-- AES-128 takes a key of sixteen bytes and an initial block of sixteen. -/
def newFromSlices (key iv : ByteArray) : Option (ByteArray × ByteArray) :=
  if key.size = 16 ∧ iv.size = 16 then some (key, iv) else none

theorem fromUTF8_eq_some_iff (bytes : ByteArray) (txt : String) :
    String.fromUTF8? bytes = some txt ↔ bytes = txt.toByteArray := by
  unfold String.fromUTF8?
  split
  · rename_i hvalid
    rw [Option.some.injEq, ← String.toByteArray_inj]
    rfl
  · rename_i hinvalid
    simp only [reduceCtorEq, false_iff]
    rintro rfl
    exact hinvalid txt.isValidUTF8

/-! ## The ciphers -/

/-- `RsaPrivateKey::decrypt` with the private key of the filter. -/
structure RSACryptor where
  privKeyDecrypt : ByteArray → Except String ByteArray

namespace RSACryptor

def decrypt (self : RSACryptor) (ciphertext : ByteArray) : Except PoleError ByteArray :=
  match self.privKeyDecrypt ciphertext with
  | .error err => .error (.new .aesDecryptError ("failed to decrypt: " ++ err))
  | .ok plaintext => .ok plaintext

def decryptFromBase64 (crates : CryptoCrates) (self : RSACryptor) (base64Ciphertext : String) :
    Except Fault (Except PoleError String) :=
  match crates.base64Decode base64Ciphertext with
  | .error err => .ok (.error (.new .aesDecryptError err))
  | .ok ciphertext =>
      match self.decrypt ciphertext with
      | .error err => .ok (.error err)
      | .ok txt => (fromUtf8Unchecked txt).map .ok

end RSACryptor

structure AESCryptor where
deriving DecidableEq, Repr

namespace AESCryptor

/-- What `decrypt` does once it has the cipher; the errors of these steps are returned. -/
def decryptContent (crates : CryptoCrates) (cipher : ByteArray × ByteArray)
    (ciphertext : String) : Except PoleError String :=
  match crates.base64Decode ciphertext with
  | .error err =>
      .error (.new .aesDecryptError ("failed to decode base64 ciphertext: " ++ err))
  | .ok txt =>
      match crates.decryptVec cipher.1 cipher.2 txt with
      | .error err => .error (.new .aesDecryptError ("failed to decrypt: " ++ err))
      | .ok data =>
          match String.fromUTF8? data with
          | some txt => .ok txt
          | none =>
              .error (.new .aesDecryptError "failed to convert decrypted data to string")

def decrypt (crates : CryptoCrates) (_self : AESCryptor) (ciphertext key : String) :
    Except Fault (Except PoleError String) :=
  let keySlice := key.toByteArray
  if keySlice.size < 16 then .error .sliceOutOfRange
  else
    let iv := keySlice.extract 0 16
    match newFromSlices keySlice iv with
    | none => .error .keyLength
    | some cipher => .ok (decryptContent crates cipher ciphertext)

/-- The block cipher answers exactly if the key has sixteen bytes. -/
theorem decrypt_returns_iff (crates : CryptoCrates) (cryptor : AESCryptor)
    (ciphertext key : String) :
    (∃ result, cryptor.decrypt crates ciphertext key = .ok result) ↔
      key.toByteArray.size = 16 := by
  unfold decrypt
  by_cases hshort : key.toByteArray.size < 16
  · rw [if_pos hshort]
    constructor
    · rintro ⟨result, h⟩
      cases h
    · intro h
      omega
  · rw [if_neg hshort]
    have hiv : (key.toByteArray.extract 0 16).size = 16 := by
      rw [ByteArray.size_extract]
      omega
    by_cases hkey : key.toByteArray.size = 16
    · have hcipher : newFromSlices key.toByteArray (key.toByteArray.extract 0 16) =
          some (key.toByteArray, key.toByteArray.extract 0 16) := if_pos ⟨hkey, hiv⟩
      simp only [hcipher]
      exact iff_of_true ⟨_, rfl⟩ hkey
    · have hcipher : newFromSlices key.toByteArray (key.toByteArray.extract 0 16) = none :=
        if_neg fun h => hkey h.1
      simp only [hcipher]
      constructor
      · rintro ⟨result, h⟩
        cases h
      · exact fun h => absurd h hkey

end AESCryptor

/-! ## The filter -/

abbrev Cryptors : Type := String → Option AESCryptor

def loadCryptor (cryptors : Cryptors × Cryptors) (name : String) : Cryptors × Cryptors :=
  match cryptors.1 name with
  | some cryptor =>
      (Function.update cryptors.1 name none, Function.update cryptors.2 name (some cryptor))
  | none => cryptors

def loadCryptors (entries : List String) : Cryptors :=
  (entries.foldl loadCryptor
    (Function.update (fun _ => none) "AES" (some AESCryptor.mk), fun _ => none)).2

theorem loadCryptor_other {name other : String} (h : name ≠ other)
    (cryptors : Cryptors × Cryptors) :
    (loadCryptor cryptors other).1 name = cryptors.1 name ∧
      (loadCryptor cryptors other).2 name = cryptors.2 name := by
  unfold loadCryptor
  cases cryptors.1 other with
  | none => exact ⟨rfl, rfl⟩
  | some cryptor => exact ⟨Function.update_of_ne h _ _, Function.update_of_ne h _ _⟩

theorem isSome_loadCryptors (entries : List String) (cryptors : Cryptors × Cryptors)
    (name : String) :
    ((entries.foldl loadCryptor cryptors).2 name).isSome ↔
      (cryptors.2 name).isSome ∨ (cryptors.1 name).isSome ∧ name ∈ entries := by
  induction entries generalizing cryptors with
  | nil => simp
  | cons entry entries ih =>
      rw [List.foldl_cons, ih, List.mem_cons]
      by_cases hname : name = entry
      · subst hname
        unfold loadCryptor
        cases hfirst : cryptors.1 name with
        | none => simp [hfirst]
        | some cryptor => simp
      · obtain ⟨hfirst, hsecond⟩ := loadCryptor_other hname cryptors
        rw [hfirst, hsecond]
        simp [hname]

structure ConfigFileCryptoFilter where
  rsaCryptor : RSACryptor
  cryptors : Cryptors

def newFilter (rsaCryptor : RSACryptor) (entries : List String) : ConfigFileCryptoFilter :=
  ⟨rsaCryptor, loadCryptors entries⟩

namespace ConfigFileCryptoFilter

variable (crates : CryptoCrates)

/-- The key in the clear, or else the plain base64 of it. -/
def dataKey (self : ConfigFileCryptoFilter) (file : Cache.ConfigFileRelease) :
    Except Fault String :=
  match self.rsaCryptor.decryptFromBase64 crates (getEncryptDataKey file) with
  | .error fault => .error fault
  | .ok (.ok key) => .ok key
  | .ok (.error _) =>
      match crates.base64Decode (getEncryptDataKey file) with
      | .error _ => .error .base64Unwrap
      | .ok slice =>
          match String.fromUTF8? slice with
          | none => .error .utf8Unwrap
          | some key => .ok key

def responseProcess (self : ConfigFileCryptoFilter) (response : SpecConfigDiscoverResponse) :
    Except Fault (Except PoleError SpecConfigDiscoverResponse) :=
  if response.type ≠ .configFile then .ok (.ok response)
  else
    let configFile := response.file.getD default
    if !configFile.encrypted then .ok (.ok response)
    else
      match self.dataKey crates configFile.toConfigFileRelease with
      | .error fault => .error fault
      | .ok key =>
          let algo := getEncryptAlgo configFile.toConfigFileRelease
          match self.cryptors algo with
          | none => .ok (.error (.new .configCryptoError
              ("unsupported encrypt algorithm: " ++ algo)))
          | some cryptor =>
              match cryptor.decrypt crates configFile.content key with
              | .error fault => .error fault
              | .ok (.error err) => .ok (.error err)
              | .ok (.ok decrypted) =>
                  .ok (.ok { response with file := some { configFile with content := decrypted } })

/-- The bytes that the filter takes for the key: what the private key makes of the data key, or
the decoded data key itself where that fails. -/
def keyBytes (self : ConfigFileCryptoFilter) (file : Cache.ConfigFileRelease) :
    Option ByteArray :=
  match crates.base64Decode (getEncryptDataKey file) with
  | .error _ => none
  | .ok decoded =>
      match self.rsaCryptor.privKeyDecrypt decoded with
      | .ok plaintext => some plaintext
      | .error _ => some decoded

/-- The data key of an encrypted file is base64 of a text, of sixteen bytes where the algorithm
is known. -/
def Harmless (self : ConfigFileCryptoFilter) (response : SpecConfigDiscoverResponse) : Prop :=
  response.type = .configFile → ∀ file, response.file = some file → file.encrypted = true →
    ∃ key, self.keyBytes crates file.toConfigFileRelease = some key ∧ key.IsValidUTF8 ∧
      ((self.cryptors (getEncryptAlgo file.toConfigFileRelease)).isSome → key.size = 16)

/-! ## When a response is processed -/

variable {crates}

theorem dataKey_ok_iff (self : ConfigFileCryptoFilter) (file : Cache.ConfigFileRelease)
    (key : String) :
    self.dataKey crates file = .ok key ↔ self.keyBytes crates file = some key.toByteArray := by
  have htext : ∀ bytes fault,
      ((match String.fromUTF8? bytes with
        | none => .error fault
        | some txt => .ok txt : Except Fault String) = .ok key ↔ bytes = key.toByteArray) := by
    intro bytes fault
    rw [← fromUTF8_eq_some_iff]
    cases String.fromUTF8? bytes with
    | none => simp
    | some txt => simp
  unfold dataKey keyBytes RSACryptor.decryptFromBase64 RSACryptor.decrypt
  cases hdecoded : crates.base64Decode (getEncryptDataKey file) with
  | error err => simp
  | ok decoded =>
      cases hplain : self.rsaCryptor.privKeyDecrypt decoded with
      | ok plaintext =>
          simp only [hplain, Option.some.injEq]
          rw [← htext plaintext .uncheckedUtf8, fromUtf8Unchecked]
          cases String.fromUTF8? plaintext with
          | none => exact Iff.rfl
          | some txt => exact Iff.rfl
      | error err =>
          simp only [hplain, Option.some.injEq]
          exact htext decoded .utf8Unwrap

theorem harmless_iff {self : ConfigFileCryptoFilter} {response : SpecConfigDiscoverResponse}
    {file : SpecConfigFileRelease} (htype : response.type = .configFile)
    (hfile : response.file = some file) (hencrypted : file.encrypted = true) :
    self.Harmless crates response ↔
      ∃ key, self.dataKey crates file.toConfigFileRelease = .ok key ∧
        ((self.cryptors (getEncryptAlgo file.toConfigFileRelease)).isSome →
          key.toByteArray.size = 16) := by
  constructor
  · intro h
    obtain ⟨bytes, hbytes, hvalid, hsize⟩ := h htype file hfile hencrypted
    refine ⟨.fromUTF8 bytes hvalid, ?_, hsize⟩
    exact (dataKey_ok_iff self file.toConfigFileRelease _).mpr hbytes
  · rintro ⟨key, hkey, hsize⟩ _ other hother _
    obtain rfl : file = other := Option.some.inj (hfile.symm.trans hother)
    exact ⟨key.toByteArray, (dataKey_ok_iff self file.toConfigFileRelease key).mp hkey,
      key.isValidUTF8, hsize⟩

/-- The filter returns exactly on the responses that meet the condition. -/
theorem responseProcess_returns_iff (self : ConfigFileCryptoFilter)
    (response : SpecConfigDiscoverResponse) :
    (∃ result, self.responseProcess crates response = .ok result) ↔
      self.Harmless crates response := by
  unfold responseProcess
  by_cases htype : response.type = .configFile
  · rw [if_neg (not_not_intro htype)]
    cases hfile : response.file with
    | none =>
        apply iff_of_true ⟨_, rfl⟩
        intro _ file hother
        rw [hfile] at hother
        cases hother
    | some file =>
        simp only [Option.getD_some]
        cases hencrypted : file.encrypted with
        | false =>
            apply iff_of_true ⟨_, rfl⟩
            intro _ other hother hflag
            obtain rfl : file = other := Option.some.inj (hfile.symm.trans hother)
            rw [hencrypted] at hflag
            cases hflag
        | true =>
            rw [harmless_iff htype hfile hencrypted]
            cases hkey : self.dataKey crates file.toConfigFileRelease with
            | error fault => simp
            | ok key =>
                cases hcryptor : self.cryptors (getEncryptAlgo file.toConfigFileRelease) with
                | none => simp
                | some cryptor =>
                    have hreturns := cryptor.decrypt_returns_iff crates file.content key
                    simp only [Except.ok.injEq, exists_eq_left', Option.isSome_some,
                      forall_const, ← hreturns]
                    cases cryptor.decrypt crates file.content key with
                    | error fault => simp
                    | ok result =>
                        cases result with
                        | error err => simp
                        | ok decrypted => simp
  · rw [if_pos htype]
    exact iff_of_true ⟨_, rfl⟩ fun h => absurd h htype

theorem processed_cases {self : ConfigFileCryptoFilter}
    {response processed : SpecConfigDiscoverResponse}
    (h : self.responseProcess crates response = .ok (.ok processed)) :
    processed = response ∨ ∃ file content, response.file = some file ∧
      processed = { response with file := some { file with content := content } } := by
  unfold responseProcess at h
  split at h
  · exact .inl (by simpa using h.symm)
  · cases hfile : response.file with
    | none =>
        have hdefault : (default : SpecConfigFileRelease).encrypted = false := rfl
        simp only [hfile, Option.getD_none, hdefault, Bool.not_false, if_true] at h
        exact .inl (by simpa using h.symm)
    | some file =>
        simp only [hfile, Option.getD_some] at h
        split at h
        · exact .inl (by simpa using h.symm)
        · cases hkey : self.dataKey crates file.toConfigFileRelease with
          | error fault => simp [hkey] at h
          | ok key =>
              cases hcryptor : self.cryptors (getEncryptAlgo file.toConfigFileRelease) with
              | none => simp [hkey, hcryptor] at h
              | some cryptor =>
                  cases hcontent : cryptor.decrypt crates file.content key with
                  | error fault => simp [hkey, hcryptor, hcontent] at h
                  | ok result =>
                      cases result with
                      | error err => simp [hkey, hcryptor, hcontent] at h
                      | ok decrypted =>
                          simp only [hkey, hcryptor, hcontent, Except.ok.injEq] at h
                          exact .inr ⟨file, decrypted, rfl, h.symm⟩

/-- What the filter changes is nothing that a condition depends on. -/
theorem harmless_of_processed {self other : ConfigFileCryptoFilter}
    {response processed : SpecConfigDiscoverResponse}
    (h : self.responseProcess crates response = .ok (.ok processed))
    (harmless : other.Harmless crates response) : other.Harmless crates processed := by
  rcases processed_cases h with rfl | ⟨file, content, hfile, rfl⟩
  · exact harmless
  · intro htype changed hchanged hencrypted
    obtain rfl := Option.some.inj hchanged
    exact harmless htype file hfile hencrypted

end ConfigFileCryptoFilter

/-! ## The receive loop -/

section Loop

variable {ρ η : Type} (crates : CryptoCrates)

/-- The filters of the chain one after the other, up to the first error. -/
def processResponse :
    List ConfigFileCryptoFilter → SpecConfigDiscoverResponse →
      Except Fault (Except PoleError SpecConfigDiscoverResponse)
  | [], resp => .ok (.ok resp)
  | filter :: filters, resp =>
      match filter.responseProcess crates resp with
      | .error fault => .error fault
      | .ok (.error err) => .ok (.error err)
      | .ok (.ok rsp) => processResponse filters rsp

/-- What the two streams hand to the loop. -/
inductive Received (ρ : Type) where
  | naming (resp : DiscoverResponse ρ)
  | config (resp : SpecConfigDiscoverResponse)

/-- One turn of the loop; `none` is the task that a fault has ended. -/
def receive (ops : ResourceHandler ρ η) (identity : Option ServiceIdentityDiscoveryConfig)
    (filters : List ConfigFileCryptoFilter) :
    Option (Watches η) → Received ρ → Option (Watches η)
  | none, _ => none
  | some watches, .naming resp => some (receiveDiscoverResponse ops identity watches resp)
  | some watches, .config resp =>
      match processResponse crates filters resp with
      | .error _ => none
      | .ok (.error _) => some watches
      | .ok (.ok filtered) => some (receiveConfigResponse ops [] watches filtered.plain)

variable {crates}

theorem processResponse_returns {filters : List ConfigFileCryptoFilter}
    {resp : SpecConfigDiscoverResponse}
    (harmless : ∀ filter ∈ filters, filter.Harmless crates resp) :
    ∃ result, processResponse crates filters resp = .ok result := by
  induction filters generalizing resp with
  | nil => exact ⟨_, rfl⟩
  | cons filter filters ih =>
      obtain ⟨result, hresult⟩ :=
        (filter.responseProcess_returns_iff resp).mpr (harmless filter List.mem_cons_self)
      cases result with
      | error err =>
          refine ⟨.error err, ?_⟩
          simp only [processResponse, hresult]
      | ok rsp =>
          simp only [processResponse, hresult]
          apply ih
          intro other hother
          exact ConfigFileCryptoFilter.harmless_of_processed hresult
            (harmless other (List.mem_cons_of_mem filter hother))

theorem receive_config_isSome_iff (ops : ResourceHandler ρ η)
    (identity : Option ServiceIdentityDiscoveryConfig) (filters : List ConfigFileCryptoFilter)
    (watches : Watches η) (resp : SpecConfigDiscoverResponse) :
    (receive crates ops identity filters (some watches) (.config resp)).isSome ↔
      ∃ result, processResponse crates filters resp = .ok result := by
  unfold receive
  cases hresult : processResponse crates filters resp with
  | error fault => simp [hresult]
  | ok result =>
      cases result with
      | error err => simp [hresult]
      | ok filtered => simp [hresult]

theorem run_receive_none (ops : ResourceHandler ρ η)
    (identity : Option ServiceIdentityDiscoveryConfig) (filters : List ConfigFileCryptoFilter)
    (received : List (Received ρ)) :
    run (receive crates ops identity filters) none received = none := by
  induction received with
  | nil => rfl
  | cons event received ih => exact ih

/-- The loop outlives what it receives exactly if the filters return on every response. -/
theorem run_receive_isSome_iff (ops : ResourceHandler ρ η)
    (identity : Option ServiceIdentityDiscoveryConfig) (filters : List ConfigFileCryptoFilter)
    (watches : Watches η) (received : List (Received ρ)) :
    (run (receive crates ops identity filters) (some watches) received).isSome ↔
      ∀ resp, .config resp ∈ received →
        ∃ result, processResponse crates filters resp = .ok result := by
  induction received generalizing watches with
  | nil => simp
  | cons event received ih =>
      rw [run_cons]
      cases event with
      | naming resp =>
          rw [receive, ih]
          simp
      | config resp =>
          have hstep := @receive_config_isSome_iff ρ η crates ops identity filters watches resp
          cases hnext : receive crates ops identity filters (some watches) (.config resp) with
          | none =>
              rw [hnext] at hstep
              rw [run_receive_none]
              constructor
              · intro h
                cases h
              · intro h
                exact hstep.mpr (h resp List.mem_cons_self)
          | some next =>
              rw [hnext] at hstep
              rw [ih]
              constructor
              · intro h other hother
                rcases List.mem_cons.mp hother with heq | hrest
                · obtain rfl := Received.config.inj heq
                  exact hstep.mp rfl
                · exact h other hrest
              · exact fun h other hother => h other (List.mem_cons_of_mem _ hother)

end Loop

/-- The filter returns, with `Ok` or `Err`, exactly if the response meets its condition; the
receive loop lives on if the responses meet the conditions of all filters, and with one filter
only then. -/
theorem filter_returns_iff (crates : CryptoCrates) :
    (∀ (filter : ConfigFileCryptoFilter) (response : SpecConfigDiscoverResponse),
      (∃ result, filter.responseProcess crates response = .ok result) ↔
        filter.Harmless crates response) ∧
    (∀ (ρ η : Type) (ops : ResourceHandler ρ η)
      (identity : Option ServiceIdentityDiscoveryConfig) (watches : Watches η)
      (received : List (Received ρ)),
      (∀ filters, (∀ resp, .config resp ∈ received →
          ∀ filter ∈ filters, filter.Harmless crates resp) →
        (run (receive crates ops identity filters) (some watches) received).isSome) ∧
      ∀ filter, (run (receive crates ops identity [filter]) (some watches) received).isSome ↔
        ∀ resp, .config resp ∈ received → filter.Harmless crates resp) := by
  constructor
  · exact fun filter response => filter.responseProcess_returns_iff response
  · intro ρ η ops identity watches received
    constructor
    · intro filters harmless
      rw [run_receive_isSome_iff]
      exact fun resp hresp => processResponse_returns (harmless resp hresp)
    · intro filter
      rw [run_receive_isSome_iff]
      apply forall₂_congr
      intro resp _
      rw [← filter.responseProcess_returns_iff resp]
      cases hresult : filter.responseProcess crates resp with
      | error fault => simp [processResponse, hresult]
      | ok result =>
          cases result with
          | error err => simp [processResponse, hresult]
          | ok rsp => simp [processResponse, hresult]

/-! ## A file without a data key -/

/-- A decoder that takes the empty text for no bytes; no private key decrypts these. -/
def emptyOnly : CryptoCrates where
  base64Decode := fun text => if text = "" then .ok .empty else .error "Invalid padding"
  decryptVec := fun _ _ _ => .error "BlockModeError"

def aesFilter : ConfigFileCryptoFilter := newFilter ⟨fun _ => .error "decryption error"⟩ ["AES"]

def keylessFile : SpecConfigFileRelease where
  toConfigFileRelease := { (default : Cache.ConfigFileRelease) with
    labels := Function.update StringMap.empty "internal-encryptalgo" (some "AES") }
  encrypted := true

/-- The missing data key decodes to no bytes, too few for the initial block. -/
theorem keyless_file_faults :
    ¬ ∀ response, ∃ result, aesFilter.responseProcess emptyOnly response = .ok result := by
  intro h
  obtain ⟨key, hkey, -, hsize⟩ := (aesFilter.responseProcess_returns_iff _).mp
    (h ⟨.executeSuccess, .configFile, "1", some keylessFile, []⟩) rfl keylessFile rfl rfl
  have hlabel : getEncryptDataKey keylessFile.toConfigFileRelease = "" := by decide
  have hempty : aesFilter.keyBytes emptyOnly keylessFile.toConfigFileRelease = some .empty := by
    rw [ConfigFileCryptoFilter.keyBytes, hlabel]
    rfl
  obtain rfl := Option.some.inj (hempty.symm.trans hkey)
  exact absurd (hsize (by decide)) (by decide)

end PoleClient.Connector
