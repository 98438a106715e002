import PoleClient.Connector.Watch

/-! # The handlers of the identity watches

One handler installs the descriptor of the client's own service, the other the
trust bundle. Each looks at an event once more before it installs anything.
-/

namespace PoleClient.Identity

open Connector
open Cache hiding DiscoverResponse ConfigDiscoverResponse RemoteData

variable {ρ : Type}

/-! ## The service identity -/

structure ServiceIdentityResourceHandler where
  namespaceName : String
  service : String
  descriptor : Option ServiceIdentityDescriptor
deriving DecidableEq, Repr

/-- What a descriptor needs to be usable by this client. -/
def supportedDescriptor (descriptor : ServiceIdentityDescriptor) : Bool :=
  !(isBlank descriptor.subject || isBlank descriptor.revision ||
    isBlank descriptor.trustBundleVersion || isBlank descriptor.trustDomain ||
    isBlank descriptor.audience || isBlank descriptor.credentialEndpoint ||
    descriptor.identityProtocolVersion ≠ 1 || !descriptor.credentialFormats.contains .jwtEd25519)

namespace ServiceIdentityResourceHandler

def handleEvent (self : ServiceIdentityResourceHandler) (event : RemoteData ρ) :
    ServiceIdentityResourceHandler :=
  match event.discoverValue with
  | none => self
  | some response =>
      match response.serviceIdentity with
      | none => self
      | some descriptor =>
          if descriptor.namespaceName ≠ self.namespaceName || descriptor.service ≠ self.service then
            self
          else if !supportedDescriptor descriptor then self
          else { self with descriptor := some descriptor }

def interestResource (self : ServiceIdentityResourceHandler) : ResourceEventKey where
  namespaceName := self.namespaceName
  eventType := .serviceIdentity
  filter := fun name => if name = "service" then some self.service else none

theorem interestResource_handleEvent (self : ServiceIdentityResourceHandler)
    (event : RemoteData ρ) : (self.handleEvent event).interestResource = self.interestResource := by
  unfold handleEvent
  split
  · rfl
  · split
    · rfl
    · split
      · rfl
      · split <;> rfl

end ServiceIdentityResourceHandler

/-! ## The trust bundle -/

structure TrustBundleResourceHandler where
  namespaceName : String
  service : String
  state : TrustBundleSnapshot

namespace TrustBundleResourceHandler

/-- The time is the one of the conversion. -/
def handleEvent (now : Int64) (self : TrustBundleResourceHandler) (event : RemoteData ρ) :
    TrustBundleResourceHandler :=
  match event.discoverValue with
  | none => self
  | some response =>
      match response.serviceIdentityBundle with
      | none => self
      | some bundle => { self with state := (handleBundle self.state ⟨now, bundle⟩).1 }

def interestResource (self : TrustBundleResourceHandler) : ResourceEventKey where
  namespaceName := self.namespaceName
  eventType := .serviceIdentityBundle
  filter := fun name =>
    if name = "service" then some self.service
    else if name = "sequence" then some "0"
    else none

theorem interestResource_handleEvent (now : Int64) (self : TrustBundleResourceHandler)
    (event : RemoteData ρ) :
    (self.handleEvent now event).interestResource = self.interestResource := by
  unfold handleEvent
  split
  · rfl
  · split <;> rfl

end TrustBundleResourceHandler

/-! ## Both -/

inductive IdentityHandler where
  | identity (handler : ServiceIdentityResourceHandler)
  | bundle (handler : TrustBundleResourceHandler)

namespace IdentityHandler

def interestResource : IdentityHandler → ResourceEventKey
  | identity handler => handler.interestResource
  | bundle handler => handler.interestResource

def handleEvent (now : Int64) (self : IdentityHandler) (event : RemoteData ρ) : IdentityHandler :=
  match self with
  | identity handler => identity (handler.handleEvent event)
  | bundle handler => bundle (handler.handleEvent now event)

def ops (ρ : Type) (now : Int64) : ResourceHandler ρ IdentityHandler where
  interestResource := interestResource
  handleEvent := handleEvent now

/-! ## Acceptance -/

def held : IdentityHandler → String
  | identity handler => (handler.descriptor.map ServiceIdentityDescriptor.revision).getD ""
  | bundle handler => handler.state.version

/-- The handler installs nothing of the response: it is for another service, cannot be used, is
malformed or is rolled back. -/
def Refuses (now : Int64) (resp : DiscoverResponse ρ) : IdentityHandler → Prop
  | identity handler => ∀ descriptor ∈ resp.serviceIdentity,
      descriptor.namespaceName ≠ handler.namespaceName ∨ descriptor.service ≠ handler.service ∨
        supportedDescriptor descriptor = false
  | bundle handler => ∀ bundle ∈ resp.serviceIdentityBundle,
      ∃ err, (handleBundle handler.state ⟨now, bundle⟩).2 = .error err

def installs (now : Int64) (resp : DiscoverResponse ρ) : IdentityHandler → Option String
  | identity handler => do
      let descriptor ← resp.serviceIdentity
      if descriptor.namespaceName ≠ handler.namespaceName ∨
          descriptor.service ≠ handler.service ∨ supportedDescriptor descriptor = false then none
      else some descriptor.revision
  | bundle handler => do
      let bundle ← resp.serviceIdentityBundle
      match (handleBundle handler.state ⟨now, bundle⟩).2 with
      | .error _ => none
      | .ok () => some bundle.version

theorem installs_eq_none_iff {now : Int64} {resp : DiscoverResponse ρ} {self : IdentityHandler} :
    self.installs now resp = none ↔ self.Refuses now resp := by
  cases self with
  | identity handler =>
      unfold installs Refuses
      cases resp.serviceIdentity with
      | none => simp
      | some descriptor => simp [or_iff_not_imp_left]
  | bundle handler =>
      unfold installs Refuses
      cases resp.serviceIdentityBundle with
      | none => simp
      | some bundle =>
          cases hresult : (handleBundle handler.state ⟨now, bundle⟩).2 with
          | error err => simp [hresult]
          | ok _ => simp [hresult]

@[simp] theorem interestResource_handleEvent (now : Int64) (self : IdentityHandler)
    (event : RemoteData ρ) : (self.handleEvent now event).interestResource =
      self.interestResource := by
  cases self with
  | identity handler => exact handler.interestResource_handleEvent event
  | bundle handler => exact handler.interestResource_handleEvent now event

end IdentityHandler

end PoleClient.Identity
