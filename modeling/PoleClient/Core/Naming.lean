import Mathlib.Algebra.GroupWithZero.Nat

/-! # Services and instances

The naming data of the specification, the client's own form of it, and the
instance lists that routers and load balancers work on. Hash maps of strings
are lookup functions.
-/

namespace PoleClient

abbrev StringMap := String → Option String

def StringMap.empty : StringMap := fun _ => none

/-! ## The specification's messages -/

structure Location where
  region : String
  zone : String
  campus : String
deriving DecidableEq, Repr

instance : Inhabited Location := ⟨⟨"", "", ""⟩⟩

structure SpecInstance where
  id : String
  namespaceName : String
  service : String
  host : String
  port : UInt32
  version : String
  protocol : String
  healthy : Bool
  isolate : Bool
  weight : UInt32
  priority : UInt32
  metadata : StringMap
  location : Option Location
  revision : String

structure SpecService where
  id : String
  namespaceName : String
  name : String
  metadata : StringMap
  revision : String

instance : Inhabited SpecService := ⟨⟨"", "", "", .empty, ""⟩⟩

/-! ## The client's form -/

structure Instance where
  id : String
  namespaceName : String
  service : String
  ip : String
  port : UInt32
  vpcId : String
  version : String
  protocol : String
  health : Bool
  isolated : Bool
  weight : UInt32
  priority : UInt32
  metadata : StringMap
  location : Location
  revision : String

namespace Instance

def isAvailable (ins : Instance) : Bool :=
  if ins.weight = 0 then false
  else if !ins.health then false
  else if ins.isolated then false
  else true

def convertFromSpec (data : SpecInstance) : Instance where
  id := data.id
  namespaceName := data.namespaceName
  service := data.service
  ip := data.host
  port := data.port
  vpcId := ""
  version := data.version
  protocol := data.protocol
  health := data.healthy
  isolated := data.isolate
  weight := data.weight
  priority := data.priority
  metadata := data.metadata
  location := data.location.getD default
  revision := data.revision

end Instance

structure ServiceInfo where
  id : String
  namespaceName : String
  name : String
  metadata : StringMap
  revision : String

structure ServiceInstances where
  service : ServiceInfo
  instances : List Instance
  totalWeight : Nat

namespace ServiceInstances

def getCacheKey (self : ServiceInstances) : String :=
  "Instance-namespace=" ++ self.service.namespaceName ++ "-service=" ++ self.service.name

/-- The weights are summed as 64-bit numbers, which the lengths of lists keep far from
overflowing. -/
def new (svcInfo : ServiceInfo) (allIns : List Instance) : ServiceInstances where
  service := svcInfo
  instances := allIns
  totalWeight := (allIns.map fun val => val.weight.toNat).sum

def getTotalWeight (self : ServiceInstances) : Nat := self.totalWeight

end ServiceInstances

end PoleClient
