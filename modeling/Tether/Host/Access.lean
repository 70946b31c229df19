import Tether.Value

/-!
# Access to host objects

The host runtime owns its objects. A `HostId` is the stable identity of one, a capability the
name of a feature that it may expose, and an `AccessError` the reason why a capability could
not be read or written.
-/

namespace Tether

/-- Stable identity of a host object, given by the host runtime. -/
structure HostId where
  number : UInt64
  deriving DecidableEq, Inhabited

/-- The text of a host identity. -/
def HostId.render (id : HostId) : String := "host#" ++ toString id.number.toNat

/-- The name of a feature that a host object may expose. -/
abbrev Capability := String

/-- Failure to read or write a capability. -/
inductive AccessError
  | unsupported (capability : Capability)
  | rejected (capability : Capability) (reason : String)
  | gone
  deriving DecidableEq, Inhabited

namespace AccessError

/-- Name of the cause. -/
def name : AccessError → String
  | .unsupported _ => "Unsupported"
  | .rejected .. => "Rejected"
  | .gone => "Gone"

/-- The text of an access error. -/
def message : AccessError → String
  | .unsupported capability => "capability `" ++ capability ++ "` is not exposed"
  | .rejected capability reason =>
    "capability `" ++ capability ++ "` rejected the value: " ++ reason
  | .gone => "host object is no longer available"

end AccessError

/-- What a host object must offer. Reading and writing may change the object, and an object may
keep itself in existence until a change of its own lets go. Neither reading nor writing reaches
anything else : another host object may change or go, and a mutation may be submitted, before and
after an access and in a reaction to a signal, but not within an access. -/
class HostObject (ο : Type) where
  /-- Whether the object exposes a capability. -/
  exposes : ο → Capability → Bool
  /-- The value of a capability. -/
  read : ο → Capability → Except AccessError Value × ο
  /-- Give a capability a value. -/
  write : ο → Capability → Value → Except AccessError Unit × ο
  /-- Whether the object keeps itself in existence. -/
  keepsItself : ο → Bool

end Tether
