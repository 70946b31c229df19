import Tether.Host.Property

/-!
# Host objects that follow a script

A `ScriptedObject` answers as it is told to, capability by capability : reads and writes may be
refused, a write may be swallowed or may store another value, and the object may keep itself in
existence until a given read. `SampleObject` is either kind of object.
-/

namespace Tether

/-- Why a scripted access fails. -/
inductive Refusal
  | unsupported
  | gone
  | rejected (reason : String)
  deriving DecidableEq, Inhabited

/-- The access error that a refusal stands for. -/
def Refusal.toError (capability : Capability) : Refusal → AccessError
  | .unsupported => .unsupported capability
  | .gone => .gone
  | .rejected reason => .rejected capability reason

/-- What becomes of a written value. -/
inductive WriteScript
  | accept
  /-- Succeed and keep the old value. -/
  | ignore
  /-- Succeed and store this value instead. -/
  | store (value : Value)
  | refuse (refusal : Refusal)
  deriving DecidableEq, Inhabited

/-- How one capability behaves. -/
structure Script where
  value : Value
  exposed : Bool := true
  /-- Why reads fail, if they do. -/
  read : Option Refusal := none
  write : WriteScript := .accept
  deriving DecidableEq, Inhabited

/-- An object that keeps itself in existence until a given read. -/
structure SelfHold where
  /-- The number of the read at which it lets go. -/
  lastRead : Nat
  /-- Reads so far. -/
  reads : Nat := 0
  held : Bool := true
  deriving DecidableEq, Inhabited

/-- Count one more read. -/
def SelfHold.afterRead (s : SelfHold) : SelfHold :=
  { s with reads := s.reads + 1, held := s.held && s.reads + 1 ≠ s.lastRead }

/-- A host object that answers as it is told to. -/
structure ScriptedObject where
  scripts : List (Capability × Script) := []
  hold : Option SelfHold := none
  deriving DecidableEq, Inhabited

namespace ScriptedObject

/-- How a capability behaves. -/
def script? (o : ScriptedObject) (capability : Capability) : Option Script :=
  (o.scripts.find? fun s => s.1 = capability).map Prod.snd

/-- Replace the behaviour of a capability, or add one. -/
def setScript (o : ScriptedObject) (capability : Capability) (script : Script) :
    ScriptedObject :=
  { o with scripts :=
      (o.scripts.filter fun s => s.1 ≠ capability) ++ [(capability, script)] }

/-- Read a capability, which counts as a read whatever its outcome. -/
def read (o : ScriptedObject) (capability : Capability) :
    Except AccessError Value × ScriptedObject :=
  let o := { o with hold := o.hold.map SelfHold.afterRead }
  match o.script? capability with
  | none => (.error (.unsupported capability), o)
  | some script =>
    match script.read with
    | none => (.ok script.value, o)
    | some refusal => (.error (refusal.toError capability), o)

/-- Write a capability. -/
def write (o : ScriptedObject) (capability : Capability) (value : Value) :
    Except AccessError Unit × ScriptedObject :=
  match o.script? capability with
  | none => (.error (.unsupported capability), o)
  | some script =>
    match script.write with
    | .accept => (.ok (), o.setScript capability { script with value })
    | .ignore => (.ok (), o)
    | .store other => (.ok (), o.setScript capability { script with value := other })
    | .refuse refusal => (.error (refusal.toError capability), o)

end ScriptedObject

instance : HostObject ScriptedObject where
  exposes o capability := ((o.script? capability).map Script.exposed).getD false
  read := ScriptedObject.read
  write := ScriptedObject.write
  keepsItself o := (o.hold.map SelfHold.held).getD false

/-- A host object of either kind. -/
inductive SampleObject
  | properties (bag : PropertyBag)
  | scripted (object : ScriptedObject)
  deriving DecidableEq, Inhabited

namespace SampleObject

/-- A property, if the object has properties. -/
def get? (capability : Capability) : SampleObject → Option Value
  | .properties bag => bag.get? capability
  | .scripted _ => none

/-- Add or overwrite a property, if the object has properties. -/
def set (capability : Capability) (value : Value) : SampleObject → SampleObject
  | .properties bag => .properties (bag.set capability value)
  | .scripted object => .scripted object

/-- Take a property away, if the object has properties. -/
def erase (capability : Capability) : SampleObject → SampleObject
  | .properties bag => .properties (bag.erase capability)
  | .scripted object => .scripted object

/-- Replace the behaviour of a capability, if the object follows a script. -/
def setScript (capability : Capability) (script : Script) : SampleObject → SampleObject
  | .properties bag => .properties bag
  | .scripted object => .scripted (object.setScript capability script)

/-- The values of an object : all that it scripts, or those of its properties with given
names. -/
def values (names : List Capability) : SampleObject → List (Capability × Value)
  | .properties bag => names.filterMap fun name => (bag.get? name).map fun v => (name, v)
  | .scripted object => object.scripts.map fun s => (s.1, s.2.value)

end SampleObject

instance : HostObject SampleObject where
  exposes
    | .properties bag => HostObject.exposes bag
    | .scripted object => HostObject.exposes object
  read o capability :=
    match o with
    | .properties bag => (HostObject.read bag capability).map id .properties
    | .scripted object => (HostObject.read object capability).map id .scripted
  write o capability value :=
    match o with
    | .properties bag => (HostObject.write bag capability value).map id .properties
    | .scripted object => (HostObject.write object capability value).map id .scripted
  keepsItself
    | .properties bag => HostObject.keepsItself bag
    | .scripted object => HostObject.keepsItself object

end Tether
