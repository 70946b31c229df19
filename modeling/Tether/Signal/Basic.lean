import Tether.Component
import Tether.Entity.Lifecycle

/-!
# Lifecycle signals

The coordinator announces every change of an entity as a `Signal`. Listeners subscribe to the
signals of one `Kind`; one that fails gives a `ListenerError`, which is reported together with
the subscription and the entity as a `ListenerFailure`.
-/

namespace Tether

/-- The kind of a lifecycle signal. -/
inductive Kind
  | entityCreated
  | entityDestroying
  | componentAdded
  | componentRemoved
  deriving DecidableEq, Inhabited

namespace Kind

/-- Name of a kind. -/
def name : Kind → String
  | .entityCreated => "EntityCreated"
  | .entityDestroying => "EntityDestroying"
  | .componentAdded => "ComponentAdded"
  | .componentRemoved => "ComponentRemoved"

/-- All kinds. -/
def all : List Kind := [.entityCreated, .entityDestroying, .componentAdded, .componentRemoved]

/-- The kind with a name. -/
def ofName? (name : String) : Option Kind := all.find? fun k => k.name = name

theorem ofName?_name (k : Kind) : ofName? k.name = some k := by cases k <;> decide

theorem mem_all (k : Kind) : k ∈ all := by cases k <;> decide

end Kind

/-- A lifecycle signal. -/
inductive Signal
  /-- A host object is fully bound. -/
  | entityCreated (handle : Handle) (host : HostId)
  /-- An entity is about to be torn down, with its final components. -/
  | entityDestroying (handle : Handle) (host : HostId) (components : List (ComponentId × Value))
  /-- An entity has a new component. -/
  | componentAdded (handle : Handle) (component : ComponentId) (value : Value)
  /-- An entity has lost a component. -/
  | componentRemoved (handle : Handle) (component : ComponentId) (value : Value)
  deriving DecidableEq, Inhabited

namespace Signal

/-- The kind of a signal. -/
def kind : Signal → Kind
  | .entityCreated .. => .entityCreated
  | .entityDestroying .. => .entityDestroying
  | .componentAdded .. => .componentAdded
  | .componentRemoved .. => .componentRemoved

/-- The entity that a signal is about. -/
def handle : Signal → Handle
  | .entityCreated h _ => h
  | .entityDestroying h _ _ => h
  | .componentAdded h _ _ => h
  | .componentRemoved h _ _ => h

end Signal

/-- How a listener failed. -/
inductive ListenerError
  /-- No lasting damage was done. -/
  | recoverable (reason : String)
  /-- Shared state may be inconsistent. -/
  | corrupted (reason : String)
  deriving DecidableEq, Inhabited

namespace ListenerError

/-- The text of a listener error. -/
def message : ListenerError → String
  | .recoverable reason => reason
  | .corrupted reason => "corrupted state: " ++ reason

/-- Whether shared state may be inconsistent. -/
def isCorrupted : ListenerError → Bool
  | .recoverable _ => false
  | .corrupted _ => true

end ListenerError

/-- A subscription to one kind, for removing it later. -/
structure Subscription where
  kind : Kind
  number : Nat
  deriving DecidableEq, Inhabited

/-- The text of a subscription. -/
def Subscription.render (s : Subscription) : String := "#" ++ toString s.number

/-- A listener that failed during delivery. -/
structure ListenerFailure where
  subscription : Subscription
  kind : Kind
  handle : Handle
  error : ListenerError
  deriving DecidableEq, Inhabited

/-- The text of a listener failure. -/
def ListenerFailure.message (f : ListenerFailure) : String :=
  "listener " ++ f.subscription.render ++ " failed on " ++ f.kind.name ++ " for " ++
    f.handle.render ++ ": " ++ f.error.message

end Tether
