import Tether.Signal.Basic

/-!
# Errors

The causes for which an operation can fail, with one text each. `Error.isProgrammerError`,
`Error.isRecoverable` and `Error.isStale` sort them : contracts broken by the caller, failures
that are already contained, and requests that came too late for their target.
-/

namespace Tether

/-- Why an operation failed. -/
inductive Error
  | alreadyBound (host : HostId) (handle : Handle)
  | notBound (target : Target)
  | duplicateBinding (capability : Capability) (component : String)
  | reentrantPublish (kind : Kind)
  | staleHandle (handle : Handle)
  | materialization (handle : Handle) (capability : Capability) (component : String)
      (source : AccessError)
  | synchronization (handle : Handle) (capability : Capability) (source : AccessError)
  | listenerFailure (failures : List ListenerFailure)
  | hostDropped (host : HostId)
  | alreadyFlushed (frame : Nat)
  | unknownResolver (name : String)
  | config (reason : String)
  deriving DecidableEq, Inhabited

namespace Error

/-- Name of the cause. -/
def name : Error → String
  | .alreadyBound .. => "AlreadyBound"
  | .notBound _ => "NotBound"
  | .duplicateBinding .. => "DuplicateBinding"
  | .reentrantPublish _ => "ReentrantPublish"
  | .staleHandle _ => "StaleHandle"
  | .materialization .. => "Materialization"
  | .synchronization .. => "Synchronization"
  | .listenerFailure _ => "ListenerFailure"
  | .hostDropped _ => "HostDropped"
  | .alreadyFlushed _ => "AlreadyFlushed"
  | .unknownResolver _ => "UnknownResolver"
  | .config _ => "Config"

/-- The text of an error. -/
def message : Error → String
  | .alreadyBound host handle => host.render ++ " is already bound to " ++ handle.render
  | .notBound target => target.render ++ " is not bound"
  | .duplicateBinding capability component =>
    "binding `" ++ capability ++ "` -> `" ++ component ++ "` is already registered"
  | .reentrantPublish kind =>
    "re-entrant publish of " ++ kind.name ++
      " while it is being dispatched; enqueue a mutation instead"
  | .staleHandle handle => "stale handle " ++ handle.render
  | .materialization handle capability component source =>
    "failed to materialize `" ++ component ++ "` from `" ++ capability ++ "` on " ++
      handle.render ++ ": " ++ source.message
  | .synchronization handle capability source =>
    "failed to synchronize `" ++ capability ++ "` on " ++ handle.render ++ ": " ++
      source.message
  | .listenerFailure failures =>
    toString failures.length ++ " listener(s) reported corrupted state during dispatch"
  | .hostDropped host => host.render ++ " was dropped before it could be bound"
  | .alreadyFlushed frame =>
    "mutation queue was already flushed in frame " ++ toString frame
  | .unknownResolver name => "no merge resolver named `" ++ name ++ "`"
  | .config reason => "invalid configuration: " ++ reason

/-- The text of the failure that an error passes on, if it passes one on. -/
def source? : Error → Option String
  | .materialization _ _ _ source => some source.message
  | .synchronization _ _ source => some source.message
  | _ => none

/-- Whether the caller broke a contract. -/
def isProgrammerError : Error → Bool
  | .alreadyBound .. | .duplicateBinding .. | .reentrantPublish _ | .staleHandle _
  | .alreadyFlushed _ | .unknownResolver _ => true
  | _ => false

/-- Whether the failure is already contained. -/
def isRecoverable : Error → Bool
  | .materialization .. | .synchronization .. | .listenerFailure _ => true
  | _ => false

/-- Whether a request came too late for its target. -/
def isStale : Error → Bool
  | .staleHandle _ | .notBound _ | .hostDropped _ => true
  | _ => false

end Error

end Tether
