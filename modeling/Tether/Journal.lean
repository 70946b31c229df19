import Tether.Binding.Policy
import Tether.Binding.Direction
import Tether.Duration

/-!
# The journal

What an operation has to tell beside its result is a `Notice`, with a level and a text. A
`Journal` keeps the notices that are at least as severe as its threshold, oldest first, and
keeps none if it has no threshold. A `Relay` passes on the messages of others under the same
rule.
-/

namespace Tether

/-- Severity of a message. -/
inductive Level
  | error
  | warn
  | info
  | debug
  | trace
  deriving DecidableEq, Inhabited

namespace Level

/-- Name of a level. -/
def name : Level → String
  | .error => "error"
  | .warn => "warn"
  | .info => "info"
  | .debug => "debug"
  | .trace => "trace"

/-- The level with a name. -/
def ofName? : String → Option Level
  | "error" => some .error
  | "warn" => some .warn
  | "info" => some .info
  | "debug" => some .debug
  | "trace" => some .trace
  | _ => none

theorem ofName?_name (level : Level) : ofName? level.name = some level := by cases level <;> rfl

/-- Place in the order of levels, the most severe first. -/
def rank : Level → Nat
  | .error => 1
  | .warn => 2
  | .info => 3
  | .debug => 4
  | .trace => 5

/-- Whether a threshold lets a level through; no threshold lets nothing through. -/
def passes (level : Level) : Option Level → Bool
  | some threshold => level.rank ≤ threshold.rank
  | none => false

end Level

/-- Something that an operation tells beside its result. -/
inductive Notice
  | allocated (handle : Handle) (host : HostId)
  | bound (host : HostId) (handle : Handle)
  | unbound (host : HostId) (handle : Handle)
  | droppedWhileBinding (host : HostId) (handle : Handle)
  | reaped (count : Nat)
  | reapFailed (handle : Handle) (error : Error)
  | bindingRegistered (capability : Capability) (component : String) (direction : Direction)
      (policy : String)
  | materializationFailed (error : Error)
  | synchronizationFailed (error : Error)
  | synchronizing (capability : Capability) (handle : Handle) (host ecs target : Value)
  | staleMutation (loud : Bool) (mutation : String) (sequence : Nat) (error : Error)
  | rejectedMutation (mutation : String) (sequence : Nat) (error : Error)
  | flushed (frame applied stale rejected : Nat)
  | publishing (kind : Kind) (listeners : Nat)
  | listenerFailed (failure : ListenerFailure)
  | frameDone (frame applied entities signals : Nat)
  | signalIgnored (name : String)
  | signalRaised (name : String) (entities : List Handle)
  | signalDelayed (name : String) (entities : Nat) (delay : Duration)
  | signalDropped (name : String)
  | lookupFull (name : String)

namespace Notice

/-- Severity of a notice. -/
def level : Notice → Level
  | .allocated .. | .bound .. | .unbound .. | .droppedWhileBinding .. | .reaped _
  | .bindingRegistered .. | .frameDone .. | .signalIgnored _ | .signalRaised ..
  | .signalDelayed .. | .signalDropped _ => .debug
  | .reapFailed .. | .materializationFailed _ | .synchronizationFailed _
  | .rejectedMutation .. | .lookupFull _ => .warn
  | .staleMutation loud _ _ _ => if loud then .warn else .debug
  | .listenerFailed failure => if failure.error.isCorrupted then .error else .warn
  | .synchronizing .. | .flushed .. | .publishing .. => .trace

/-- The text of a notice. -/
def message : Notice → String
  | .allocated handle host => "Allocated " ++ handle.render ++ " for " ++ host.render
  | .bound host handle => "Bound " ++ host.render ++ " to " ++ handle.render
  | .unbound host handle => "Unbound " ++ host.render ++ " from " ++ handle.render
  | .droppedWhileBinding host handle =>
    host.render ++ " was dropped while binding, tearing down " ++ handle.render
  | .reaped count => "Reaped " ++ toString count ++ " binding(s) with dropped hosts"
  | .reapFailed handle error => "Failed to reap " ++ handle.render ++ ": " ++ error.message
  | .bindingRegistered capability component direction policy =>
    "Binding `" ++ capability ++ "` -> `" ++ component ++ "` (" ++ direction.label ++ ", " ++
      policy ++ ")"
  | .materializationFailed error => error.message
  | .synchronizationFailed error => error.message
  | .synchronizing capability handle host ecs target =>
    "Synchronizing `" ++ capability ++ "` on " ++ handle.render ++ ": host " ++ host.render ++
      " ecs " ++ ecs.render ++ " -> " ++ target.render
  | .staleMutation _ mutation sequence error =>
    "Skipping stale " ++ mutation ++ " mutation #" ++ toString sequence ++ ": " ++ error.message
  | .rejectedMutation mutation sequence error =>
    "Rejected " ++ mutation ++ " mutation #" ++ toString sequence ++ ": " ++ error.message
  | .flushed frame applied stale rejected =>
    "Flushed frame " ++ toString frame ++ ": " ++ toString applied ++ " applied, " ++
      toString stale ++ " stale, " ++ toString rejected ++ " rejected"
  | .publishing kind listeners =>
    "Publishing " ++ kind.name ++ " to " ++ toString listeners ++ " listener(s)"
  | .listenerFailed failure => failure.message
  | .frameDone frame applied entities signals =>
    "Frame " ++ toString frame ++ ": " ++ toString applied ++ " mutation(s), " ++
      toString entities ++ " entities synchronized, " ++ toString signals ++ " signal(s)"
  | .signalIgnored name => "Ignoring signal [" ++ name ++ "] raised for no entities"
  | .signalRaised name [entity] =>
    "Raising signal [" ++ name ++ "] to " ++ entity.render
  | .signalRaised name entities =>
    "Raising signal [" ++ name ++ "] to " ++ toString entities.length ++ " entities"
  | .signalDelayed name entities delay =>
    "Delay signal [" ++ name ++ "] to " ++ toString entities ++ " entities in " ++
      delay.toSeconds.fixed 2 ++ "s"
  | .signalDropped name => "Dropping signal [" ++ name ++ "], no live entities remain"
  | .lookupFull name => "Signal lookup is full, `" ++ name ++ "` will not be tracked"

end Notice

/-- Notices that were let through, the newest first. -/
structure Journal where
  threshold : Option Level := none
  notices : List Notice := []

namespace Journal

instance : Inhabited Journal := ⟨{}⟩

/-- Keep a notice if it is severe enough. -/
def note (j : Journal) (n : Notice) : Journal :=
  if n.level.passes j.threshold then { j with notices := n :: j.notices } else j

/-- Keep one notice for each item of a list. -/
def noteAll (j : Journal) (ns : List Notice) : Journal := ns.foldl note j

/-- The notices so far, oldest first, and a journal that starts anew. -/
def take (j : Journal) : List Notice × Journal :=
  (j.notices.reverse, { j with notices := [] })

end Journal

/-! ## Messages of others -/

/-- A message as it is passed on. -/
structure LogMessage where
  level : Level
  target : String
  text : String
  deriving DecidableEq

/-- A backend that passes on what its threshold lets through. -/
structure Relay where
  threshold : Option Level

namespace Relay

/-- Whether messages of a level are passed on. -/
def enabled (r : Relay) (level : Level) : Bool := level.passes r.threshold

/-- What is passed on of a message. -/
def forward (r : Relay) (m : LogMessage) : List LogMessage :=
  if r.enabled m.level then [m] else []

end Relay

end Tether
