import Tether.Mutation
import Tether.Signal.View

/-!
# What a listener does

A listener is a function that, given the signal, the view and the state `σ` that surrounds
delivery, yields a `Program` : the finitely many actions that it takes, each with the program
that goes on from the reply, and at the end its result. So whatever a listener does depends on
the replies that it gets, and every listener stops.

Signals travel on two lines. The coordinator announces its changes on the `lifecycle` line;
the `relay` line belongs to the listeners alone.
-/

namespace Tether

/-- A line on which signals travel. -/
inductive Line
  | lifecycle
  | relay
  deriving DecidableEq, Inhabited

/-- What can be seen of the subscriptions to one kind. -/
structure ChannelStatus where
  listeners : Nat
  dispatching : Bool
  deriving DecidableEq, Inhabited

/-- The actions of a listener. The surrounding state is handed over where others may change
it. -/
inductive Program (σ : Type) : Type
  /-- Stop with a result. -/
  | done (result : Except ListenerError Unit) (ambient : σ)
  /-- Submit a mutation; the reply is its sequence number. -/
  | enqueue (mutation : Mutation) (next : Nat → Program σ)
  /-- Subscribe another listener. -/
  | subscribe (line : Line) (kind : Kind) (listener : Signal → View → σ → Program σ)
      (next : Subscription → Program σ)
  /-- Remove a subscription; the reply is whether it was there to remove. -/
  | unsubscribe (line : Line) (subscription : Subscription) (next : Bool → Program σ)
  /-- Look at the subscriptions to a kind. -/
  | inspect (line : Line) (kind : Kind) (next : ChannelStatus → Program σ)
  /-- Deliver a signal at once; the reply is the failures of its listeners, or why it was not
  delivered. -/
  | publish (line : Line) (signal : Signal) (ambient : σ)
      (next : Except Error (List ListenerFailure) → σ → Program σ)

/-- A listener to lifecycle signals. -/
abbrev Listener (σ : Type) := Signal → View → σ → Program σ

namespace Program

variable {σ : Type}

/-- Raise a named signal at the next flush. -/
def signal (name : String) (entities : List Handle) (next : Nat → Program σ) : Program σ :=
  .enqueue (.signal name entities none) next

end Program

end Tether
