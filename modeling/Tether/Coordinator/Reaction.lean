import Tether.Coordinator.Flush

/-!
# The reaction phase

`Coordinator.dispatch` delivers the signals of the frame in the order in which they were
raised, then the named signals that are due, and ends the frame. A failing listener flags its
entity as degraded and delivery goes on; if any listener may have left shared state
inconsistent, the failures of the whole phase are the error that dispatch ends with.
-/

namespace Tether.Coordinator

variable {ο σ : Type} [HostObject ο]

/-! ## Lifecycle signals -/

/-- Subscribe a listener to a kind. -/
def subscribe (c : Coordinator ο σ) (line : Line) (kind : Kind)
    (listener : Listener (Surroundings ο σ)) : Subscription × Coordinator ο σ :=
  let (subscription, switchboard) := c.switchboard.subscribe line kind listener
  (subscription, { c with switchboard })

/-- Remove a subscription. The answer is whether it was there. -/
def unsubscribe (c : Coordinator ο σ) (line : Line) (s : Subscription) :
    Bool × Coordinator ο σ :=
  let (was, switchboard) := c.switchboard.unsubscribe line s
  (was, { c with switchboard })

/-- What listeners see of the state. -/
def view (c : Coordinator ο σ) : View := ⟨c.registry, c.world, c.table.components⟩

/-- The part of the state that listeners can change. -/
def delivery (c : Coordinator ο σ) : Delivery (Surroundings ο σ) :=
  ⟨c.switchboard, c.queue, c.journal, c.surroundings⟩

/-- Take over what listeners changed. -/
def afterDelivery (c : Coordinator ο σ) (d : Delivery (Surroundings ο σ)) :
    Coordinator ο σ :=
  { c with
    switchboard := d.switchboard
    queue := d.queue
    journal := d.journal
    surroundings := d.ambient }

/-- Deliver a signal at once. -/
def publish (c : Coordinator ο σ) (s : Signal) : Reply × Coordinator ο σ :=
  let (reply, d) := Tether.publish c.view .lifecycle s c.delivery
  (reply, c.afterDelivery d)

/-- Deliver signals one after another. The answer is the failures of all. -/
def publishAll : List Signal → Coordinator ο σ → Reply × Coordinator ο σ
  | [], c => (.ok [], c)
  | s :: rest, c =>
    match c.publish s with
    | (.error error, c) => (.error error, c)
    | (.ok failures, c) =>
      match publishAll rest c with
      | (.error error, c) => (.error error, c)
      | (.ok more, c) => (.ok (failures ++ more), c)

/-- Contain the failure of a listener. -/
def contain (c : Coordinator ο σ) (f : ListenerFailure) : Coordinator ο σ :=
  ({ c with registry := c.registry.markDegraded f.handle }.note (.listenerFailed f)).report
    (.listener f)

/-! ## Named signals -/

/-- Subscribe a listener to a name. -/
def subscribeNamed (c : Coordinator ο σ) (name : String)
    (listener : NamedListener (Surroundings ο σ)) : NamedSubscription × Coordinator ο σ :=
  let (subscription, named) := c.named.subscribe name listener
  (subscription, { c with named })

/-- Remove a subscription to a name. The answer is whether it was there. -/
def unsubscribeNamed (c : Coordinator ο σ) (s : NamedSubscription) :
    Bool × Coordinator ο σ :=
  let (was, named) := c.named.unsubscribe s
  (was, { c with named })

/-- Raise a named signal now for those of its entities that are bound. The answer is how many
listeners were invoked. -/
def signal (c : Coordinator ο σ) (name : String) (entities : List Handle) :
    Nat × Coordinator ο σ :=
  let (count, r) :=
    NamedSignals.raise name (entities.filter c.registry.isBound) c.raising
  (count, c.afterRaising r)

/-- Raise the named signals that are due. The answer is how many were raised. -/
def tick (c : Coordinator ο σ) : Nat × Coordinator ο σ :=
  let (count, r) := NamedSignals.tick c.frame.time c.registry.isBound c.raising
  (count, c.afterRaising r)

/-! ## Ending a frame -/

/-- Go on to the next frame. -/
def endFrame (c : Coordinator ο σ) : Coordinator ο σ :=
  { c with named := c.named.endFrame, frame := c.frame.next }

/-- Deliver the signals of the frame and end it. -/
def dispatch (c : Coordinator ο σ) : Except Error DispatchReport × Coordinator ο σ :=
  let signals := c.outbox.toList
  match publishAll signals { c with frame := c.frame.enter .reaction, outbox := #[] } with
  | (.error error, c) => (.error error, c)
  | (.ok failures, c) =>
    let (named, c) := c.tick
    let c := (failures.foldl contain c).endFrame
    if failures.any fun f => f.error.isCorrupted then (.error (.listenerFailure failures), c)
    else (.ok { delivered := signals.length, named, failures }, c)

end Tether.Coordinator
