import Tether.Journal
import Tether.Signal.Bus

/-!
# Delivery

Publishing a signal starts a pass over the channel of its kind. The pass runs over the
subscribers as they were when it began : whoever is subscribed during the pass waits for the
next one, and whoever is removed during it is still invoked in it. A listener may publish
signals of other kinds from inside, and those passes nest. Publishing on a channel that is
dispatching is refused.

Every pass occupies one channel, so passes nest at most as deep as there are channels
(`maxNesting`), and `publishAt` recurses on how many more may be opened.
-/

namespace Tether

variable {σ : Type}

/-- The state that listeners can change during delivery. -/
structure Delivery (σ : Type) where
  switchboard : Switchboard σ
  queue : MutationQueue
  journal : Journal
  ambient : σ

namespace Delivery

/-- Change one channel. -/
def updateChannel (d : Delivery σ) (line : Line) (kind : Kind) (f : Channel σ → Channel σ) :
    Delivery σ :=
  { d with switchboard :=
      d.switchboard.setChannel line kind (f (d.switchboard.channel line kind)) }

end Delivery

/-- The reply to a published signal. -/
abbrev Reply := Except Error (List ListenerFailure)

/-- Run the actions of a listener, where `publish` delivers the signals that it publishes. -/
def Program.run (publish : Line → Signal → Delivery σ → Reply × Delivery σ) :
    Program σ → Delivery σ → Except ListenerError Unit × Delivery σ
  | .done result ambient, d => (result, { d with ambient })
  | .enqueue mutation next, d =>
    let (sequence, queue) := d.queue.enqueue mutation
    (next sequence).run publish { d with queue }
  | .subscribe line kind listener next, d =>
    let (subscription, switchboard) := d.switchboard.subscribe line kind listener
    (next subscription).run publish { d with switchboard }
  | .unsubscribe line subscription next, d =>
    let (was, switchboard) := d.switchboard.unsubscribe line subscription
    (next was).run publish { d with switchboard }
  | .inspect line kind next, d => (next (d.switchboard.status line kind)).run publish d
  | .publish line signal ambient next, d =>
    let (reply, d) := publish line signal { d with ambient }
    (next reply d.ambient).run publish d

/-- Invoke subscribers one after another. The answer is the failures, in order. -/
def deliver (publish : Line → Signal → Delivery σ → Reply × Delivery σ) (view : View)
    (signal : Signal) : List (Subscriber σ) → Delivery σ → List ListenerFailure × Delivery σ
  | [], d => ([], d)
  | s :: rest, d =>
    let (result, d) := (s.listener signal view d.ambient).run publish d
    let (failures, d) := deliver publish view signal rest d
    match result with
    | .ok _ => (failures, d)
    | .error error =>
      (⟨s.subscription, signal.kind, signal.handle, error⟩ :: failures, d)

/-- Deliver a signal, where so many passes may still be opened. -/
def publishAt (view : View) : Nat → Line → Signal → Delivery σ → Reply × Delivery σ
  | 0, _, signal, d => (.error (.reentrantPublish signal.kind), d)
  | depth + 1, line, signal, d =>
    let channel := d.switchboard.channel line signal.kind
    if channel.dispatching then (.error (.reentrantPublish signal.kind), d)
    else
      let d := d.updateChannel line signal.kind Channel.start
      let d := { d with
        journal := d.journal.note (.publishing signal.kind channel.subscribers.length) }
      let (failures, d) := deliver (publishAt view depth) view signal channel.subscribers d
      (.ok failures, d.updateChannel line signal.kind Channel.finish)

/-- How deep passes can nest : one for each kind of each line. -/
def maxNesting : Nat := 2 * Kind.all.length

/-- Deliver a signal to every listener of its kind. -/
def publish (view : View) (line : Line) (signal : Signal) (d : Delivery σ) :
    Reply × Delivery σ :=
  publishAt view maxNesting line signal d

end Tether
