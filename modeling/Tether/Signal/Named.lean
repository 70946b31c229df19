import Tether.Mutation
import Tether.Signal.Lookup

/-!
# Named signals

Beside the lifecycle signals there are signals of a name of the caller's choice, raised for a
list of entities, at once or once the clock has reached a due time. Listeners subscribe to a
name. Unlike those to lifecycle signals they are told nothing but the name and the entities, but
they may keep a producer of the mutation queue, and change the surrounding state `σ`
(`NamedProgram`). A raised signal is remembered for each of its entities until the frame ends
(`Lookup`).
-/

namespace Tether

variable {σ : Type}

/-- The actions of a listener to a name. -/
inductive NamedProgram (σ : Type) : Type
  /-- Stop, and leave the surrounding state changed. -/
  | done (ambient : σ)
  /-- Submit a mutation; the reply is its sequence number. -/
  | enqueue (mutation : Mutation) (next : Nat → NamedProgram σ)
  /-- Look at how many mutations wait. -/
  | waiting (next : Nat → NamedProgram σ)

namespace NamedProgram

/-- To change the surrounding state is all that most listeners do. -/
instance : Coe σ (NamedProgram σ) := ⟨done⟩

/-- Run the actions of a listener. -/
def run : NamedProgram σ → MutationQueue → σ × MutationQueue
  | .done ambient, q => (ambient, q)
  | .enqueue mutation next, q =>
    let (sequence, q) := q.enqueue mutation
    (next sequence).run q
  | .waiting next, q => (next q.size).run q

end NamedProgram

/-- A listener to a name. -/
abbrev NamedListener (σ : Type) := String → List Handle → σ → NamedProgram σ

/-- A subscription to a name, for removing it later. -/
structure NamedSubscription where
  name : String
  number : Nat
  deriving DecidableEq, Inhabited

/-- A signal that waits for its time. -/
structure Delayed where
  name : String
  entities : List Handle
  due : Duration
  deriving DecidableEq, Inhabited

/-- Listeners, waiting signals and the record of the frame. -/
structure NamedSignals (σ : Type) where
  /-- In order of subscription. -/
  listeners : List (NamedSubscription × NamedListener σ) := []
  /-- In the order in which they were scheduled. -/
  delayed : List Delayed := []
  lookup : Lookup := {}
  nextNumber : Nat := 0

namespace NamedSignals

instance : Inhabited (NamedSignals σ) := ⟨{}⟩

/-- Subscribe a listener to a name. -/
def subscribe (n : NamedSignals σ) (name : String) (listener : NamedListener σ) :
    NamedSubscription × NamedSignals σ :=
  let subscription : NamedSubscription := ⟨name, n.nextNumber⟩
  (subscription,
    { n with
      listeners := n.listeners ++ [(subscription, listener)]
      nextNumber := n.nextNumber + 1 })

/-- Remove a subscription. The answer is whether it was there. -/
def unsubscribe (n : NamedSignals σ) (s : NamedSubscription) : Bool × NamedSignals σ :=
  (n.listeners.any fun l => l.1 = s,
    { n with listeners := n.listeners.filter fun l => l.1 ≠ s })

/-- The listeners to a name, in order of subscription. -/
def listenersTo (n : NamedSignals σ) (name : String) : List (NamedListener σ) :=
  (n.listeners.filter fun l => l.1.name = name).map Prod.snd

/-- The state of raising signals. -/
structure Raising (σ : Type) where
  signals : NamedSignals σ
  queue : MutationQueue
  ambient : σ
  journal : Journal

/-- Invoke listeners one after another. -/
def invoke (name : String) (entities : List Handle) (listeners : List (NamedListener σ))
    (state : σ × MutationQueue) : σ × MutationQueue :=
  listeners.foldl (fun (ambient, queue) listener => (listener name entities ambient).run queue)
    state

/-- Raise a signal now. The answer is how many listeners were invoked; for no entities
nothing happens. -/
def raise (name : String) (entities : List Handle) (r : Raising σ) : Nat × Raising σ :=
  if entities.isEmpty then (0, { r with journal := r.journal.note (.signalIgnored name) })
  else
    let full := r.signals.lookup.isFullFor name
    let (flag, lookup) := r.signals.lookup.flag name
    let lookup := entities.foldl (fun l e => l.add e flag) lookup
    let journal := if full then r.journal.note (.lookupFull name) else r.journal
    let listeners := r.signals.listenersTo name
    let (ambient, queue) := invoke name entities listeners (r.ambient, r.queue)
    (listeners.length,
      { signals := { r.signals with lookup }
        queue
        ambient
        journal := journal.note (.signalRaised name entities) })

/-- Schedule a signal for the time `now + delay`. -/
def delay (n : NamedSignals σ) (name : String) (entities : List Handle) (delay now : Duration) :
    Except ClockOverflow (NamedSignals σ) :=
  match now.add? delay with
  | none => .error ⟨⟩
  | some due => .ok { n with delayed := n.delayed ++ [⟨name, entities, due⟩] }

/-- Tell of a signal and schedule it for the time `now + delay`. It is told of even if there is
no such time. -/
def schedule (name : String) (entities : List Handle) (delay now : Duration) (r : Raising σ) :
    Except ClockOverflow Unit × Raising σ :=
  let r := { r with journal := r.journal.note (.signalDelayed name entities.length delay) }
  match r.signals.delay name entities delay now with
  | .error overflow => (.error overflow, r)
  | .ok signals => (.ok (), { r with signals })

/-- Raise one due signal for those of its entities that are still live. The count is of the
signals raised so far. -/
def release (isLive : Handle → Bool) (state : Nat × Raising σ) (d : Delayed) :
    Nat × Raising σ :=
  let (raised, r) := state
  let entities := d.entities.filter isLive
  if entities.isEmpty then
    (raised, { r with journal := r.journal.note (.signalDropped d.name) })
  else (raised + 1, (raise d.name entities r).2)

/-- Raise every signal that is due, in the order in which they were scheduled. The answer is
how many were raised. -/
def tick (now : Duration) (isLive : Handle → Bool) (r : Raising σ) : Nat × Raising σ :=
  let due := r.signals.delayed.filter fun d => d.due.le now
  let waiting := r.signals.delayed.filter fun d => !d.due.le now
  due.foldl (release isLive) (0, { r with signals := { r.signals with delayed := waiting } })

/-- How many signals wait for their time. -/
def pending (n : NamedSignals σ) : Nat := n.delayed.length

/-- Forget which names were raised in this frame. -/
def endFrame (n : NamedSignals σ) : NamedSignals σ := { n with lookup := n.lookup.reset }

end NamedSignals

end Tether
