import Tether.Host.Property
import Tether.Proofs.Population

/-!
# Runs of a coordinator

An `Action` is anything that may happen to a coordinator from outside : a call of one of its
operations with any arguments, or a change of what surrounds it, such as a host object that
comes, changes or goes. A run is a list of actions, one after another (`Coordinator.run`).

`Coordinator.raisedBy` lists the lifecycle signals that an action puts into the outbox, each
with the worlds before and after the change that raised it. An action that makes several
changes is followed through the states that it passes : binding through the state in which the
entity is announced, reaping and flushing through the state after each entity and each
mutation. `Coordinator.history` is the list for a whole run.
-/

set_option linter.unusedSectionVars false

namespace Tether

/-- What may happen to a coordinator. -/
inductive Action (ο σ : Type)
  /-- Host objects, or what listeners share, change. -/
  | surround (change : Surroundings ο σ → Surroundings ο σ)
  | bind (host : HostRef)
  | unbind (h : Handle)
  | unbindHost (id : HostId)
  | reap
  | addComponent (h : Handle) (id : ComponentId) (value : Value)
  | removeComponent (h : Handle) (id : ComponentId)
  | writeComponent (h : Handle) (id : ComponentId) (value : Value)
  | writeWorld (h : Handle) (id : ComponentId) (value : Value)
  | registerComponent (name : String)
  | enqueue (mutation : Mutation)
  | flush
  | synchronize (h : Handle) (direction : Direction)
  | synchronizeAll (direction : Direction)
  | subscribe (line : Line) (kind : Kind) (listener : Listener (Surroundings ο σ))
  | unsubscribe (line : Line) (subscription : Subscription)
  | publish (signal : Signal)
  | dispatch
  /-- The clock moves on within the frame, as at the beginning of a step. -/
  | advance (delta : Duration)
  | step (delta : Duration)
  | subscribeNamed (name : String) (listener : NamedListener (Surroundings ο σ))
  | unsubscribeNamed (subscription : NamedSubscription)
  | signal (name : String) (entities : List Handle)
  | delaySignal (name : String) (entities : List Handle) (delay : Duration)
  | listenForIncidents
  | takeIncidents

/-- A mutation that was applied, with its outcome and what it raised. -/
structure Applied where
  pending : Pending
  outcome : Except Error Unit
  raised : List Raised

namespace Coordinator

variable {ο σ : Type} [HostObject ο]

/-- Move the clock on, if it does not run over. -/
def advance (c : Coordinator ο σ) (delta : Duration) : Coordinator ο σ :=
  match c.frame.advance delta with
  | .error _ => c
  | .ok frame => { c with frame }

/-- The state after an action, whatever its answer. -/
def act (c : Coordinator ο σ) : Action ο σ → Coordinator ο σ
  | .surround change => { c with surroundings := change c.surroundings }
  | .bind host => (c.bind host).2
  | .unbind h => (c.unbind h).2
  | .unbindHost id => (c.unbindHost id).2
  | .reap => c.reap.2
  | .addComponent h id value => (c.addComponent h id value).2
  | .removeComponent h id => (c.removeComponent h id).2
  | .writeComponent h id value => (c.writeComponent h id value).2
  | .writeWorld h id value => (c.writeWorld h id value).2
  | .registerComponent name => (c.registerComponent name).2
  | .enqueue mutation => (c.enqueue mutation).2
  | .flush => c.flush.2
  | .synchronize h direction => (c.synchronize h direction).2
  | .synchronizeAll direction => (c.synchronizeAll direction).2
  | .subscribe line kind listener => (c.subscribe line kind listener).2
  | .unsubscribe line subscription => (c.unsubscribe line subscription).2
  | .publish signal => (c.publish signal).2
  | .dispatch => c.dispatch.2
  | .advance delta => c.advance delta
  | .step delta => (c.step delta).2
  | .subscribeNamed name listener => (c.subscribeNamed name listener).2
  | .unsubscribeNamed subscription => (c.unsubscribeNamed subscription).2
  | .signal name entities => (c.signal name entities).2
  | .delaySignal name entities delay => (c.delaySignal name entities delay).2
  | .listenForIncidents => c.listenForIncidents
  | .takeIncidents => c.takeIncidents.2

/-- The state after a list of actions. -/
def run (c : Coordinator ο σ) (as : List (Action ο σ)) : Coordinator ο σ := as.foldl act c

@[simp] theorem run_nil (c : Coordinator ο σ) : c.run [] = c := rfl

@[simp] theorem run_cons (c : Coordinator ο σ) (a : Action ο σ) (as : List (Action ο σ)) :
    c.run (a :: as) = (c.act a).run as := rfl

theorem run_append (c : Coordinator ο σ) (as bs : List (Action ο σ)) :
    c.run (as ++ bs) = (c.run as).run bs :=
  List.foldl_append

/-! ## What actions raise -/

/-- Who is bound, and the components of all. -/
def population (c : Coordinator ο σ) : Population := ⟨c.registry, c.world⟩

/-- The signals put into the outbox on the way from one state to another. -/
def raisedBetween (c d : Coordinator ο σ) : List Raised :=
  (d.outbox.toList.drop c.outbox.size).map fun s => ⟨s, c.world, d.world⟩

/-- What binding raises : the entity is announced, and torn down if its object is gone. -/
def raisedByBind (c : Coordinator ο σ) (host : HostRef) : List Raised :=
  c.raisedBetween (c.attach host).2 ++ (c.attach host).2.raisedBetween (c.bind host).2

/-- What tearing down entities one after another raises. -/
def raisedByReaping : List Handle → Coordinator ο σ → List Raised
  | [], _ => []
  | h :: rest, c =>
    let d := (reapOne (0, c) h).2
    c.raisedBetween d ++ raisedByReaping rest d

/-- What reaping raises. -/
def raisedByReap (c : Coordinator ο σ) : List Raised :=
  raisedByReaping (c.registry.orphans c.hosts) c

/-- What doing what a mutation asks for raises. -/
def raisedByPerform (c : Coordinator ο σ) : Mutation → List Raised
  | .create host => c.raisedByBind host
  | mutation => c.raisedBetween (c.perform mutation).2

/-- The mutations that are applied of a list, up to one that runs over the clock. -/
def applications : List Pending → Coordinator ο σ → List Applied
  | [], _ => []
  | p :: rest, c =>
    match c.perform p.mutation with
    | (.error _, _) => []
    | (.ok outcome, d) =>
      ⟨p, outcome, c.raisedByPerform p.mutation⟩ :: applications rest (record p {} outcome d).2

/-- The state in which a flush begins to reap. -/
def flushing (c : Coordinator ο σ) : Coordinator ο σ :=
  { c with frame := (c.frame.enter .structural).markFlushed }

/-- The mutations whose turn it is at a flush, once it has reaped. -/
def due (c : Coordinator ο σ) : List Pending := c.flushing.reap.2.queue.drain.1

/-- The state in which a flush begins to apply them. -/
def drained (c : Coordinator ο σ) : Coordinator ο σ :=
  { c.flushing.reap.2 with queue := c.flushing.reap.2.queue.drain.2 }

/-- The mutations that a flush applies. -/
def flushed (c : Coordinator ο σ) : List Applied :=
  if c.frame.flushed then [] else applications c.due c.drained

/-- What a flush raises : first what it reaps, then what its mutations do. -/
def raisedByFlush (c : Coordinator ο σ) : List Raised :=
  if c.frame.flushed then [] else c.flushing.raisedByReap ++ c.flushed.flatMap Applied.raised

/-- What an action raises. A step raises what its flush does. -/
def raisedBy (c : Coordinator ο σ) : Action ο σ → List Raised
  | .bind host => c.raisedByBind host
  | .reap => c.raisedByReap
  | .flush => c.raisedByFlush
  | .step delta =>
    match c.frame.advance delta with
    | .error _ => []
    | .ok frame => { c with frame }.raisedByFlush
  | .dispatch => []
  | a => c.raisedBetween (c.act a)

/-- The signals that an action takes out of the outbox to deliver them. -/
def deliveredBy (c : Coordinator ο σ) : Action ο σ → List Signal
  | .dispatch => c.outbox.toList
  | .step delta =>
    match c.frame.advance delta with
    | .error _ => []
    | .ok frame =>
      match { c with frame }.flushOnce with
      | (.ok (.ok _), d) => (d.synchronizeAll .bidirectional).2.outbox.toList
      | _ => []
  | _ => []

/-- All that a run puts into the outbox, in order. -/
def history : Coordinator ο σ → List (Action ο σ) → List Raised
  | _, [] => []
  | c, a :: as => c.raisedBy a ++ (c.act a).history as

/-- All signals that a run takes out of the outbox, in order. -/
def deliveries : Coordinator ο σ → List (Action ο σ) → List Signal
  | _, [] => []
  | c, a :: as => c.deliveredBy a ++ (c.act a).deliveries as

theorem history_append (c : Coordinator ο σ) (as bs : List (Action ο σ)) :
    c.history (as ++ bs) = c.history as ++ (c.run as).history bs := by
  induction as generalizing c with
  | nil => rfl
  | cons a as ih =>
    simp only [List.cons_append, history, run_cons, ih, List.append_assoc]

/-- A coordinator in whose surroundings there is one host object, with one property that feeds a
component. -/
def sample : Coordinator PropertyBag Unit :=
  withTable (({} : Table).register { capability := "health", component := "Health" }).2 {}
    ⟨(({} : Hosts PropertyBag).create ⟨7⟩ ⟨[("health", .int 3)]⟩ true).2, ()⟩ {}

end Coordinator

end Tether
