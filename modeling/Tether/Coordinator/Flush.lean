import Tether.Coordinator.Lifecycle

/-!
# The structural phase

`Coordinator.flush` first reaps, then applies the queued mutations one after another. A
mutation that comes too late for its target is counted as stale and skipped, one that fails
otherwise is rejected, and the flush goes on with the next. Only a signal whose due
time is no duration stops it : the state is left as it is then, and the mutations behind that
one are lost. One frame has one flush.
-/

namespace Tether.Coordinator

variable {ο σ : Type} [HostObject ο]

/-- The part of the state that raising named signals works on. -/
def raising (c : Coordinator ο σ) : NamedSignals.Raising (Surroundings ο σ) :=
  ⟨c.named, c.queue, c.surroundings, c.journal⟩

/-- Take over what raising named signals changed. -/
def afterRaising (c : Coordinator ο σ) (r : NamedSignals.Raising (Surroundings ο σ)) :
    Coordinator ο σ :=
  { c with
    named := r.signals
    queue := r.queue
    surroundings := r.ambient
    journal := r.journal }

/-- Schedule a named signal for a delay from now on. -/
def delaySignal (c : Coordinator ο σ) (name : String) (entities : List Handle)
    (delay : Duration) : Except ClockOverflow Unit × Coordinator ο σ :=
  let (result, r) := NamedSignals.schedule name entities delay c.frame.time c.raising
  (result, c.afterRaising r)

/-- Do what a mutation asks for. -/
def perform (c : Coordinator ο σ) : Mutation → Outcome Unit × Coordinator ο σ
  | .create host => let (result, c) := c.bind host; (.ok (result.map fun _ => ()), c)
  | .destroy (.handle h) => let (result, c) := c.unbind h; (.ok result, c)
  | .destroy (.host id) => let (result, c) := c.unbindHost id; (.ok result, c)
  | .addComponent h id value =>
    let (result, c) := c.addComponent h id value; (.ok (result.map fun _ => ()), c)
  | .removeComponent h id =>
    let (result, c) := c.removeComponent h id; (.ok (result.map fun _ => ()), c)
  | .signal name entities delay =>
    let (result, c) := c.delaySignal name entities (delay.getD .zero); (result.map .ok, c)

/-- Take down the outcome of a mutation. -/
def record (p : Pending) (report : FlushReport) (result : Except Error Unit)
    (c : Coordinator ο σ) : FlushReport × Coordinator ο σ :=
  match result with
  | .ok () => ({ report with applied := report.applied + 1 }, c)
  | .error error =>
    if error.isStale then
      ({ report with stale := report.stale + 1 },
        (c.note (.staleMutation c.settings.queue.warnOnStale p.mutation.name p.sequence
          error)).report (.staleMutation p.sequence error))
    else
      ({ report with rejected := report.rejected ++ [error] },
        (c.note (.rejectedMutation p.mutation.name p.sequence error)).report
          (.rejected p.sequence error))

/-- Apply mutations in order, up to one that runs over the clock. -/
def applyAll : List Pending → FlushReport → Coordinator ο σ →
    Except ClockOverflow FlushReport × Coordinator ο σ
  | [], report, c => (.ok report, c)
  | p :: rest, report, c =>
    match c.perform p.mutation with
    | (.error overflow, c) => (.error overflow, c)
    | (.ok result, c) =>
      let (report, c) := record p report result c
      applyAll rest report c

/-- Reap, then apply every queued mutation in order of submission. -/
def flush (c : Coordinator ο σ) : Outcome FlushReport × Coordinator ο σ :=
  if c.frame.flushed then (.ok (.error (.alreadyFlushed c.frame.number)), c)
  else
    let c := { c with frame := (c.frame.enter .structural).markFlushed }
    let (reaped, c) := c.reap
    let (ready, queue) := c.queue.drain
    match applyAll ready { reaped } { c with queue } with
    | (.error overflow, c) => (.error overflow, c)
    | (.ok report, c) =>
      (.ok (.ok report),
        c.note (.flushed c.frame.number report.applied report.stale report.rejected.length))

end Tether.Coordinator
