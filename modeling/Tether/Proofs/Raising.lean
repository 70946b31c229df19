import Tether.Proofs.Passes
import Tether.Signal.Named

/-!
# Whom a raised signal reaches

To raise a signal is to call everybody who is subscribed to its name, one after another
(`NamedSignals.callsTo`). Each call begins with the surrounding state and the queue as the one
before has left them (`NamedCall.result`), so what comes of raising is a fold over the calls :
for one signal (`NamedSignals.raise_eq`), for one that is due (`release_eq`) and for all that are
(`tick_eq`).

Calls do nothing to the queue but to submit. What they submit can be listed beside them
(`NamedCall.submissions`), and waits afterwards behind what waited before
(`NamedCall.takes_results`).
-/

namespace Tether

variable {σ : Type}

namespace NamedProgram

/-- What the actions of a listener submit, in order. -/
def submissions : NamedProgram σ → MutationQueue → List Pending
  | .done _, _ => []
  | .enqueue mutation next, q =>
    let (sequence, q) := q.enqueue mutation
    ⟨sequence, mutation⟩ :: (next sequence).submissions q
  | .waiting next, q => (next q.size).submissions q

theorem takes_run (p : NamedProgram σ) (q : MutationQueue) :
    q.Takes (p.submissions q) (p.run q).2 := by
  induction p generalizing q with
  | done ambient => exact .nil q
  | enqueue mutation next ih => exact .append (.enqueue q mutation) (ih _ _)
  | waiting next ih => exact ih _ _

end NamedProgram

/-- An invocation of a listener to a name. -/
structure NamedCall (σ : Type) where
  subscription : NamedSubscription
  listener : NamedListener σ
  name : String
  entities : List Handle

namespace NamedCall

/-- What a listener does when it is called. -/
def program (call : NamedCall σ) (ambient : σ) : NamedProgram σ :=
  call.listener call.name call.entities ambient

/-- What comes of an invocation, for the surrounding state and for the queue. -/
def result (state : σ × MutationQueue) (call : NamedCall σ) : σ × MutationQueue :=
  (call.program state.1).run state.2

/-- What calls submit, one after another. -/
def submissions : List (NamedCall σ) → σ × MutationQueue → List Pending
  | [], _ => []
  | call :: calls, state =>
    (call.program state.1).submissions state.2 ++ submissions calls (call.result state)

/-- The queue takes in what calls submit. -/
theorem takes_results (calls : List (NamedCall σ)) (state : σ × MutationQueue) :
    state.2.Takes (submissions calls state) (calls.foldl result state).2 := by
  induction calls generalizing state with
  | nil => exact .nil _
  | cons call calls ih =>
    exact (NamedProgram.takes_run _ _).append (ih (call.result state))

end NamedCall

namespace NamedSignals

/-- Who is called for a name : everybody who is subscribed to it, in order of subscription, with
all entities. -/
def callsTo (n : NamedSignals σ) (name : String) (entities : List Handle) : List (NamedCall σ) :=
  (n.listeners.filter fun l => l.1.name = name).map fun l => ⟨l.1, l.2, name, entities⟩

/-- Who is called for a name among entities some of which may not be live : the same, with those
that are, in order. Without any nobody is. -/
def callsAmong (n : NamedSignals σ) (isLive : Handle → Bool) (name : String)
    (entities : List Handle) : List (NamedCall σ) :=
  if entities.any isLive then n.callsTo name (entities.filter isLive) else []

/-- Whom a signal that is due is raised to. -/
def callsFor (n : NamedSignals σ) (isLive : Handle → Bool) (d : Delayed) : List (NamedCall σ) :=
  n.callsAmong isLive d.name d.entities

/-- The state of raising after calls. -/
def Raising.called (r : Raising σ) (calls : List (NamedCall σ)) : Raising σ :=
  let (ambient, queue) := calls.foldl NamedCall.result (r.ambient, r.queue)
  { r with ambient, queue }

theorem Raising.called_append (r : Raising σ) (calls calls' : List (NamedCall σ)) :
    r.called (calls ++ calls') = (r.called calls).called calls' := by
  unfold called
  rw [List.foldl_append]

theorem invoke_eq (n : NamedSignals σ) (name : String) (entities : List Handle)
    (state : σ × MutationQueue) : invoke name entities (n.listenersTo name) state =
      (n.callsTo name entities).foldl NamedCall.result state := by
  unfold invoke listenersTo callsTo
  rw [List.foldl_map, List.foldl_map]
  rfl

variable (isLive : Handle → Bool)

theorem isEmpty_filter_live (hs : List Handle) :
    (hs.filter isLive).isEmpty = !hs.any isLive := by
  induction hs with
  | nil => rfl
  | cons h hs ih => cases hh : isLive h <;> simp [hh, ih]

/-- Raising a signal calls its listeners. -/
theorem raise_eq (name : String) (entities : List Handle) (r : Raising σ) :
    ∃ lookup journal, (raise name (entities.filter isLive) r).2 =
      { r.called (r.signals.callsAmong isLive name entities) with
        signals := { r.signals with lookup }
        journal } := by
  unfold raise callsAmong
  rw [isEmpty_filter_live]
  cases entities.any isLive with
  | false => exact ⟨_, _, rfl⟩
  | true =>
    simp only [Bool.not_true, Bool.false_eq_true, ↓reduceIte, invoke_eq]
    exact ⟨_, _, rfl⟩

theorem release_eq (count : Nat) (r : Raising σ) (d : Delayed) :
    ∃ lookup journal, release isLive (count, r) d =
      (count + if d.entities.any isLive then 1 else 0,
        { r.called (r.signals.callsFor isLive d) with
          signals := { r.signals with lookup }
          journal }) := by
  obtain ⟨lookup, journal, hraise⟩ := raise_eq isLive d.name d.entities r
  unfold release
  dsimp only
  rw [isEmpty_filter_live, hraise, callsFor, callsAmong]
  cases d.entities.any isLive with
  | false => exact ⟨_, _, rfl⟩
  | true => exact ⟨lookup, journal, rfl⟩

theorem foldl_release_eq (ds : List Delayed) (count : Nat) (r : Raising σ) :
    ∃ lookup journal, ds.foldl (release isLive) (count, r) =
      (count + ds.countP fun d => d.entities.any isLive,
        { r.called (ds.flatMap (r.signals.callsFor isLive)) with
          signals := { r.signals with lookup }
          journal }) := by
  induction ds generalizing count r with
  | nil => exact ⟨_, _, rfl⟩
  | cons d ds ih =>
    obtain ⟨lookup, journal, hone⟩ := release_eq isLive count r d
    rw [List.foldl_cons, hone]
    obtain ⟨lookup', journal', hrest⟩ := ih (count + if d.entities.any isLive then 1 else 0)
      { r.called (r.signals.callsFor isLive d) with
        signals := { r.signals with lookup }
        journal }
    refine ⟨lookup', journal', hrest.trans ?_⟩
    rw [List.flatMap_cons, Raising.called_append, List.countP_cons, Nat.add_assoc,
      Nat.add_comm (ite _ _ _)]
    rfl

/-- Raising what is due calls the listeners of its names; what is not due goes on waiting. -/
theorem tick_eq (now : Duration) (r : Raising σ) :
    ∃ lookup journal, tick now isLive r =
      ((r.signals.delayed.filter fun d => d.due.le now).countP fun d => d.entities.any isLive,
        { r.called ((r.signals.delayed.filter fun d => d.due.le now).flatMap
            (r.signals.callsFor isLive)) with
          signals :=
            { r.signals with
              delayed := r.signals.delayed.filter fun d => !d.due.le now, lookup }
          journal }) := by
  obtain ⟨lookup, journal, hall⟩ := foldl_release_eq isLive
    (r.signals.delayed.filter fun d => d.due.le now) 0
    { r with signals :=
      { r.signals with delayed := r.signals.delayed.filter fun d => !d.due.le now } }
  exact ⟨lookup, journal, hall.trans (by rw [Nat.zero_add]; rfl)⟩

end NamedSignals

end Tether
