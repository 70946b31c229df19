import Tether.Proofs.Raising
import Tether.Proofs.Tandem

/-!
# How far operations reach

Operations outside delivery are of two kinds. Those on entities, their components and their host
objects are `Structural` : they touch neither listeners nor queue nor clock nor the signals that
wait. The others touch one of those each, and do little to it.

So what lasts of the listeners and the queue (`Lasting`) need only be looked up where something
is submitted, drained, subscribed, unsubscribed or delivered, and holds after every run then
(`Lasting.run`). Two such things are that the queue has no gaps (`Coordinator.unbroken_run`) and
that no pass is under way between operations (`Coordinator.idle_run`).
-/

set_option linter.unusedSectionVars false

namespace Tether

/-! ## A queue without gaps -/

namespace MutationQueue

/-- What waits is numbered without a gap, from the next number to be handed out up to the next
number to be claimed. -/
structure Unbroken (q : MutationQueue) : Prop where
  numbered : q.pending.toList.map Pending.sequence = List.range' q.next q.pending.size
  claimed : q.sequence = q.next + q.pending.size

theorem unbroken_empty : Unbroken {} := ⟨rfl, rfl⟩

theorem Unbroken.enqueue {q : MutationQueue} (h : q.Unbroken) (m : Mutation) :
    (q.enqueue m).2.Unbroken := by
  refine ⟨?_, ?_⟩
  · simp [MutationQueue.enqueue, claim, push, h.numbered, h.claimed, List.range'_concat]
  · simp [MutationQueue.enqueue, claim, push, h.claimed, Nat.add_assoc]

theorem Unbroken.submitAll {q : MutationQueue} (h : q.Unbroken) (ps : List Pending) :
    (q.submitAll ps).Unbroken := by
  induction ps generalizing q with
  | nil => exact h
  | cons p ps ih => exact ih (h.enqueue p.mutation)

theorem contiguous_of_numbered {next : Nat} {ps : List Pending}
    (h : ps.map Pending.sequence = List.range' next ps.length) : contiguous next ps = (ps, []) := by
  induction ps generalizing next with
  | nil => rfl
  | cons p rest ih =>
    rw [List.map_cons, List.length_cons, List.range'_succ, List.cons.injEq] at h
    simp only [contiguous, h.1, ↓reduceIte, ih h.2]

/-- A drain takes all that waits. -/
theorem Unbroken.drain_eq {q : MutationQueue} (h : q.Unbroken) :
    q.drain = (q.pending.toList, { q with pending := #[], next := q.sequence }) := by
  have hnumbered := h.numbered
  rw [← Array.length_toList] at hnumbered
  have hsorted : q.pending.toList.Pairwise fun a b => decide (a.sequence ≤ b.sequence) = true := by
    refine (List.pairwise_map.mp (hnumbered ▸ List.pairwise_lt_range')).imp fun hlt => ?_
    exact decide_eq_true (Nat.le_of_lt hlt)
  simp only [drain, List.mergeSort_of_pairwise hsorted, contiguous_of_numbered hnumbered]
  simp [h.claimed]

theorem Unbroken.drain {q : MutationQueue} (h : q.Unbroken) : q.drain.2.Unbroken := by
  rw [h.drain_eq]
  exact ⟨rfl, rfl⟩

end MutationQueue

/-! ## Structural operations -/

namespace Coordinator

variable {ο σ : Type} [HostObject ο]

/-- From one state to another nothing changes but who is bound, values of components and host
objects, and what is announced and written down about it. -/
def Structural (c d : Coordinator ο σ) : Prop :=
  ∃ registry world outbox hosts incidents journal, d =
    { c with
      registry, world, outbox, incidents, journal
      surroundings := { c.surroundings with hosts } }

section Structural

variable {c c' c'' : Coordinator ο σ}

theorem Structural.refl (c : Coordinator ο σ) : c.Structural c := ⟨_, _, _, _, _, _, rfl⟩

theorem Structural.trans (h : c.Structural c') (h' : c'.Structural c'') : c.Structural c'' := by
  obtain ⟨_, _, _, _, _, _, rfl⟩ := h
  obtain ⟨_, _, _, _, _, _, rfl⟩ := h'
  exact ⟨_, _, _, _, _, _, rfl⟩

theorem Structural.foldl {α β : Type} {f : β × Coordinator ο σ → α → β × Coordinator ο σ}
    (hf : ∀ (state : β × Coordinator ο σ) a, state.2.Structural (f state a).2) (as : List α)
    (state : β × Coordinator ο σ) : state.2.Structural (as.foldl f state).2 := by
  induction as generalizing state with
  | nil => exact .refl _
  | cons a as ih => exact (hf state a).trans (ih _)

theorem structural_note (c : Coordinator ο σ) (n : Notice) : c.Structural (c.note n) :=
  ⟨_, _, _, _, _, _, rfl⟩

theorem structural_unbind (c : Coordinator ο σ) (h : Handle) : c.Structural (c.unbind h).2 := by
  cases hb : c.registry.bound h with
  | error error =>
    rw [unbind_of_error hb]
    exact .refl c
  | ok e =>
    rw [unbind_of_bound hb]
    exact ⟨_, _, _, _, _, _, rfl⟩

theorem structural_unbindHost (c : Coordinator ο σ) (id : HostId) :
    c.Structural (c.unbindHost id).2 := by
  unfold unbindHost
  split
  · exact .refl c
  · exact c.structural_unbind _

theorem structural_attached (c : Coordinator ο σ) (host : HostRef) (object : ο) :
    c.Structural (c.attached host object) := by
  have hopening : c.Structural (c.opening host) := ⟨_, _, _, _, _, _, rfl⟩
  have hfill (d : Coordinator ο σ) (h : Handle) : d.Structural (d.fill h host object).2.2 := by
    unfold fill
    split
    · exact .refl d
    · exact ⟨_, _, _, _, _, _, rfl⟩
  refine (hopening.trans (hfill _ c.registry.allocator.alloc.1)).trans ?_
  obtain ⟨_, _, _, _, hcomplete, -⟩ := complete_eq
    ((c.opening host).fill c.registry.allocator.alloc.1 host object).2.2
    (c.registry.settled host) c.registry.allocator.alloc.1 host
    ((c.opening host).fill c.registry.allocator.alloc.1 host object).1
    ((c.opening host).fill c.registry.allocator.alloc.1 host object).2.1
  exact ⟨_, _, _, _, _, _, hcomplete⟩

theorem structural_attach (c : Coordinator ο σ) (host : HostRef) :
    c.Structural (c.attach host).2 := by
  cases ho : c.hosts.find? host with
  | none =>
    rw [attach_of_gone ho]
    exact .refl c
  | some object =>
    cases hf : c.registry.handleOf? host.id with
    | some h =>
      rw [attach_of_bound ho hf]
      exact .refl c
    | none =>
      rw [attach_of_fresh ho hf]
      exact c.structural_attached host object

theorem structural_bind (c : Coordinator ο σ) (host : HostRef) :
    c.Structural (c.bind host).2 := by
  have hattach := c.structural_attach host
  rcases c.bind_snd host with heq | ⟨h, heq⟩
  · rwa [heq]
  · rw [heq]
    exact (hattach.trans (structural_note _ _)).trans (structural_unbind _ h)

theorem structural_reapOne (state : Nat × Coordinator ο σ) (h : Handle) :
    state.2.Structural (reapOne state h).2 := by
  have hone := state.2.structural_unbind h
  unfold reapOne
  split <;> rename_i hunbind <;> rw [hunbind] at hone
  · exact hone
  · exact hone.trans (structural_note _ _)

theorem structural_reap (c : Coordinator ο σ) : c.Structural c.reap.2 := by
  have hall := Structural.foldl structural_reapOne (c.registry.orphans c.hosts) (0, c)
  unfold reap
  dsimp only
  split
  · exact hall.trans (structural_note _ _)
  · exact hall

theorem structural_addComponent (c : Coordinator ο σ) (h : Handle) (id : ComponentId)
    (value : Value) : c.Structural (c.addComponent h id value).2 := by
  unfold addComponent
  split
  · exact .refl c
  · split
    · exact .refl c
    · dsimp only
      split <;> exact ⟨_, _, _, _, _, _, rfl⟩

theorem structural_removeComponent (c : Coordinator ο σ) (h : Handle) (id : ComponentId) :
    c.Structural (c.removeComponent h id).2 := by
  unfold removeComponent
  split
  · exact .refl c
  · split
    · exact .refl c
    · exact ⟨_, _, _, _, _, _, rfl⟩

theorem structural_writeComponent (c : Coordinator ο σ) (h : Handle) (id : ComponentId)
    (value : Value) : c.Structural (c.writeComponent h id value).2 := by
  unfold writeComponent
  split
  · exact ⟨_, _, _, _, _, _, rfl⟩
  · exact .refl c

theorem structural_writeWorld (c : Coordinator ο σ) (h : Handle) (id : ComponentId)
    (value : Value) : c.Structural (c.writeWorld h id value).2 := by
  unfold writeWorld
  split
  · exact ⟨_, _, _, _, _, _, rfl⟩
  · exact .refl c

theorem structural_reports (failures : List Error) (c : Coordinator ο σ) :
    c.Structural (failures.foldl reportSynchronization c) := by
  obtain ⟨_, _, hreports⟩ := foldl_reportSynchronization failures c
  exact ⟨_, _, _, _, _, _, hreports⟩

theorem structural_visit (direction : Direction) (state : SyncReport × Coordinator ο σ)
    (h : Handle) : state.2.Structural (visit direction state h).2 := by
  unfold visit
  dsimp only
  split
  · split
    · exact ⟨_, _, _, _, _, _, rfl⟩
    · exact .refl _
  · exact .refl _

theorem structural_synchronize (c : Coordinator ο σ) (h : Handle) (direction : Direction) :
    c.Structural (c.synchronize h direction).2 := by
  unfold synchronize
  split
  · exact .refl c
  · split
    · exact .refl c
    · split
      · exact .refl c
      · exact Structural.trans ⟨_, _, _, _, _, _, rfl⟩ (structural_reports _ _)

/-- Synchronizing all entities enters its phase first. -/
theorem structural_synchronizeAll (c : Coordinator ο σ) (direction : Direction) :
    Structural { c with frame := c.frame.enter .synchronization }
      (c.synchronizeAll direction).2 := by
  have hwork (state : SyncReport × Coordinator ο σ) (share : List Handle) :
      state.2.Structural (work direction state share).2 :=
    Structural.foldl (structural_visit direction) share ({}, state.2)
  unfold synchronizeAll
  dsimp only
  refine Structural.trans ?_ (structural_reports _ _)
  split
  · exact Structural.foldl hwork _ ({}, { c with frame := c.frame.enter .synchronization })
  · exact Structural.foldl (structural_visit direction) _
      ({}, { c with frame := c.frame.enter .synchronization })

end Structural

end Coordinator

/-- Whether an action is about entities, their components and their host objects only. -/
def Action.isStructural {ο σ : Type} : Action ο σ → Bool
  | .bind _ | .unbind _ | .unbindHost _ | .reap | .addComponent _ _ _ | .removeComponent _ _
  | .writeComponent _ _ _ | .writeWorld _ _ _ | .synchronize _ _ => true
  | _ => false

theorem Coordinator.structural_act {ο σ : Type} [HostObject ο] (c : Coordinator ο σ)
    {a : Action ο σ} (h : a.isStructural = true) : c.Structural (c.act a) := by
  cases a with
  | bind host => exact c.structural_bind host
  | unbind j => exact c.structural_unbind j
  | unbindHost id => exact c.structural_unbindHost id
  | reap => exact c.structural_reap
  | addComponent j id value => exact c.structural_addComponent j id value
  | removeComponent j id => exact c.structural_removeComponent j id
  | writeComponent j id value => exact c.structural_writeComponent j id value
  | writeWorld j id value => exact c.structural_writeWorld j id value
  | synchronize j direction => exact c.structural_synchronize j direction
  | _ => cases h

/-! ## Flushing -/

namespace Coordinator

variable {ο σ : Type} [HostObject ο] {c d : Coordinator ο σ}

theorem record_core (p : Pending) (report : FlushReport) (result : Except Error Unit)
    (c : Coordinator ο σ) :
    (record p report result c).2.core = c.core ∧ (record p report result c).2.rest = c.rest := by
  unfold record
  split
  · exact ⟨rfl, rfl⟩
  · split <;> exact ⟨rfl, rfl⟩

theorem rest_perform (c : Coordinator ο σ) (m : Mutation) : (c.perform m).2.rest = c.rest := by
  obtain ⟨-, -, is, hsends, -⟩ := tandem_perform (rfl : c.core = c.core) m
  exact hsends.rest

theorem rest_applyAll (ps : List Pending) (report : FlushReport) (c : Coordinator ο σ) :
    (applyAll ps report c).2.rest = c.rest := by
  induction ps generalizing report c with
  | nil => rfl
  | cons p ps ih =>
    have hrest := c.rest_perform p.mutation
    unfold applyAll
    generalize c.perform p.mutation = x at hrest
    obtain ⟨result, d⟩ := x
    cases result with
    | error overflow => exact hrest
    | ok outcome => exact (ih _ _).trans ((record_core p report outcome d).2.trans hrest)

theorem core_drained (c : Coordinator ο σ) : c.drained.core = c.flushing.reap.2.core := by
  unfold drained
  generalize c.flushing.reap.2 = d
  rfl

theorem incidents_drained (c : Coordinator ο σ) :
    c.drained.incidents = c.flushing.reap.2.incidents := by
  unfold drained
  generalize c.flushing.reap.2 = d
  rfl

theorem rest_drained (c : Coordinator ο σ) :
    c.drained.rest = { c.rest with queue := c.queue.drain.2, frame := c.flushing.frame } := by
  obtain ⟨-, -, is, hsends, -⟩ := tandem_reap (rfl : c.flushing.core = c.flushing.core)
  have hrest := hsends.rest
  have hqueue : c.flushing.reap.2.queue = c.queue := congrArg Rest.queue hrest
  unfold drained
  rw [hqueue]
  generalize c.flushing.reap.2 = d at hrest
  rw [show rest { d with queue := c.queue.drain.2 } = { d.rest with queue := c.queue.drain.2 }
    from rfl, hrest]
  rfl

theorem frame_drained (c : Coordinator ο σ) : c.drained.frame = c.flushing.frame := by
  have hrest := c.rest_drained
  generalize c.drained = d at hrest ⊢
  exact congrArg Rest.frame hrest

/-- What a flush leaves of the rest. -/
theorem rest_flush (hf : c.frame.flushed = false) :
    c.flush.2.rest = { c.rest with queue := c.queue.drain.2, frame := c.flushing.frame } := by
  have hall := rest_applyAll c.due { reaped := c.flushing.reap.1 } c.drained
  rw [rest_drained] at hall
  rw [flush_eq hf, ← hall]
  generalize applyAll c.due { reaped := c.flushing.reap.1 } c.drained = r
  obtain ⟨result, d⟩ := r
  cases result <;> rfl

end Coordinator

/-! ## What lasts along a run -/

/-- What operations keep of the listeners and the queue : it holds after something is submitted,
drained, subscribed or unsubscribed, and after a whole delivery, if it did before. -/
structure Lasting {σ : Type} (I : Switchboard σ → MutationQueue → Prop) : Prop where
  enqueue : ∀ {s q}, I s q → ∀ mutation, I s (q.enqueue mutation).2
  drain : ∀ {s q}, I s q → I s q.drain.2
  subscribe : ∀ {s q}, I s q → ∀ line kind listener, I (s.subscribe line kind listener).2 q
  unsubscribe : ∀ {s q}, I s q → ∀ line x, I (s.unsubscribe line x).2 q
  deliver : ∀ {d d' : Delivery σ} {ms : List (Moment σ)}, Course .acting d ms d' →
    I d.switchboard d.queue → I d'.switchboard d'.queue

namespace Coordinator

variable {ο σ : Type} [HostObject ο] {c : Coordinator ο σ}

/-- What happens while a signal of the coordinator is delivered. -/
def publishing (c : Coordinator ο σ) (s : Signal) : List (Moment (Surroundings ο σ)) :=
  publishMoments c.view maxNesting .lifecycle s c.delivery

theorem course_publish (c : Coordinator ο σ) (s : Signal) :
    Course .acting c.delivery (c.publishing s) (c.publish s).2.delivery :=
  course_publishAt c.view .lifecycle s c.delivery maxNesting c.switchboard.idle_le

/-- The state in which a dispatch begins to deliver. -/
def reacting (c : Coordinator ο σ) : Coordinator ο σ :=
  { c with frame := c.frame.enter .reaction, outbox := #[] }

/-- The state in which a dispatch has delivered the signals of the outbox. -/
def reacted (c : Coordinator ο σ) : Coordinator ο σ := (publishAll c.outbox.toList c.reacting).2

theorem dispatch_of_error {error : Error}
    (h : (publishAll c.outbox.toList c.reacting).1 = .error error) :
    c.dispatch = (.error error, c.reacted) := by
  unfold reacted reacting at *
  unfold dispatch
  dsimp only
  generalize publishAll c.outbox.toList _ = r at h ⊢
  obtain ⟨_, d⟩ := r
  cases h
  rfl

theorem dispatch_of_ok {failures : List ListenerFailure}
    (h : (publishAll c.outbox.toList c.reacting).1 = .ok failures) :
    c.dispatch =
      (if failures.any fun f => f.error.isCorrupted then .error (.listenerFailure failures)
        else .ok { delivered := c.outbox.toList.length, named := c.reacted.tick.1, failures },
        (failures.foldl contain c.reacted.tick.2).endFrame) := by
  unfold reacted reacting at *
  unfold dispatch
  dsimp only
  generalize publishAll c.outbox.toList _ = r at h ⊢
  obtain ⟨_, d⟩ := r
  cases h
  dsimp only
  split <;> rfl

theorem foldl_contain (fs : List ListenerFailure) (c : Coordinator ο σ) :
    ∃ journal, fs.foldl contain c = { c with
      registry := fs.foldl (fun r f => r.markDegraded f.handle) c.registry
      incidents := c.incidents.map (· ++ (fs.map Incident.listener).toArray)
      journal } := by
  induction fs generalizing c with
  | nil => exact ⟨c.journal, by cases h : c.incidents <;> simp [← h]⟩
  | cons f fs ih =>
    obtain ⟨journal, hfs⟩ := ih (c.contain f)
    refine ⟨journal, hfs.trans ?_⟩
    simp only [contain, report, note, Option.map_map, List.map_cons, List.foldl_cons]
    cases c.incidents <;> simp

/-- The queue takes in what the listeners to a signal submit, -/
theorem takes_signal (c : Coordinator ο σ) (name : String) (entities : List Handle) :
    c.queue.Takes (NamedCall.submissions (c.named.callsAmong c.registry.isBound name entities)
      (c.surroundings, c.queue)) (c.signal name entities).2.queue := by
  obtain ⟨lookup, journal, hraise⟩ :=
    NamedSignals.raise_eq c.registry.isBound name entities c.raising
  have hqueue : (c.signal name entities).2.queue = _ :=
    congrArg NamedSignals.Raising.queue hraise
  exact hqueue ▸ NamedCall.takes_results _ (c.surroundings, c.queue)

/-- and what those to the signals that are due do. -/
theorem takes_tick (c : Coordinator ο σ) :
    c.queue.Takes (NamedCall.submissions ((c.named.delayed.filter fun d => d.due.le
      c.frame.time).flatMap (c.named.callsFor c.registry.isBound)) (c.surroundings, c.queue))
      c.tick.2.queue := by
  obtain ⟨lookup, journal, htick⟩ :=
    NamedSignals.tick_eq c.registry.isBound c.frame.time c.raising
  have hqueue : c.tick.2.queue = _ := congrArg (·.2.queue) htick
  exact hqueue ▸ NamedCall.takes_results _ (c.surroundings, c.queue)

end Coordinator

namespace Lasting

variable {ο σ : Type} [HostObject ο] {c : Coordinator ο σ}
  {I : Switchboard (Surroundings ο σ) → MutationQueue → Prop} (hI : Lasting I)
include hI

theorem publish (h : I c.switchboard c.queue) (s : Signal) :
    I (c.publish s).2.switchboard (c.publish s).2.queue :=
  hI.deliver (c.course_publish s) h

theorem publishAll (ss : List Signal) (h : I c.switchboard c.queue) :
    I (Coordinator.publishAll ss c).2.switchboard (Coordinator.publishAll ss c).2.queue := by
  induction ss generalizing c with
  | nil => exact h
  | cons s ss ih =>
    have hone := hI.publish h s
    unfold Coordinator.publishAll
    generalize c.publish s = x at hone
    obtain ⟨reply, d⟩ := x
    cases reply with
    | error error => exact hone
    | ok failures =>
      have hall := ih hone
      dsimp only
      split <;> rename_i hrest <;> rw [hrest] at hall <;> exact hall

theorem submitAll {s : Switchboard (Surroundings ο σ)} {q : MutationQueue} (h : I s q)
    (ps : List Pending) : I s (q.submitAll ps) := by
  induction ps generalizing q with
  | nil => exact h
  | cons p ps ih => exact ih (hI.enqueue h p.mutation)

theorem signal (h : I c.switchboard c.queue) (name : String) (entities : List Handle) :
    I (c.signal name entities).2.switchboard (c.signal name entities).2.queue := by
  rw [(c.takes_signal name entities).queue]
  exact hI.submitAll h _

theorem tick (h : I c.switchboard c.queue) : I c.tick.2.switchboard c.tick.2.queue := by
  rw [c.takes_tick.queue]
  exact hI.submitAll h _

theorem dispatch (h : I c.switchboard c.queue) :
    I c.dispatch.2.switchboard c.dispatch.2.queue := by
  have hall : I c.reacted.switchboard c.reacted.queue :=
    hI.publishAll (c := c.reacting) c.outbox.toList h
  cases hreply : (Coordinator.publishAll c.outbox.toList c.reacting).1 with
  | error error =>
    rw [Coordinator.dispatch_of_error hreply]
    exact hall
  | ok failures =>
    obtain ⟨journal, hcontain⟩ := Coordinator.foldl_contain failures c.reacted.tick.2
    rw [Coordinator.dispatch_of_ok hreply, hcontain]
    exact hI.tick hall

theorem flush (h : I c.switchboard c.queue) : I c.flush.2.switchboard c.flush.2.queue := by
  cases hf : c.frame.flushed with
  | true =>
    simp only [Coordinator.flush, hf, ↓reduceIte]
    exact h
  | false =>
    have hrest := Coordinator.rest_flush hf
    rw [show c.flush.2.queue = c.queue.drain.2 from congrArg Coordinator.Rest.queue hrest,
      show c.flush.2.switchboard = c.switchboard from congrArg Coordinator.Rest.switchboard hrest]
    exact hI.drain h

theorem flushOnce (h : I c.switchboard c.queue) :
    I c.flushOnce.2.switchboard c.flushOnce.2.queue := by
  unfold Coordinator.flushOnce
  split
  · exact h
  · exact hI.flush h

omit hI in
theorem structural {d : Coordinator ο σ} (hd : c.Structural d) (h : I c.switchboard c.queue) :
    I d.switchboard d.queue := by
  obtain ⟨_, _, _, _, _, _, rfl⟩ := hd
  exact h

omit hI in
theorem synchronizeAll (direction : Direction) (h : I c.switchboard c.queue) :
    I (c.synchronizeAll direction).2.switchboard (c.synchronizeAll direction).2.queue :=
  structural (c := { c with frame := c.frame.enter .synchronization })
    (c.structural_synchronizeAll direction) h

theorem step (delta : Duration) (h : I c.switchboard c.queue) :
    I (c.step delta).2.switchboard (c.step delta).2.queue := by
  unfold Coordinator.step
  split
  · exact h
  · rename_i frame _
    have hflush := hI.flushOnce (c := { c with frame }) h
    split <;> rename_i hd <;> rw [hd] at hflush
    · exact hflush
    · exact hflush
    · have hdispatch := hI.dispatch (synchronizeAll .bidirectional hflush)
      dsimp only
      split <;> rename_i he <;> rw [he] at hdispatch <;> exact hdispatch

/-- It holds after every action, -/
theorem act (h : I c.switchboard c.queue) (a : Action ο σ) :
    I (c.act a).switchboard (c.act a).queue := by
  cases a with
  | bind _ | unbind _ | unbindHost _ | reap | addComponent _ _ _ | removeComponent _ _
  | writeComponent _ _ _ | writeWorld _ _ _ | synchronize _ _ =>
    exact structural (c.structural_act rfl) h
  | synchronizeAll direction => exact synchronizeAll direction h
  | enqueue m => exact hI.enqueue h m
  | flush => exact hI.flush h
  | subscribe line kind listener => exact hI.subscribe h line kind listener
  | unsubscribe line x => exact hI.unsubscribe h line x
  | publish s => exact hI.publish h s
  | dispatch => exact hI.dispatch h
  | signal name entities => exact hI.signal h name entities
  | advance delta =>
    simp only [Coordinator.act, Coordinator.advance]
    split <;> exact h
  | step delta => exact hI.step delta h
  | delaySignal name entities delay =>
    simp only [Coordinator.act, Coordinator.delaySignal, NamedSignals.schedule]
    split <;> exact h
  | surround _ | registerComponent _ | subscribeNamed _ _ | unsubscribeNamed _
  | listenForIncidents | takeIncidents => exact h

/-- and after every run. -/
theorem run (as : List (Action ο σ)) (h : I c.switchboard c.queue) :
    I (c.run as).switchboard (c.run as).queue := by
  induction as generalizing c with
  | nil => exact h
  | cons a as ih => exact ih (hI.act h a)

end Lasting

theorem lasting_unbroken {σ : Type} : Lasting fun (_ : Switchboard σ) q => q.Unbroken where
  enqueue h m := h.enqueue m
  drain h := h.drain
  subscribe h _ _ _ := h
  unsubscribe h _ _ := h
  deliver hd h := hd.takes.queue ▸ h.submitAll _

/-- Whether no pass is under way. -/
def Switchboard.IsIdle {σ : Type} (s : Switchboard σ) : Prop :=
  ∀ line kind, (s.channel line kind).dispatching = false

theorem lasting_isIdle {σ : Type} : Lasting fun (s : Switchboard σ) _ => s.IsIdle where
  enqueue h _ := h
  drain h := h
  subscribe h line kind listener l k :=
    (Switchboard.dispatching_subscribe _ line l kind k listener).trans (h l k)
  unsubscribe h line x l k := (Switchboard.dispatching_unsubscribe _ line l k x).trans (h l k)
  deliver hd h line kind := (hd.dispatching line kind).trans (h line kind)

namespace Coordinator

variable {ο σ : Type} [HostObject ο] (table : Table) (settings : Settings)
  (surroundings : Surroundings ο σ) (journal : Journal) (as : List (Action ο σ))

theorem unbroken_run :
    ((withTable table settings surroundings journal).run as).queue.Unbroken :=
  lasting_unbroken.run as MutationQueue.unbroken_empty

theorem idle_run :
    ((withTable table settings surroundings journal).run as).switchboard.IsIdle := by
  have hnew : (withTable table settings surroundings journal).switchboard.IsIdle := by
    intro line kind
    cases line <;> cases kind <;> rfl
  exact lasting_isIdle.run as hnew

end Coordinator

end Tether
