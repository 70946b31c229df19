import Tether.Proofs.Reach
import Tether.Proofs.Structure

/-!
# What a dispatch does

A dispatch delivers the signals of the outbox one after another, each in a pass of its own
(`Delivers`), and then raises the named signals that are due, which comes down to calling their
listeners (`NamedSignals.tick_eq`). Between operations no pass is under way, so no signal is
refused. Listeners of both kinds may submit mutations while this goes on
(`Coordinator.submittedByDispatch`).

`Coordinator.dispatches_run` says what comes of it, whether a listener may have left shared state
inconsistent or not : the answer, what the next frame starts with, and that all that listeners
submitted waits for its flush.
-/

set_option linter.unusedSectionVars false

namespace Tether

/-! ## Delivering the outbox -/

/-- Signals are delivered one after another, each in one pass over those who are subscribed when
it begins; the failures are those of all passes. -/
def Delivers {σ : Type} : List Signal → Switchboard σ → List ListenerFailure →
    List (Moment σ) → Prop
  | [], _, failures, ms => failures = [] ∧ ms = []
  | s :: rest, board, failures, ms => ∃ first body own final others after,
    ms = ⟨.began .lifecycle s, first⟩ :: (body ++ ⟨.ended .lifecycle s own, final⟩ :: after) ∧
      IsPass .lifecycle s (board.channel .lifecycle s.kind).subscribers own (events body) ∧
      failures = own ++ others ∧ Delivers rest final others after

namespace Coordinator

variable {ο σ : Type} [HostObject ο]

/-- What happens while signals are delivered one after another. -/
def publishingAll : List Signal → Coordinator ο σ → List (Moment (Surroundings ο σ))
  | [], _ => []
  | s :: rest, c => c.publishing s ++ publishingAll rest (c.publish s).2

/-- What happens while a dispatch delivers the signals of the outbox. -/
def reactions (c : Coordinator ο σ) : List (Moment (Surroundings ο σ)) :=
  publishingAll c.outbox.toList c.reacting

/-- Between operations a signal is delivered in one pass. -/
theorem publish_isPass {c : Coordinator ο σ} (hidle : c.switchboard.IsIdle) (s : Signal) :
    ∃ failures first body, (c.publish s).1 = .ok failures ∧
      c.publishing s = ⟨.began .lifecycle s, first⟩ ::
        (body ++ [⟨.ended .lifecycle s failures, (c.publish s).2.switchboard⟩]) ∧
      IsPass .lifecycle s (c.switchboard.channel .lifecycle s.kind).subscribers failures
        (events body) := by
  obtain ⟨failures, d, body, hpublish, hmoments, hpass⟩ :=
    publishAt_isPass c.view .lifecycle s c.delivery c.switchboard.idle_le
      (hidle .lifecycle s.kind)
  have hreply : c.publish s = (.ok failures, c.afterDelivery d) := by
    unfold publish Tether.publish
    exact congrArg (fun x : Reply × _ => (x.1, c.afterDelivery x.2)) hpublish
  rw [hreply]
  exact ⟨failures, _, body, rfl, hmoments, hpass⟩

theorem publishAll_cons {c : Coordinator ο σ} {s : Signal} {ss : List Signal}
    {own others : List ListenerFailure} (h : (c.publish s).1 = .ok own)
    (h' : (publishAll ss (c.publish s).2).1 = .ok others) :
    publishAll (s :: ss) c = (.ok (own ++ others), (publishAll ss (c.publish s).2).2) := by
  rw [publishAll]
  generalize c.publish s = x at h h' ⊢
  obtain ⟨_, d⟩ := x
  cases h
  dsimp only at h' ⊢
  generalize publishAll ss d = y at h' ⊢
  obtain ⟨_, e⟩ := y
  cases h'
  rfl

/-- Between operations signals are delivered one after another, and none is refused. -/
theorem delivers_publishAll (ss : List Signal) {c : Coordinator ο σ}
    (hidle : c.switchboard.IsIdle) : ∃ failures, (publishAll ss c).1 = .ok failures ∧
      Delivers ss c.switchboard failures (publishingAll ss c) ∧
      Course .acting c.delivery (publishingAll ss c) (publishAll ss c).2.delivery := by
  induction ss generalizing c with
  | nil => exact ⟨[], rfl, ⟨rfl, rfl⟩, .still rfl rfl⟩
  | cons s ss ih =>
    obtain ⟨own, first, body, hreply, hmoments, hpass⟩ := publish_isPass hidle s
    obtain ⟨others, hrest, hdelivers, hcourse⟩ := ih (lasting_isIdle.publish (c := c) hidle s)
    rw [publishAll_cons hreply hrest]
    refine ⟨own ++ others, rfl, ⟨first, body, own, _, others, publishingAll ss (c.publish s).2, ?_,
      hpass, rfl, hdelivers⟩, (c.course_publish s).append hcourse⟩
    rw [publishingAll, hmoments, List.cons_append, List.append_assoc, List.singleton_append]

/-- Delivery touches nothing but listeners, queue, surroundings and journal. -/
theorem publishAll_eq (ss : List Signal) (c : Coordinator ο σ) :
    ∃ d, (publishAll ss c).2 = c.afterDelivery d := by
  induction ss generalizing c with
  | nil => exact ⟨c.delivery, rfl⟩
  | cons s ss ih =>
    have hone : ∃ d, (c.publish s).2 = c.afterDelivery d := ⟨_, rfl⟩
    unfold publishAll
    generalize c.publish s = x at hone
    obtain ⟨reply, d⟩ := x
    obtain ⟨y, rfl⟩ := hone
    cases reply with
    | error error => exact ⟨y, rfl⟩
    | ok failures =>
      obtain ⟨z, hz⟩ := ih (c.afterDelivery y)
      dsimp only
      split <;> rename_i hrest <;> rw [hrest] at hz <;> exact ⟨z, hz⟩

end Coordinator

/-! ## Containing failures -/

namespace Registry

/-- Flag the entities of failures as degraded. -/
def markAll (r : Registry) (fs : List ListenerFailure) : Registry :=
  fs.foldl (fun r f => r.markDegraded f.handle) r

variable (r : Registry)

theorem find?_markDegraded (g h : Handle) : (r.markDegraded g).find? h =
    (r.find? h).map fun e => { e with degraded := e.degraded || g = h } := by
  have hafter : (r.markDegraded g).find? h =
      ((r.markDegraded g).entries.get? h.slot).filter fun e => e.handle = h := rfl
  have hbefore : r.find? h = (r.entries.get? h.slot).filter fun e => e.handle = h := rfl
  rw [hafter, get?_entries_markDegraded, hbefore]
  cases he : r.entries.get? h.slot with
  | none => simp
  | some e =>
    by_cases hh : e.handle = h
    · subst hh
      by_cases hg : g = e.handle
      · subst hg
        simp [find?, he, Option.filter_some]
      · have hother : ¬ (e.handle.slot = g.slot ∧ (r.find? g).isSome = true) := by
          rintro ⟨hslot, hfound⟩
          rw [find?, ← hslot, he] at hfound
          simp [Option.filter_some, Ne.symm hg] at hfound
        rw [if_neg hother]
        simp [Option.filter_some, hg]
    · split <;> simp [Option.filter_some, hh]

/-- Flagged is who is failed for and live, and who was before. -/
theorem find?_markAll (fs : List ListenerFailure) (h : Handle) : (r.markAll fs).find? h =
    (r.find? h).map fun e =>
      { e with degraded := e.degraded || fs.any fun f => f.handle = h } := by
  induction fs generalizing r with
  | nil => simp [markAll]
  | cons f fs ih =>
    rw [markAll, List.foldl_cons, ← markAll, ih, find?_markDegraded, Option.map_map]
    simp [Function.comp_def, Bool.or_assoc]

/-- What marking does not touch. -/
theorem markAll_alike (fs : List ListenerFailure) :
    (r.markAll fs).allocator = r.allocator ∧ (r.markAll fs).byHost = r.byHost ∧
      ∀ i, ((r.markAll fs).entries.get? i).map (fun e => { e with degraded := false }) =
        (r.entries.get? i).map fun e => { e with degraded := false } := by
  induction fs generalizing r with
  | nil => exact ⟨rfl, rfl, fun _ => rfl⟩
  | cons f fs ih =>
    obtain ⟨hallocator, hhosts, hentries⟩ := ih (r.markDegraded f.handle)
    refine ⟨hallocator.trans (by simp), hhosts.trans (by simp), fun i => (hentries i).trans ?_⟩
    rw [get?_entries_markDegraded]
    split
    · rw [Option.map_map]
      rfl
    · rfl

theorem isDegraded_eq (h : Handle) :
    r.isDegraded h = ((r.find? h).map Entry.degraded).getD false := by
  unfold isDegraded entry
  cases r.find? h with
  | some e => rfl
  | none =>
    cases r.allocator.current? h.index with
    | none => rfl
    | some generation =>
      dsimp only
      split <;> rfl

end Registry

/-! ## What comes of a dispatch -/

namespace Coordinator

variable {ο σ : Type} [HostObject ο]

/-- The named signals that are due at a dispatch, in the order in which they were scheduled. -/
def dueSignals (c : Coordinator ο σ) : List Delayed :=
  c.named.delayed.filter fun d => d.due.le c.frame.time

/-- What a dispatch leaves. -/
theorem dispatch_eq {c : Coordinator ο σ} {failures : List ListenerFailure}
    (hreply : (publishAll c.outbox.toList c.reacting).1 = .ok failures) :
    ∃ journal, c.dispatch =
      (if failures.any fun f => f.error.isCorrupted then .error (.listenerFailure failures)
        else .ok {
          delivered := c.outbox.size
          named := c.dueSignals.countP fun d => d.entities.any c.registry.isBound
          failures },
      { c with
        registry := c.registry.markAll failures
        switchboard := c.reacted.switchboard
        named :=
          { c.named with
            delayed := c.named.delayed.filter fun d => !d.due.le c.frame.time
            lookup := {} }
        queue := ((c.dueSignals.flatMap
          (c.named.callsFor c.registry.isBound)).foldl NamedCall.result
            (c.reacted.surroundings, c.reacted.queue)).2
        outbox := #[]
        frame := c.frame.next
        incidents := c.incidents.map (· ++ (failures.map Incident.listener).toArray)
        journal
        surroundings := ((c.dueSignals.flatMap
          (c.named.callsFor c.registry.isBound)).foldl NamedCall.result
            (c.reacted.surroundings, c.reacted.queue)).1 }) := by
  obtain ⟨journal, hcontain⟩ := foldl_contain failures c.reacted.tick.2
  refine ⟨journal, ?_⟩
  rw [dispatch_of_ok hreply, hcontain]
  -- Delivery leaves alone what raising looks at.
  obtain ⟨d, hreacted⟩ : ∃ d, c.reacted = c.reacting.afterDelivery d :=
    publishAll_eq c.outbox.toList c.reacting
  obtain ⟨lookup, journal', htick⟩ :=
    NamedSignals.tick_eq c.registry.isBound c.frame.time (c.reacting.afterDelivery d).raising
  have hticked : (c.reacting.afterDelivery d).tick = _ :=
    congrArg (fun x => (x.1, (c.reacting.afterDelivery d).afterRaising x.2)) htick
  rw [hreacted, hticked]
  rfl

/-- All that listeners submit at a dispatch, in order : first those to the signals of the outbox,
then those to names. -/
def submittedByDispatch (c : Coordinator ο σ) : List Pending :=
  submissions c.reactions ++ NamedCall.submissions
    (c.dueSignals.flatMap (c.named.callsFor c.registry.isBound))
    (c.reacted.surroundings, c.reacted.queue)

theorem takes_raised {c : Coordinator ο σ}
    (h : c.queue.Takes (submissions c.reactions) c.reacted.queue) :
    c.queue.Takes c.submittedByDispatch
      ((c.dueSignals.flatMap (c.named.callsFor c.registry.isBound)).foldl NamedCall.result
        (c.reacted.surroundings, c.reacted.queue)).2 :=
  h.append (NamedCall.takes_results _ (c.reacted.surroundings, c.reacted.queue))

/-- What comes of a dispatch in which listeners answer with failures. -/
structure Dispatches (c : Coordinator ο σ) (failures : List ListenerFailure) : Prop where
  /-- Every signal of the outbox is delivered once, in the order in which they were raised; -/
  delivered : Delivers c.outbox.toList c.switchboard failures c.reactions
  /-- then the named signals that are due are raised, each to everybody who is subscribed to its
  name. -/
  raised : (c.dispatch.2.surroundings, c.dispatch.2.queue) =
    (c.dueSignals.flatMap (c.named.callsFor c.registry.isBound)).foldl NamedCall.result
      (c.reacted.surroundings, c.reacted.queue)
  /-- If shared state may be inconsistent, all failures are the answer. It is never that a pass is
  under way. -/
  answer : c.dispatch.1 =
    if failures.any fun f => f.error.isCorrupted then .error (.listenerFailure failures)
    else .ok {
      delivered := c.outbox.size
      named := c.dueSignals.countP fun d => d.entities.any c.registry.isBound
      failures }
  outbox : c.dispatch.2.outbox = #[]
  /-- A new frame begins at the same time, in the structural phase and not yet flushed, -/
  frame : c.dispatch.2.frame =
    { number := c.frame.number + 1, time := c.frame.time, phase := .structural, flushed := false }
  /-- with no name raised in it. -/
  lookup : c.dispatch.2.named.lookup = {}
  /-- Degraded are those who were and those who are live and were failed for. -/
  degraded : ∀ h, c.dispatch.2.registry.isDegraded h =
    (c.registry.isDegraded h ||
      (c.registry.find? h).isSome && failures.any fun f => f.handle = h)
  /-- To be live is to be bound, as long as slot numbers last. -/
  live : c.registry.allocator.capacity ≤ 2 ^ 32 →
    ∀ h, (c.registry.find? h).isSome = c.registry.isBound h
  /-- Beside that the registry is as it was, -/
  allocator : c.dispatch.2.registry.allocator = c.registry.allocator
  byHost : c.dispatch.2.registry.byHost = c.registry.byHost
  entries : ∀ i,
    (c.dispatch.2.registry.entries.get? i).map (fun e => { e with degraded := false }) =
      (c.registry.entries.get? i).map fun e => { e with degraded := false }
  /-- and the world, -/
  world : c.dispatch.2.world = c.world
  /-- and what was set up. -/
  settings : c.dispatch.2.settings = c.settings
  table : c.dispatch.2.table = c.table
  listeners : c.dispatch.2.named.listeners = c.named.listeners
  /-- Every failure is told of, in order. -/
  incidents : c.dispatch.2.incidents =
    c.incidents.map (· ++ (failures.map Incident.listener).toArray)
  /-- What listeners of either kind submitted waits behind what waited before, -/
  queue : c.dispatch.2.queue.pending.toList =
    c.queue.pending.toList ++ c.submittedByDispatch
  /-- and all of it is applied by the next flush. -/
  due : c.dispatch.2.due = c.dispatch.2.queue.pending.toList

theorem due_of_unbroken {c : Coordinator ο σ} (h : c.queue.Unbroken) :
    c.due = c.queue.pending.toList := by
  obtain ⟨_, _, _, _, _, _, hreap⟩ := c.flushing.structural_reap
  rw [due, hreap]
  exact congrArg Prod.fst h.drain_eq

theorem dispatches_of_idle {c : Coordinator ο σ} (hidle : c.switchboard.IsIdle)
    (hqueue : c.queue.Unbroken)
    (hlive : c.registry.allocator.capacity ≤ 2 ^ 32 → c.population.Consistent) :
    ∃ failures, c.Dispatches failures := by
  obtain ⟨failures, hreply, hdelivers, hcourse⟩ :=
    delivers_publishAll (c := c.reacting) c.outbox.toList hidle
  obtain ⟨journal, hdispatch⟩ := dispatch_eq hreply
  obtain ⟨hallocator, hhosts, hentries⟩ := c.registry.markAll_alike failures
  refine ⟨failures, ?_⟩
  rw [Prod.ext_iff] at hdispatch
  obtain ⟨hanswer, hstate⟩ := hdispatch
  constructor
  case delivered => exact hdelivers
  case answer => exact hanswer
  case live =>
    intro hcap h
    rw [Bool.eq_iff_iff, Option.isSome_iff_exists]
    exact (isBound_iff_find? (hlive hcap)).symm
  case degraded =>
    intro h
    rw [hstate, Registry.isDegraded_eq, Registry.isDegraded_eq, Registry.find?_markAll]
    cases c.registry.find? h <;> simp
  case due => exact due_of_unbroken (lasting_unbroken.dispatch hqueue)
  all_goals rw [hstate]
  case allocator => exact hallocator
  case byHost => exact hhosts
  case entries => exact hentries
  case queue => exact (takes_raised hcourse.takes).pending
  all_goals rfl

/-- Whatever happened before, a dispatch does all this. -/
theorem dispatches_run (table : Table) (settings : Settings) (surroundings : Surroundings ο σ)
    (journal : Journal) (as : List (Action ο σ)) :
    ∃ failures, ((withTable table settings surroundings journal).run as).Dispatches failures :=
  dispatches_of_idle (idle_run table settings surroundings journal as)
    (unbroken_run table settings surroundings journal as)
    (consistent_run table settings surroundings journal as)

-- A listener to a name asks for the end of an entity, and the flush after the dispatch ends it.
example :
    let c := sample.run [
      .subscribeNamed "alarm" fun _ _ ambient =>
        .enqueue (.destroy (.handle ⟨0, 0⟩)) fun _ => .done ambient,
      .enqueue (.create ⟨⟨7⟩, 0⟩), .flush, .delaySignal "alarm" [⟨0, 0⟩] .zero]
    c.submittedByDispatch.map Pending.sequence = [1] ∧
      (c.run [.dispatch]).registry.isBound ⟨0, 0⟩ = true ∧
      (c.run [.dispatch, .flush]).registry.isBound ⟨0, 0⟩ = false := by
  decide +kernel

end Coordinator

end Tether
