import Tether.Proofs.Delays

/-!
# What becomes of failures

Passes nest, since a listener may publish from inside a pass. A failure is written down with how
many passes are under way when the listener answers with it (`Failing`). Whatever pass is entered
is left again, so a pass answers its publisher with the failures at its own depth, and all others
that happen meanwhile lie deeper (`Course.filter_failingsFrom`).

What is done about a failure depends on the way that its signal took
(`Coordinator.containing_run`). A dispatch flags the entities of the outermost failures and sends
an incident for each. Where the coordinator is told to publish at once, the outermost failures are
its answer, and nothing is flagged or sent. Failures that lie deeper are only told to the listener
who published. `Coordinator.uncontained` shows the three ways side by side.
-/

set_option linter.unusedSectionVars false

namespace Tether

/-! ## How deep a failure lies -/

/-- A failure, and how many passes are under way when a listener answers with it. -/
structure Failing where
  passes : Nat
  failure : ListenerFailure
  deriving DecidableEq

section Depth

variable {σ : Type}

namespace Event

/-- How many passes are under way after an event. -/
def passes (n : Nat) : Event σ → Nat
  | .began _ _ => n + 1
  | .ended _ _ _ => n - 1
  | _ => n

/-- The failure that a listener answers with while so many passes are under way. -/
def failing? (n : Nat) : Event σ → Option Failing
  | .answered _ s signal result => (failureOf s signal result).map (Failing.mk n)
  | _ => none

end Event

/-- The failures among events before which so many passes are under way. -/
def failingsFrom : Nat → List (Event σ) → List Failing
  | _, [] => []
  | n, e :: es => (e.failing? n).toList ++ failingsFrom (e.passes n) es

/-- All failures that happen. -/
def failings (ms : List (Moment σ)) : List Failing := failingsFrom 0 (events ms)

/-- The failures in passes that no other pass surrounds, in order. -/
def outermost (ms : List (Moment σ)) : List ListenerFailure :=
  ((failings ms).filter fun f => f.passes ≤ 1).map Failing.failure

/-- Events after which as many passes are under way as before. -/
def IsLevel (es : List (Event σ)) : Prop :=
  ∀ n rest, failingsFrom n (es ++ rest) = failingsFrom n es ++ failingsFrom n rest

namespace IsLevel

variable {es es' : List (Event σ)}

theorem append (h : IsLevel es) (h' : IsLevel es') : IsLevel (es ++ es') := fun n rest => by
  rw [List.append_assoc, h, h', h, List.append_assoc]

/-- In a pass everything lies deeper. -/
theorem pass (h : IsLevel es) (line : Line) (signal : Signal) (failures : List ListenerFailure)
    (n : Nat) (rest : List (Event σ)) :
    failingsFrom n (.began line signal :: (es ++ .ended line signal failures :: rest)) =
      failingsFrom (n + 1) es ++ failingsFrom n rest :=
  h (n + 1) _

theorem pass_alone (h : IsLevel es) (line : Line) (signal : Signal)
    (failures : List ListenerFailure) (n : Nat) :
    failingsFrom n (.began line signal :: (es ++ [.ended line signal failures])) =
      failingsFrom (n + 1) es := by
  rw [h.pass, failingsFrom, List.append_nil]

/-- A listener fails at the depth of the pass that invokes it, after all that it does. -/
theorem invocation (h : IsLevel es) (line : Line) (s : Subscriber σ) (signal : Signal)
    (result : Except ListenerError Unit) (n : Nat) (rest : List (Event σ)) :
    failingsFrom n (.invoked line s signal ::
        (es ++ .answered line s.subscription signal result :: rest)) =
      failingsFrom n es ++ (((failureOf s.subscription signal result).map (Failing.mk n)).toList ++
        failingsFrom n rest) :=
  h n _

end IsLevel

/-- What an activity answers with. -/
def Activity.failures : Activity σ → List ListenerFailure
  | .acting => []
  | .delivering _ _ _ failures => failures

namespace Course

variable {a : Activity σ} {d d' : Delivery σ} {ms : List (Moment σ)}

/-- Whatever pass is entered is left again. -/
theorem isLevel (h : Course a d ms d') : IsLevel (events ms) := by
  induction h with
  | still | nobody | submitted | subscribed | unsubscribed | refused => exact fun _ _ => rfl
  | append _ _ ih ih' => exact events_append .. ▸ ih.append ih'
  | passed _ _ ih =>
    intro n rest
    simp only [events_cons, events_append, events_nil, List.cons_append, List.append_assoc,
      List.nil_append, ih.pass]
    rw [failingsFrom, List.nil_append]
  | next _ _ _ _ ih ih' =>
    intro n rest
    simp only [events_cons, events_append, List.cons_append, List.append_assoc, ih.invocation,
      ih' n]

/-- What an activity answers with are the failures at its own depth. All others lie deeper. -/
theorem filter_failingsFrom (h : Course a d ms d') (n : Nat) :
    (failingsFrom n (events ms)).filter (fun f => f.passes ≤ n) =
      a.failures.map (Failing.mk n) := by
  induction h generalizing n with
  | still | nobody | submitted | subscribed | unsubscribed | refused => rfl
  | append h _ ih ih' =>
    rw [events_append, h.isLevel, List.filter_append, ih, ih']
    rfl
  | @passed _ _ line signal failures ms _ h ih =>
    simp only [events_cons, events_append, events_nil, h.isLevel.pass_alone]
    -- The pass answers with what lies at depth `n + 1`, so nothing in it lies at depth `n`.
    refine List.filter_eq_nil_iff.mpr fun f hf hn => ?_
    have hle : f.passes ≤ n := of_decide_eq_true hn
    have hmem : f ∈ (failingsFrom (n + 1) (events ms)).filter fun f => f.passes ≤ n + 1 :=
      List.mem_filter.mpr ⟨hf, decide_eq_true (Nat.le_succ_of_le hle)⟩
    rw [ih] at hmem
    obtain ⟨_, -, rfl⟩ := List.mem_map.mp hmem
    exact absurd hle (Nat.not_succ_le_self n)
  | @next _ _ _ line signal s _ result _ ms ms' h _ ih ih' =>
    simp only [events_cons, events_append, h.isLevel.invocation, List.filter_append, ih, ih',
      Activity.failures, List.map_nil, List.nil_append, List.map_append]
    cases failureOf s.subscription signal result <;> simp

theorem outermost_append (h : Course a d ms d') (ms' : List (Moment σ)) :
    outermost (ms ++ ms') = outermost ms ++ outermost ms' := by
  simp only [outermost, failings, events_append, h.isLevel 0, List.filter_append, List.map_append]

/-- Of a whole pass the outermost failures are those that it ends with. -/
theorem outermost_passed {line : Line} {signal : Signal} {subscribers : List (Subscriber σ)}
    {failures : List ListenerFailure}
    (h : Course (.delivering line signal subscribers failures) d ms d') (s s' : Switchboard σ) :
    outermost (⟨.began line signal, s⟩ :: (ms ++ [⟨.ended line signal failures, s'⟩])) =
      failures := by
  simp only [outermost, failings, events_cons, events_append, events_nil, h.isLevel.pass_alone,
    h.filter_failingsFrom, Activity.failures, List.map_map]
  exact List.map_id failures

end Course

/-- Where no pass is under way on its channel, publishing answers with the outermost failures. -/
theorem publishAt_fst (view : View) (line : Line) (signal : Signal) (d : Delivery σ) {depth : Nat}
    (hroom : d.switchboard.idle ≤ depth + 1)
    (hoff : (d.switchboard.channel line signal.kind).dispatching = false) :
    (publishAt view (depth + 1) line signal d).1 =
      .ok (outermost (publishMoments view (depth + 1) line signal d)) := by
  have hpublish : publishAt view (depth + 1) line signal d = _ :=
    publishAt_of_idle view line signal d hoff
  have hidle := d.idle_started hoff
  have hcourse := course_deliver (fun l s d => course_publishAt view l s d depth) view line signal
    (d.switchboard.channel line signal.kind).subscribers (d.started line signal) (by omega)
  simp only [publishMoments, hpublish, hcourse.outermost_passed]

end Depth

namespace Coordinator

variable {ο σ : Type} [HostObject ο]

/-! ## What is done about failures -/

section Idle

variable {c : Coordinator ο σ} (hidle : c.switchboard.IsIdle)
include hidle

theorem publish_fst (s : Signal) : (c.publish s).1 = .ok (outermost (c.publishing s)) :=
  publishAt_fst c.view .lifecycle s c.delivery c.switchboard.idle_le (hidle .lifecycle s.kind)

theorem publishAll_fst (ss : List Signal) :
    (publishAll ss c).1 = .ok (outermost (publishingAll ss c)) := by
  induction ss generalizing c with
  | nil => rfl
  | cons s ss ih =>
    rw [publishAll_cons (publish_fst hidle s) (ih (lasting_isIdle.publish (c := c) hidle s)),
      publishingAll, (c.course_publish s).outermost_append]

theorem idle_of_dispatchOf? {a : Action ο σ} {d : Coordinator ο σ}
    (h : c.dispatchOf? a = some d) : d.switchboard.IsIdle := by
  have hfollows := follows_act hidle a
  rw [beats, h] at hfollows
  exact hfollows.of_split.2

end Idle

/-- What is done about the failures that happen in an action. -/
structure Containing (c : Coordinator ο σ) (a : Action ο σ) : Prop where
  /-- If it dispatches, an incident is sent for every outermost failure, in order, and for no other
  failure, -/
  incidents : ∀ d, c.dispatchOf? a = some d → (c.act a).incidents =
    d.incidents.map (· ++ ((outermost d.reactions).map Incident.listener).toArray)
  /-- and of the entities that are bound, those of the outermost failures are flagged, and those
  that were before. -/
  degraded : ∀ d, c.dispatchOf? a = some d → ∀ h, (c.act a).registry.isBound h = true →
    (c.act a).registry.isDegraded h =
      (d.registry.isDegraded h || (outermost d.reactions).any fun f => f.handle = h)
  /-- If it publishes a signal, the outermost failures are the answer, -/
  answered : ∀ s, a = .publish s → (c.publish s).1 = .ok (outermost (c.publishing s))
  /-- and nobody is flagged and no incident sent. -/
  unnoticed : ∀ s, a = .publish s →
    (c.act a).registry = c.registry ∧ (c.act a).incidents = c.incidents
  /-- In either case every pass answers whoever published with its own failures, however deep it
  lies. -/
  dispatched : ∀ d, c.dispatchOf? a = some d → Bracketed d.reactions
  published : ∀ s, a = .publish s → Bracketed (c.publishing s)

theorem containing_of_idle {c : Coordinator ο σ} (hidle : c.switchboard.IsIdle)
    (a : Action ο σ) : c.Containing a := by
  have hact {d : Coordinator ο σ} (h : c.dispatchOf? a = some d) :
      (c.act a).registry = d.registry.markAll (outermost d.reactions) ∧
        (c.act a).incidents =
          d.incidents.map (· ++ ((outermost d.reactions).map Incident.listener).toArray) := by
    have hd := idle_of_dispatchOf? hidle h
    obtain ⟨journal, hact⟩ := act_of_dispatch h
    obtain ⟨journal', hdispatch⟩ :=
      dispatch_eq (publishAll_fst (c := d.reacting) hd d.outbox.toList)
    rw [hact, hdispatch]
    exact ⟨rfl, rfl⟩
  constructor
  case incidents => exact fun d h => (hact h).2
  case degraded =>
    intro d h g hbound
    rw [(hact h).1] at hbound ⊢
    obtain ⟨e, hfind, -⟩ := Registry.isBound_iff.mp hbound
    rw [Registry.find?_markAll] at hfind
    obtain ⟨e', he', -⟩ := Option.map_eq_some_iff.mp hfind
    rw [Registry.isDegraded_eq, Registry.isDegraded_eq, Registry.find?_markAll, he']
    rfl
  case answered => exact fun s _ => publish_fst hidle s
  case unnoticed =>
    rintro s rfl
    exact ⟨rfl, rfl⟩
  case dispatched =>
    intro d h
    have hd := idle_of_dispatchOf? hidle h
    obtain ⟨_, -, -, hcourse⟩ := delivers_publishAll (c := d.reacting) d.outbox.toList hd
    exact hcourse.bracketed fun _ _ => False.elim
  case published => exact fun s _ => (c.course_publish s).bracketed fun _ _ => False.elim

/-- Whatever happened before, this is done about failures. -/
theorem containing_run (table : Table) (settings : Settings) (surroundings : Surroundings ο σ)
    (journal : Journal) (as : List (Action ο σ)) (a : Action ο σ) :
    ((withTable table settings surroundings journal).run as).Containing a :=
  containing_of_idle (idle_run table settings surroundings journal as) a

/-- A listener that fails. -/
def failing : Listener (Surroundings PropertyBag Unit) :=
  fun _ _ ambient => .done (.error (.recoverable "failed")) ambient

/-- A listener that publishes that a component was removed, and does not mind failures. -/
def forwarding : Listener (Surroundings PropertyBag Unit) := fun s _ ambient =>
  .publish .lifecycle (.componentRemoved s.handle ⟨0⟩ (.int 3)) ambient fun _ ambient =>
    .done (.ok ()) ambient

/-- Whether its signal comes from the outbox, is published at once or is published by a listener,
a listener fails for an entity that stays bound. Only in the first case is the entity flagged and an
incident sent. -/
theorem uncontained :
    let bound := sample.run [.listenForIncidents, .bind ⟨⟨7⟩, 0⟩]
    let c := bound.run [.subscribe .lifecycle .componentAdded failing]
    let s := Signal.componentAdded ⟨0, 0⟩ ⟨0⟩ (.int 3)
    let e := bound.run [.subscribe .lifecycle .entityCreated forwarding,
      .subscribe .lifecycle .componentRemoved failing]
    let f : ListenerFailure :=
      ⟨⟨.componentAdded, 0⟩, .componentAdded, ⟨0, 0⟩, .recoverable "failed"⟩
    let g : ListenerFailure :=
      ⟨⟨.componentRemoved, 1⟩, .componentRemoved, ⟨0, 0⟩, .recoverable "failed"⟩
    (s ∈ c.outbox.toList ∧ failings c.reactions = [⟨1, f⟩] ∧
      c.dispatch.2.registry.isBound ⟨0, 0⟩ = true ∧
      c.dispatch.2.registry.isDegraded ⟨0, 0⟩ = true ∧
      c.dispatch.2.incidents = some #[.listener f]) ∧
    (failings (c.publishing s) = [⟨1, f⟩] ∧ (c.publish s).2.registry.isBound ⟨0, 0⟩ = true ∧
      (c.publish s).2.registry.isDegraded ⟨0, 0⟩ = false ∧ (c.publish s).2.incidents = some #[]) ∧
    failings e.reactions = [⟨2, g⟩] ∧ e.dispatch.2.registry.isBound ⟨0, 0⟩ = true ∧
      e.dispatch.2.registry.isDegraded ⟨0, 0⟩ = false ∧ e.dispatch.2.incidents = some #[] := by
  decide +kernel

end Coordinator

end Tether
