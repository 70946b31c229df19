import Mathlib.Data.List.Perm.Subperm
import Mathlib.Logic.Function.Iterate
import Tether.Proofs.Subscribers

/-!
# How deep delivery goes

`publishAt` is given how many passes may still be opened, so that it always answers. Here delivery
is taken apart into steps that know of no such bound : an `Execution` has one thing to do next and
a stack of listeners, each waiting for the reply to a signal that it published, and
`Execution.step` does the next thing. A listener that publishes is put on the stack, and it goes
on when the reply is there.

Stepwise delivery of a signal comes to an end, and to the end that `publish` gives
(`Execution.reaches_publishAt`) : listeners may subscribe as many others as they like, but a pass
runs over those who were there when it began, and each pass leaves fewer channels idle. Meanwhile
every channel that is marked as dispatching has exactly one pass on the stack
(`Execution.Nested.step`), and so nobody is invoked who is still running.
`Execution.nests_publish` says both for every signal that is published from outside, however the
listeners came to be subscribed.
-/

namespace Tether

variable {σ : Type}

/-! ## Delivery step by step -/

/-- A pass that is under way, between two of its listeners. -/
structure Round (σ : Type) where
  line : Line
  signal : Signal
  /-- Who is still to be invoked. -/
  rest : List (Subscriber σ)
  /-- Who failed so far. -/
  failures : List ListenerFailure := []

/-- The channel that a pass runs over. -/
def Round.place (r : Round σ) : Line × Kind := (r.line, r.signal.kind)

/-- A pass takes down the result of a listener. -/
def Round.answered (r : Round σ) (s : Subscription) (result : Except ListenerError Unit) :
    Round σ :=
  { r with failures := r.failures ++ (failureOf s r.signal result).toList }

/-- A listener of a pass that waits for the reply to a signal that it published. -/
structure Caller (σ : Type) where
  round : Round σ
  subscriber : Subscriber σ
  next : Reply → σ → Program σ

/-- What is to be done next. -/
inductive Task (σ : Type)
  /-- A signal is published. -/
  | publish (line : Line) (signal : Signal)
  /-- A pass invokes the next of its listeners, or ends. -/
  | resume (round : Round σ)
  /-- A listener takes the next of its actions. -/
  | act (round : Round σ) (subscriber : Subscriber σ) (program : Program σ)
  /-- Whoever published a signal gets the reply. -/
  | reply (reply : Reply)

/-- Delivery in the middle of its work. -/
structure Execution (σ : Type) where
  task : Task σ
  /-- Who waits, innermost first. -/
  callers : List (Caller σ) := []
  state : Delivery σ

namespace Execution

/-- Do the next thing. Without anybody who waits for it a reply is the end. -/
def step (view : View) (x : Execution σ) : Execution σ :=
  match x.task with
  | .publish line signal =>
    if (x.state.switchboard.channel line signal.kind).dispatching then
      { x with task := .reply (.error (.reentrantPublish signal.kind)) }
    else
      { x with
        task := .resume ⟨line, signal,
          (x.state.switchboard.channel line signal.kind).subscribers, []⟩
        state := x.state.started line signal }
  | .resume ⟨line, signal, [], failures⟩ =>
    { x with task := .reply (.ok failures), state := x.state.finished line signal }
  | .resume ⟨line, signal, s :: rest, failures⟩ =>
    { x with
      task := .act ⟨line, signal, rest, failures⟩ s (s.listener signal view x.state.ambient) }
  | .act r s (.done result ambient) =>
    { x with
      task := .resume (r.answered s.subscription result)
      state := { x.state with ambient } }
  | .act r s (.enqueue mutation next) =>
    let (sequence, queue) := x.state.queue.enqueue mutation
    { x with task := .act r s (next sequence), state := { x.state with queue } }
  | .act r s (.subscribe line kind listener next) =>
    let (subscription, switchboard) := x.state.switchboard.subscribe line kind listener
    { x with task := .act r s (next subscription), state := { x.state with switchboard } }
  | .act r s (.unsubscribe line subscription next) =>
    let (was, switchboard) := x.state.switchboard.unsubscribe line subscription
    { x with task := .act r s (next was), state := { x.state with switchboard } }
  | .act r s (.inspect line kind next) =>
    { x with task := .act r s (next (x.state.switchboard.status line kind)) }
  | .act r s (.publish line signal ambient next) =>
    { task := .publish line signal, callers := ⟨r, s, next⟩ :: x.callers
      state := { x.state with ambient } }
  | .reply reply =>
    match x.callers with
    | [] => x
    | ⟨r, s, next⟩ :: callers =>
      { x with task := .act r s (next reply x.state.ambient), callers }

/-- Publishing a signal from outside. -/
def start (line : Line) (signal : Signal) (d : Delivery σ) : Execution σ :=
  { task := .publish line signal, state := d }

/-- The end, with an answer and a state. -/
def ended (answer : Reply × Delivery σ) : Execution σ :=
  { task := .reply answer.1, state := answer.2 }

/-- The execution after so many steps. -/
def after (view : View) (n : Nat) (x : Execution σ) : Execution σ := (step view)^[n] x

/-- Finitely many steps lead from one execution to another. -/
def Reaches (view : View) (x y : Execution σ) : Prop := ∃ n, x.after view n = y

variable {view : View} {x y z : Execution σ}

theorem Reaches.trans (h : x.Reaches view y) (h' : y.Reaches view z) : x.Reaches view z := by
  obtain ⟨m, rfl⟩ := h
  obtain ⟨n, rfl⟩ := h'
  exact ⟨n + m, Function.iterate_add_apply _ n m x⟩

/-- One step, and then some. -/
theorem Reaches.of_step (h : (x.step view).Reaches view y) : x.Reaches view y :=
  Reaches.trans ⟨1, rfl⟩ h

/-! ## Delivery comes to an end -/

section Acting

variable {depth : Nat}
  (hpublish : ∀ line signal (d : Delivery σ) callers, d.switchboard.idle ≤ depth →
    Reaches view ⟨.publish line signal, callers, d⟩
      ⟨.reply (publishAt view depth line signal d).1, callers,
        (publishAt view depth line signal d).2⟩)
include hpublish

/-- A listener comes to its result, if what it publishes comes to an end. -/
theorem reaches_run (program : Program σ) (r : Round σ) (s : Subscriber σ)
    (callers : List (Caller σ)) (d : Delivery σ) (hroom : d.switchboard.idle ≤ depth) :
    Reaches view ⟨.act r s program, callers, d⟩
      ⟨.resume (r.answered s.subscription (program.run (publishAt view depth) d).1), callers,
        (program.run (publishAt view depth) d).2⟩ := by
  induction program generalizing d with
  | done result ambient => exact ⟨1, rfl⟩
  | enqueue mutation next ih => exact .of_step (ih _ _ hroom)
  | subscribe line kind listener next _ ih =>
    have hidle := (Course.subscribed d line kind listener).idle
    exact .of_step (ih _ _ (hidle ▸ hroom))
  | unsubscribe line subscription next ih =>
    have hidle := (Course.unsubscribed d line subscription).idle
    exact .of_step (ih _ _ (hidle ▸ hroom))
  | inspect line kind next ih => exact .of_step (ih _ _ hroom)
  | publish line signal ambient next ih =>
    have hidle := (course_publishAt view line signal { d with ambient } depth hroom).idle
    refine .of_step ((hpublish line signal { d with ambient } _ hroom).trans (.of_step ?_))
    exact ih _ _ _ (hidle ▸ hroom)

/-- A pass comes to its end. -/
theorem reaches_deliver (line : Line) (signal : Signal) (subscribers : List (Subscriber σ))
    (failures : List ListenerFailure) (callers : List (Caller σ)) (d : Delivery σ)
    (hroom : d.switchboard.idle ≤ depth) :
    Reaches view ⟨.resume ⟨line, signal, subscribers, failures⟩, callers, d⟩
      ⟨.resume ⟨line, signal, [],
          failures ++ (deliver (publishAt view depth) view signal subscribers d).1⟩, callers,
        (deliver (publishAt view depth) view signal subscribers d).2⟩ := by
  induction subscribers generalizing failures d with
  | nil => exact ⟨0, by simp [after, deliver]⟩
  | cons s rest ih =>
    have hone := reaches_run hpublish (s.listener signal view d.ambient)
      ⟨line, signal, rest, failures⟩ s callers d hroom
    have hidle := (Program.course_run (fun l s d => course_publishAt view l s d depth)
      (s.listener signal view d.ambient) d hroom).idle
    simp only [deliver]
    generalize (s.listener signal view d.ambient).run (publishAt view depth) d = answer
      at hone hidle ⊢
    obtain ⟨result, d'⟩ := answer
    have hrest := ih (failures ++ (failureOf s.subscription signal result).toList) d'
      (hidle ▸ hroom)
    refine .of_step (hone.trans ?_)
    cases result with
    | ok _ => simpa [Round.answered, failureOf] using hrest
    | error error => simpa [Round.answered, failureOf] using hrest

end Acting

/-- Publishing a signal comes to the end that `publishAt` gives, as long as every idle channel has
room for a pass. -/
theorem reaches_publishAt (depth : Nat) (line : Line) (signal : Signal) (d : Delivery σ)
    (callers : List (Caller σ)) (hroom : d.switchboard.idle ≤ depth) :
    Reaches view ⟨.publish line signal, callers, d⟩
      ⟨.reply (publishAt view depth line signal d).1, callers,
        (publishAt view depth line signal d).2⟩ := by
  induction depth generalizing line signal d callers with
  | zero =>
    have hon := d.switchboard.dispatching_of_idle line signal.kind (Nat.le_zero.mp hroom)
    exact ⟨1, by simp [after, step, hon, publishAt]⟩
  | succ depth ih =>
    cases hbusy : (d.switchboard.channel line signal.kind).dispatching with
    | true =>
      rw [publishAt_of_dispatching view line signal d _ hbusy]
      exact ⟨1, by simp [after, step, hbusy]⟩
    | false =>
      have hstarted := d.idle_started hbusy
      have hpass := reaches_deliver ih line signal
        (d.switchboard.channel line signal.kind).subscribers [] callers (d.started line signal)
        (by omega)
      rw [publishAt_of_idle view line signal d hbusy]
      refine .of_step ?_
      simp only [step, hbusy, Bool.false_eq_true, ↓reduceIte]
      exact hpass.trans ⟨1, by simp [after, step]⟩

end Execution

/-! ## Passes on the stack -/

/-- The pass that is at work, if one is. -/
def Task.rounds : Task σ → List (Round σ)
  | .publish .. | .reply _ => []
  | .resume r | .act r .. => [r]

/-- The listener that is at work, if one is, with its pass. -/
def Task.running : Task σ → List (Round σ × Subscriber σ)
  | .act r s _ => [(r, s)]
  | _ => []

namespace Execution

/-- The passes that are under way, innermost first. -/
def rounds (x : Execution σ) : List (Round σ) := x.task.rounds ++ x.callers.map Caller.round

/-- The channels that they run over. -/
def places (x : Execution σ) : List (Line × Kind) := x.rounds.map Round.place

/-- Everybody who was invoked and has not answered yet, innermost first, with the pass. -/
def running (x : Execution σ) : List (Round σ × Subscriber σ) :=
  x.task.running ++ x.callers.map fun c => (c.round, c.subscriber)

/-- The listeners that are running, each told apart by its line and its subscription. -/
def listeners (x : Execution σ) : List (Line × Subscription) :=
  x.running.map fun y => (y.1.line, y.2.subscription)

end Execution

/-- Everybody is listed under the kind of the subscription. -/
def Switchboard.Filed (s : Switchboard σ) : Prop :=
  ∀ line kind, ∀ x ∈ (s.channel line kind).subscribers, x.subscription.kind = kind

namespace Switchboard

variable {s : Switchboard σ}

theorem Filed.of_subset {t : Switchboard σ} (h : s.Filed)
    (hsub : ∀ line kind, (t.channel line kind).subscribers ⊆ (s.channel line kind).subscribers) :
    t.Filed :=
  fun line kind x hx => h line kind x (hsub line kind hx)

theorem Filed.subscribe (h : s.Filed) (line : Line) (kind : Kind) (listener : Listener σ) :
    (s.subscribe line kind listener).2.Filed := by
  intro l k x hx
  rw [channel_subscribe] at hx
  split at hx
  · rename_i hl
    rcases List.mem_append.mp hx with hx | hx
    · exact hl.2 ▸ h line kind x hx
    · rw [List.mem_singleton.mp hx, hl.2]
      rfl
  · exact h l k x hx

theorem Filed.unsubscribe (h : s.Filed) (line : Line) (sub : Subscription) :
    (s.unsubscribe line sub).2.Filed := by
  refine h.of_subset fun l k => ?_
  rw [channel_unsubscribe]
  split
  · rename_i hl
    rw [hl.1, hl.2]
    unfold Channel.remove
    split
    · exact List.Subset.refl _
    · split
      · exact List.Subset.refl _
      · exact List.filter_subset_self _
  · exact List.Subset.refl _

theorem Filed.started {d : Delivery σ} (h : d.switchboard.Filed) (line : Line)
    (signal : Signal) : (d.started line signal).switchboard.Filed := by
  refine h.of_subset fun l k => ?_
  rw [Delivery.channel_started]
  split
  · rename_i hl
    rw [hl.1, hl.2]
    exact List.Subset.refl _
  · exact List.Subset.refl _

theorem Filed.finished {d : Delivery σ} (h : d.switchboard.Filed) (line : Line)
    (signal : Signal) : (d.finished line signal).switchboard.Filed := by
  refine h.of_subset fun l k => ?_
  rw [Delivery.channel_finished]
  split
  · rename_i hl
    rw [hl.1, hl.2]
    exact List.filter_subset_self _
  · exact List.Subset.refl _

/-- However listeners came to be subscribed, they are listed under their kind. -/
theorem filed_afterTurns (ts : List (Turn σ)) :
    (({} : Switchboard σ).afterTurns ts).Filed := by
  intro line kind x hx
  have hkept := (Kept.start line kind).steps (({} : Switchboard σ).steps_moments ts)
  rw [hkept.listed] at hx
  obtain ⟨e, -, he⟩ := List.mem_filterMap.mp (List.mem_filter.mp hx).1
  cases e with
  | subscribed l s =>
    obtain ⟨hl, heq⟩ := Option.ite_none_right_eq_some.mp he
    rw [← Option.some.inj heq]
    exact hl.2
  | _ => cases he

end Switchboard

namespace Execution

/-- The stack and the channels agree. -/
structure Nested (x : Execution σ) : Prop where
  /-- A channel is marked as dispatching exactly if a pass over it is under way, -/
  busy : ∀ line kind, (x.state.switchboard.channel line kind).dispatching = true ↔
    (line, kind) ∈ x.places
  /-- and then one is. -/
  once : x.places.Nodup
  /-- Everybody is listed under the kind of the subscription, -/
  filed : x.state.switchboard.Filed
  /-- and whoever is still to be invoked, or is running, is so for a signal of that kind. -/
  coming : ∀ r ∈ x.rounds, ∀ s ∈ r.rest, s.subscription.kind = r.signal.kind
  present : ∀ y ∈ x.running, y.2.subscription.kind = y.1.signal.kind

namespace Nested

variable {view : View} {x : Execution σ}

/-- Publishing from outside, where no pass is under way. -/
theorem start {d : Delivery σ} (hidle : ∀ line kind, (d.switchboard.channel line kind).dispatching =
    false) (hfiled : d.switchboard.Filed) (line : Line) (signal : Signal) :
    (Execution.start line signal d).Nested where
  busy l k := by simp [Execution.start, hidle, places, rounds, Task.rounds]
  once := List.nodup_nil
  filed := hfiled
  coming := by simp [Execution.start, rounds, Task.rounds]
  present := by simp [Execution.start, running, Task.running]

/-- What leaves the passes and their listeners as they are. -/
theorem of_same {y : Execution σ} (h : x.Nested) (hrounds : y.rounds = x.rounds)
    (hrunning : y.running = x.running)
    (hbusy : ∀ line kind, (y.state.switchboard.channel line kind).dispatching =
      (x.state.switchboard.channel line kind).dispatching)
    (hfiled : y.state.switchboard.Filed) : y.Nested where
  busy line kind := by rw [hbusy, h.busy, places, places, hrounds]
  once := by rw [places, hrounds]; exact h.once
  filed := hfiled
  coming := by rw [hrounds]; exact h.coming
  present := by rw [hrunning]; exact h.present

/-- A signal is refused, or a pass begins. -/
theorem publish {line : Line} {signal : Signal} {callers : List (Caller σ)} {d : Delivery σ}
    (h : Nested ⟨.publish line signal, callers, d⟩) :
    (step view ⟨.publish line signal, callers, d⟩).Nested := by
  cases hbusy : (d.switchboard.channel line signal.kind).dispatching with
  | true =>
    simp only [step, hbusy, ↓reduceIte]
    exact h.of_same rfl rfl (fun _ _ => rfl) h.filed
  | false =>
    simp only [step, hbusy, Bool.false_eq_true, ↓reduceIte]
    have hnew : (line, signal.kind) ∉ places ⟨.publish line signal, callers, d⟩ := by
      rw [← h.busy, hbusy]
      exact Bool.false_ne_true
    refine ⟨fun l k => ?_, List.nodup_cons.mpr ⟨hnew, h.once⟩, h.filed.started line signal,
      fun r hr => ?_, h.present⟩
    · rw [Delivery.channel_started]
      show _ ↔ (l, k) ∈ (line, signal.kind) :: places ⟨.publish line signal, callers, d⟩
      rw [List.mem_cons, ← h.busy, Prod.mk.injEq]
      split
      · rename_i hl
        exact iff_of_true rfl (.inl hl)
      · rename_i hl
        exact (or_iff_right hl).symm
    · rcases List.mem_cons.mp hr with rfl | hr
      · exact h.filed line signal.kind
      · exact h.coming r hr

/-- A pass ends. -/
theorem finish {line : Line} {signal : Signal} {failures : List ListenerFailure}
    {callers : List (Caller σ)} {d : Delivery σ}
    (h : Nested ⟨.resume ⟨line, signal, [], failures⟩, callers, d⟩) :
    (step view ⟨.resume ⟨line, signal, [], failures⟩, callers, d⟩).Nested := by
  obtain ⟨hold, honce⟩ := List.nodup_cons.mp h.once
  refine ⟨fun l k => ?_, honce, h.filed.finished line signal,
    fun r hr => h.coming r (List.mem_cons_of_mem _ hr), h.present⟩
  have hbusy := h.busy l k
  rw [show places ⟨.resume ⟨line, signal, [], failures⟩, callers, d⟩ =
    (line, signal.kind) :: (callers.map Caller.round).map Round.place from rfl, List.mem_cons,
    Prod.mk.injEq] at hbusy
  show ((d.finished line signal).switchboard.channel l k).dispatching = true ↔
    (l, k) ∈ (callers.map Caller.round).map Round.place
  rw [Delivery.channel_finished]
  split
  · rename_i hl
    rw [hl.1, hl.2]
    exact iff_of_false Bool.false_ne_true hold
  · rename_i hl
    exact hbusy.trans (or_iff_right hl)

/-- A pass invokes the next of its listeners. -/
theorem invoke {line : Line} {signal : Signal} {s : Subscriber σ} {rest : List (Subscriber σ)}
    {failures : List ListenerFailure} {callers : List (Caller σ)} {d : Delivery σ}
    (h : Nested ⟨.resume ⟨line, signal, s :: rest, failures⟩, callers, d⟩) :
    (step view ⟨.resume ⟨line, signal, s :: rest, failures⟩, callers, d⟩).Nested := by
  have hcoming := h.coming ⟨line, signal, s :: rest, failures⟩ List.mem_cons_self
  refine ⟨h.busy, h.once, h.filed, fun r hr => ?_, fun y hy => ?_⟩
  · rcases List.mem_cons.mp hr with rfl | hr
    · exact fun t ht => hcoming t (List.mem_cons_of_mem _ ht)
    · exact h.coming r (List.mem_cons_of_mem _ hr)
  · rcases List.mem_cons.mp hy with rfl | hy
    · exact hcoming s List.mem_cons_self
    · exact h.present y hy

/-- A listener answers. -/
theorem answer {r : Round σ} {s : Subscriber σ} {result : Except ListenerError Unit}
    {ambient : σ} {callers : List (Caller σ)} {d : Delivery σ}
    (h : Nested ⟨.act r s (.done result ambient), callers, d⟩) :
    (step view ⟨.act r s (.done result ambient), callers, d⟩).Nested := by
  refine ⟨h.busy, h.once, h.filed, fun r' hr => ?_,
    fun y hy => h.present y (List.mem_cons_of_mem _ hy)⟩
  rcases List.mem_cons.mp hr with rfl | hr
  · exact h.coming r List.mem_cons_self
  · exact h.coming r' (List.mem_cons_of_mem _ hr)

/-- Stack and channels go on to agree. -/
theorem step (h : x.Nested) : (x.step view).Nested := by
  obtain ⟨task, callers, d⟩ := x
  cases task with
  | publish line signal => exact h.publish
  | resume r =>
    obtain ⟨line, signal, rest, failures⟩ := r
    cases rest with
    | nil => exact h.finish
    | cons s rest => exact h.invoke
  | reply reply =>
    cases callers with
    | nil => exact h
    | cons caller callers => exact h.of_same rfl rfl (fun _ _ => rfl) h.filed
  | act r s program =>
    cases program with
    | done result ambient => exact h.answer
    | enqueue mutation next => exact h.of_same rfl rfl (fun _ _ => rfl) h.filed
    | inspect line kind next => exact h.of_same rfl rfl (fun _ _ => rfl) h.filed
    | publish line signal ambient next => exact h.of_same rfl rfl (fun _ _ => rfl) h.filed
    | subscribe line kind listener next =>
      refine h.of_same rfl rfl (fun l k => ?_) (h.filed.subscribe line kind listener)
      exact d.switchboard.dispatching_subscribe line l kind k listener
    | unsubscribe line sub next =>
      refine h.of_same rfl rfl (fun l k => ?_) (h.filed.unsubscribe line sub)
      exact d.switchboard.dispatching_unsubscribe line l k sub

theorem after (h : x.Nested) (n : Nat) : (x.after view n).Nested := by
  induction n with
  | zero => exact h
  | succ n ih =>
    rw [Execution.after, Function.iterate_succ_apply']
    exact ih.step

/-- The listeners that are running are those of different passes. -/
theorem nodup_listeners (h : x.Nested) : x.listeners.Nodup := by
  have hplaces : (x.running.map fun y => y.1.place).Nodup := by
    refine h.once.sublist ?_
    obtain ⟨task, callers, d⟩ := x
    cases task <;> simp [running, places, rounds, Task.running, Task.rounds, Function.comp_def]
  have hkinds : x.listeners.map (fun l => (l.1, l.2.kind)) = x.running.map fun y => y.1.place := by
    rw [listeners, List.map_map]
    refine List.map_congr_left fun y hy => ?_
    exact congrArg (Prod.mk _) (h.present y hy)
  rw [← hkinds] at hplaces
  exact hplaces.of_map _

/-- Over the channels of a line there are at most as many passes as there are kinds. -/
theorem countP_le (h : x.Nested) (line : Line) :
    (x.rounds.countP fun r => r.line = line) ≤ Kind.all.length := by
  have hkinds : ((x.rounds.filter fun r => r.line = line).map fun r => r.signal.kind).Nodup := by
    have hplaces := h.once.sublist
      ((List.filter_sublist (l := x.rounds) (p := fun r => r.line = line)).map Round.place)
    refine List.pairwise_map.mpr ((List.pairwise_map.mp hplaces).imp_of_mem ?_)
    intro a b ha hb hne hkind
    have hline := (of_decide_eq_true (List.mem_filter.mp ha).2).trans
      (of_decide_eq_true (List.mem_filter.mp hb).2).symm
    exact hne (Prod.ext hline hkind)
  have hle := (hkinds.subperm fun k _ => k.mem_all).length_le
  rwa [List.length_map, ← List.countP_eq_length_filter] at hle

end Nested

/-- How passes and listeners are nested. -/
structure Nests (view : View) (x : Execution σ) : Prop where
  /-- No two passes under way are over the same channel, -/
  apart : x.places.Nodup
  /-- so there is at most one for each of the four kinds of a line, -/
  depth : ∀ line, (x.rounds.countP fun r => r.line = line) ≤ 4
  /-- and those are the channels on which publishing is refused. -/
  busy : ∀ line kind, (x.state.switchboard.channel line kind).dispatching = true ↔
    (line, kind) ∈ x.places
  /-- No listener is running twice, -/
  once : x.listeners.Nodup
  /-- and nobody is invoked who is running. -/
  free : ∀ line signal s rest failures, x.task = .resume ⟨line, signal, s :: rest, failures⟩ →
    (line, s.subscription) ∉ x.listeners

theorem Nested.nests {view : View} {x : Execution σ} (h : x.Nested) : x.Nests view where
  apart := h.once
  depth := h.countP_le
  busy := h.busy
  once := h.nodup_listeners
  free line signal s rest failures htask := by
    obtain ⟨task, callers, d⟩ := x
    obtain rfl : task = _ := htask
    have hnext : (Execution.step view ⟨_, callers, d⟩).Nested := h.step
    exact (List.nodup_cons.mp hnext.nodup_listeners).1

end Execution

/-- However listeners came to be subscribed, a signal that is published from outside is delivered
in finitely many steps, with the answer and the state that `publish` gives. At every moment until
then passes are nested at most four deep on a line, one for each kind, and no listener is invoked
while it is running. -/
theorem Switchboard.nests_publish (ts : List (Turn σ)) (t : Turn σ) (line : Line)
    (signal : Signal) :
    let d := t.delivery (({} : Switchboard σ).afterTurns ts)
    let x := Execution.start line signal d
    (∃ n, x.after t.view n = .ended (publish t.view line signal d)) ∧
      ∀ n, (x.after t.view n).Nests t.view := by
  intro d x
  have hidle : ∀ l k, (d.switchboard.channel l k).dispatching = false := by
    intro l k
    refine (({} : Switchboard σ).dispatching_afterTurns ts l k).trans ?_
    cases l <;> cases k <;> rfl
  refine ⟨Execution.reaches_publishAt maxNesting line signal d [] d.switchboard.idle_le, ?_⟩
  exact fun n => ((Execution.Nested.start hidle (filed_afterTurns ts) line signal).after n).nests

end Tether
