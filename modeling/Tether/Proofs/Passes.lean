import Tether.Signal.Delivery

/-!
# What happens during delivery

Delivery is followed moment by moment : `publishMoments` lists what happens while a signal is
delivered, each event with the switchboard as it is afterwards, down through the programs of the
listeners and the signals that they publish themselves.

A `Course` says in general what can happen. A listener acts as it likes : it submits, subscribes,
unsubscribes and publishes. What it publishes is refused if a pass over the same channel is under
way, and starts a pass over the subscribers of its channel otherwise. Everything that is done
follows such a course (`course_publishAt`), and nothing else is done to the queue than to submit
(`Course.takes`). The limit on nesting has no part in this : as long as
there is room for one pass over every channel that is idle, it is only reached where a pass is
under way anyhow.

While a pass is under way nothing else happens on its channel (`Course.quiet`), so whom the pass
invokes, and who fails, can be read off the whole of what happens until it ends
(`Course.isPass`).
-/

namespace Tether

variable {σ : Type}

/-! ## Moments -/

/-- What can happen while signals are delivered. -/
inductive Event (σ : Type)
  | submitted (p : Pending)
  | subscribed (line : Line) (s : Subscriber σ)
  /-- Somebody unsubscribed; the flag is the answer. -/
  | unsubscribed (line : Line) (s : Subscription) (was : Bool)
  | refused (line : Line) (signal : Signal) (error : Error)
  | began (line : Line) (signal : Signal)
  | invoked (line : Line) (s : Subscriber σ) (signal : Signal)
  | answered (line : Line) (s : Subscription) (signal : Signal)
      (result : Except ListenerError Unit)
  | ended (line : Line) (signal : Signal) (failures : List ListenerFailure)

/-- The failure of a listener, if it failed. -/
def failureOf (s : Subscription) (signal : Signal) :
    Except ListenerError Unit → Option ListenerFailure
  | .ok _ => none
  | .error error => some ⟨s, signal.kind, signal.handle, error⟩

namespace Event

/-- Whether a pass over a channel begins or ends. -/
def bounds (line : Line) (kind : Kind) : Event σ → Bool
  | .began l s | .ended l s _ => l = line ∧ s.kind = kind
  | _ => false

/-- Whether an event belongs to a pass over a channel. -/
def isOn (line : Line) (kind : Kind) : Event σ → Bool
  | .began l s | .ended l s _ | .invoked l _ s | .answered l _ s _ => l = line ∧ s.kind = kind
  | _ => false

/-- What is submitted. -/
def pending? : Event σ → Option Pending
  | .submitted p => some p
  | _ => none

/-- Whom a pass over a channel invokes, with the signal. -/
def invocation? (line : Line) (kind : Kind) : Event σ → Option (Subscriber σ × Signal)
  | .invoked l s signal => if l = line ∧ signal.kind = kind then some (s, signal) else none
  | _ => none

/-- The failure that a listener answers a pass over a channel with. -/
def failure? (line : Line) (kind : Kind) : Event σ → Option ListenerFailure
  | .answered l s signal result =>
    if l = line ∧ signal.kind = kind then failureOf s signal result else none
  | _ => none

end Event

/-- An event, and the listeners as they are after it. -/
structure Moment (σ : Type) where
  event : Event σ
  switchboard : Switchboard σ

/-- The events, and nothing else. -/
def events (ms : List (Moment σ)) : List (Event σ) := ms.map Moment.event

@[simp] theorem events_nil : events ([] : List (Moment σ)) = [] := rfl

@[simp] theorem events_cons (m : Moment σ) (ms : List (Moment σ)) :
    events (m :: ms) = m.event :: events ms := rfl

@[simp] theorem events_append (ms ms' : List (Moment σ)) :
    events (ms ++ ms') = events ms ++ events ms' :=
  List.map_append

/-- What is submitted, in order. -/
def submissions (ms : List (Moment σ)) : List Pending := (events ms).filterMap Event.pending?

theorem submissions_nil : submissions ([] : List (Moment σ)) = [] := rfl

theorem submissions_append (ms ms' : List (Moment σ)) :
    submissions (ms ++ ms') = submissions ms ++ submissions ms' := by
  rw [submissions, events_append, List.filterMap_append]
  rfl

theorem submissions_cons_of_none {m : Moment σ} {ms : List (Moment σ)}
    (h : m.event.pending? = none) : submissions (m :: ms) = submissions ms := by
  rw [submissions, events_cons, List.filterMap_cons_none h]
  rfl

/-- Submit mutations one after another. -/
def MutationQueue.submitAll (q : MutationQueue) (ps : List Pending) : MutationQueue :=
  ps.foldl (fun q p => (q.enqueue p.mutation).2) q

/-- A queue takes in mutations : nothing else is done to it, and they wait behind what waited
before, under the numbers that they were submitted with. -/
structure MutationQueue.Takes (q : MutationQueue) (ps : List Pending) (q' : MutationQueue) :
    Prop where
  queue : q' = q.submitAll ps
  pending : q'.pending.toList = q.pending.toList ++ ps

namespace MutationQueue.Takes

variable {q q' q'' : MutationQueue} {ps ps' : List Pending}

theorem nil (q : MutationQueue) : q.Takes [] q := ⟨rfl, (List.append_nil _).symm⟩

theorem enqueue (q : MutationQueue) (mutation : Mutation) :
    q.Takes [⟨(q.enqueue mutation).1, mutation⟩] (q.enqueue mutation).2 :=
  ⟨rfl, Array.toList_push⟩

theorem append (h : q.Takes ps q') (h' : q'.Takes ps' q'') : q.Takes (ps ++ ps') q'' := by
  constructor
  · rw [h'.queue, h.queue, submitAll, submitAll, submitAll, List.foldl_append]
  · rw [h'.pending, h.pending, List.append_assoc]

end MutationQueue.Takes

/-- What happens while the actions of a listener are run, where `during` lists what happens while
a signal is delivered. -/
def Program.moments (publish : Line → Signal → Delivery σ → Reply × Delivery σ)
    (during : Line → Signal → Delivery σ → List (Moment σ)) :
    Program σ → Delivery σ → List (Moment σ)
  | .done _ _, _ => []
  | .enqueue mutation next, d =>
    let (sequence, queue) := d.queue.enqueue mutation
    ⟨.submitted ⟨sequence, mutation⟩, d.switchboard⟩ ::
      (next sequence).moments publish during { d with queue }
  | .subscribe line kind listener next, d =>
    let (subscription, switchboard) := d.switchboard.subscribe line kind listener
    ⟨.subscribed line ⟨subscription, listener⟩, switchboard⟩ ::
      (next subscription).moments publish during { d with switchboard }
  | .unsubscribe line subscription next, d =>
    let (was, switchboard) := d.switchboard.unsubscribe line subscription
    ⟨.unsubscribed line subscription was, switchboard⟩ ::
      (next was).moments publish during { d with switchboard }
  | .inspect line kind next, d => (next (d.switchboard.status line kind)).moments publish during d
  | .publish line signal ambient next, d =>
    let (reply, d') := publish line signal { d with ambient }
    during line signal { d with ambient } ++ (next reply d'.ambient).moments publish during d'

/-- What happens while subscribers are invoked one after another. -/
def deliverMoments (publish : Line → Signal → Delivery σ → Reply × Delivery σ)
    (during : Line → Signal → Delivery σ → List (Moment σ)) (view : View) (line : Line)
    (signal : Signal) : List (Subscriber σ) → Delivery σ → List (Moment σ)
  | [], _ => []
  | s :: rest, d =>
    let program := s.listener signal view d.ambient
    let (result, d') := program.run publish d
    ⟨.invoked line s signal, d.switchboard⟩ :: (program.moments publish during d ++
      ⟨.answered line s.subscription signal result, d'.switchboard⟩ ::
        deliverMoments publish during view line signal rest d')

/-- The state in which a pass begins to invoke its listeners. -/
def Delivery.started (d : Delivery σ) (line : Line) (signal : Signal) : Delivery σ :=
  { d.updateChannel line signal.kind Channel.start with
    journal := d.journal.note (.publishing signal.kind
      (d.switchboard.channel line signal.kind).subscribers.length) }

/-- The state in which a pass has ended. -/
def Delivery.finished (d : Delivery σ) (line : Line) (signal : Signal) : Delivery σ :=
  d.updateChannel line signal.kind Channel.finish

/-- What happens while a signal is delivered, where so many passes may still be opened. -/
def publishMoments (view : View) : Nat → Line → Signal → Delivery σ → List (Moment σ)
  | 0, line, signal, d => [⟨.refused line signal (.reentrantPublish signal.kind), d.switchboard⟩]
  | depth + 1, line, signal, d =>
    match publishAt view (depth + 1) line signal d with
    | (.error error, d') => [⟨.refused line signal error, d'.switchboard⟩]
    | (.ok failures, d') =>
      ⟨.began line signal, (d.started line signal).switchboard⟩ ::
        (deliverMoments (publishAt view depth) (publishMoments view depth) view line signal
          (d.switchboard.channel line signal.kind).subscribers (d.started line signal) ++
          [⟨.ended line signal failures, d'.switchboard⟩])

/-! ## What an operation does to a channel -/

namespace Switchboard

variable (s : Switchboard σ) (line l : Line) (kind k : Kind)

theorem channel_subscribe (listener : Listener σ) :
    (s.subscribe line kind listener).2.channel l k =
      if l = line ∧ k = kind then
        (s.channel line kind).add ⟨(s.subscribe line kind listener).1, listener⟩
      else s.channel l k := by
  have hbus : (s.subscribe line kind listener).2.bus l =
      if l = line then ((s.bus line).subscribe kind listener).2 else s.bus l :=
    s.bus_setBus line l _
  have hkind : (((s.bus line).subscribe kind listener).2).channel k =
      ((s.bus line).setChannel kind (((s.bus line).channel kind).add
        ⟨(s.subscribe line kind listener).1, listener⟩)).channel k := by
    cases k <;> rfl
  rw [channel, hbus]
  by_cases hl : l = line
  · subst hl
    rw [if_pos rfl, hkind, Bus.channel_setChannel]
    simp [channel]
  · simp [hl, channel]

theorem nextNumber_subscribe (listener : Listener σ) :
    ((s.subscribe line kind listener).2.bus l).nextNumber =
      if l = line then (s.bus line).nextNumber + 1 else (s.bus l).nextNumber := by
  have hbus : (s.subscribe line kind listener).2.bus l =
      if l = line then ((s.bus line).subscribe kind listener).2 else s.bus l :=
    s.bus_setBus line l _
  rw [hbus]
  split <;> rfl

theorem channel_unsubscribe (sub : Subscription) :
    (s.unsubscribe line sub).2.channel l k =
      if l = line ∧ k = sub.kind then ((s.channel line sub.kind).remove sub).2
      else s.channel l k :=
  s.channel_setChannel line l sub.kind k ((s.channel line sub.kind).remove sub).2

theorem nextNumber_setChannel (c : Channel σ) :
    ((s.setChannel line kind c).bus l).nextNumber = (s.bus l).nextNumber := by
  rw [setChannel, bus_setBus]
  split
  · rename_i hl
    rw [hl, Bus.nextNumber_setChannel]
  · rfl

theorem dispatching_remove (c : Channel σ) (sub : Subscription) :
    (c.remove sub).2.dispatching = c.dispatching := by
  unfold Channel.remove
  split
  · rfl
  · split <;> rfl

/-- No pass begins or ends where somebody is subscribed, -/
theorem dispatching_subscribe (listener : Listener σ) :
    ((s.subscribe line kind listener).2.channel l k).dispatching =
      (s.channel l k).dispatching := by
  rw [channel_subscribe]
  split
  · rename_i h
    rw [h.1, h.2]
    rfl
  · rfl

/-- or unsubscribed. -/
theorem dispatching_unsubscribe (sub : Subscription) :
    ((s.unsubscribe line sub).2.channel l k).dispatching = (s.channel l k).dispatching := by
  rw [channel_unsubscribe]
  split
  · rename_i h
    rw [h.1, h.2, dispatching_remove]
  · rfl

/-- The channels of all lines. -/
def channels : List (Line × Kind) := [.lifecycle, .relay].flatMap fun line => Kind.all.map (line, ·)

theorem mem_channels (line : Line) (kind : Kind) : (line, kind) ∈ channels := by
  cases line <;> cases kind <;> decide

/-- Over how many channels no pass is under way. -/
def idle : Nat := channels.countP fun x => !(s.channel x.1 x.2).dispatching

theorem idle_le : s.idle ≤ maxNesting := List.countP_le_length

theorem dispatching_of_idle (h : s.idle = 0) : (s.channel line kind).dispatching = true := by
  have hall := List.countP_eq_zero.mp h (line, kind) (mem_channels line kind)
  simpa using hall

theorem idle_congr {s t : Switchboard σ}
    (h : ∀ line kind, (t.channel line kind).dispatching = (s.channel line kind).dispatching) :
    t.idle = s.idle := by
  simp only [idle, h]

end Switchboard

namespace Delivery

variable (d : Delivery σ)

theorem channel_started (line l : Line) (signal : Signal) (k : Kind) :
    (d.started line signal).switchboard.channel l k =
      if l = line ∧ k = signal.kind then (d.switchboard.channel line signal.kind).start
      else d.switchboard.channel l k :=
  d.switchboard.channel_setChannel line l signal.kind k _

theorem dispatching_started (line : Line) (signal : Signal) :
    ((d.started line signal).switchboard.channel line signal.kind).dispatching = true := by
  rw [channel_started, if_pos ⟨rfl, rfl⟩]
  rfl

theorem channel_finished (line l : Line) (signal : Signal) (k : Kind) :
    (d.finished line signal).switchboard.channel l k =
      if l = line ∧ k = signal.kind then (d.switchboard.channel line signal.kind).finish
      else d.switchboard.channel l k :=
  d.switchboard.channel_setChannel line l signal.kind k _

/-- A pass takes up the room of its channel. -/
theorem idle_started {line : Line} {signal : Signal}
    (h : (d.switchboard.channel line signal.kind).dispatching = false) :
    (d.started line signal).switchboard.idle + 1 = d.switchboard.idle := by
  have hother : ∀ x ∈ Switchboard.channels.erase (line, signal.kind),
      (!((d.started line signal).switchboard.channel x.1 x.2).dispatching) =
        !(d.switchboard.channel x.1 x.2).dispatching := by
    intro x hx
    have hne : x ≠ (line, signal.kind) := by
      rintro rfl
      exact (List.Nodup.not_mem_erase (by decide)) hx
    rw [channel_started, if_neg fun hxl => hne (Prod.ext hxl.1 hxl.2)]
  have hperm := List.perm_cons_erase (Switchboard.mem_channels line signal.kind)
  rw [Switchboard.idle, Switchboard.idle, hperm.countP_eq, hperm.countP_eq, List.countP_cons,
    List.countP_cons]
  simp only [channel_started, and_self, ↓reduceIte, h, Channel.start, Bool.not_true,
    Bool.false_eq_true, Bool.not_false]
  rw [List.countP_congr (q := fun x => !(d.switchboard.channel x.1 x.2).dispatching)
    fun x hx => by rw [← hother x hx, channel_started]; rfl]

end Delivery

/-! ## The course of things -/

/-- What is under way : somebody acts as it likes, or a signal is delivered to subscribers, who
answer with failures. -/
inductive Activity (σ : Type)
  | acting
  | delivering (line : Line) (signal : Signal) (subscribers : List (Subscriber σ))
      (failures : List ListenerFailure)

/-- Whether an activity delivers on a channel. -/
def Activity.isOn (line : Line) (kind : Kind) : Activity σ → Prop
  | .acting => False
  | .delivering l signal _ _ => l = line ∧ signal.kind = kind

/-- What can happen from one state to another. -/
inductive Course : Activity σ → Delivery σ → List (Moment σ) → Delivery σ → Prop
  /-- Whatever is written down, or done to the surroundings. -/
  | still {d d' : Delivery σ} (hs : d'.switchboard = d.switchboard) (hq : d'.queue = d.queue) :
    Course .acting d [] d'
  | append {d d' d'' : Delivery σ} {ms ms' : List (Moment σ)} (h : Course .acting d ms d')
    (h' : Course .acting d' ms' d'') : Course .acting d (ms ++ ms') d''
  | submitted (d : Delivery σ) (mutation : Mutation) :
    Course .acting d [⟨.submitted ⟨(d.queue.enqueue mutation).1, mutation⟩, d.switchboard⟩]
      { d with queue := (d.queue.enqueue mutation).2 }
  | subscribed (d : Delivery σ) (line : Line) (kind : Kind) (listener : Listener σ) :
    Course .acting d
      [⟨.subscribed line ⟨(d.switchboard.subscribe line kind listener).1, listener⟩,
        (d.switchboard.subscribe line kind listener).2⟩]
      { d with switchboard := (d.switchboard.subscribe line kind listener).2 }
  | unsubscribed (d : Delivery σ) (line : Line) (s : Subscription) :
    Course .acting d
      [⟨.unsubscribed line s (d.switchboard.unsubscribe line s).1,
        (d.switchboard.unsubscribe line s).2⟩]
      { d with switchboard := (d.switchboard.unsubscribe line s).2 }
  | refused (d : Delivery σ) (line : Line) (signal : Signal)
    (hon : (d.switchboard.channel line signal.kind).dispatching = true) :
    Course .acting d
      [⟨.refused line signal (.reentrantPublish signal.kind), d.switchboard⟩] d
  | passed {d d' : Delivery σ} {line : Line} {signal : Signal} {failures : List ListenerFailure}
    {ms : List (Moment σ)} (hoff : (d.switchboard.channel line signal.kind).dispatching = false)
    (h : Course (.delivering line signal (d.switchboard.channel line signal.kind).subscribers
      failures) (d.started line signal) ms d') :
    Course .acting d
      (⟨.began line signal, (d.started line signal).switchboard⟩ ::
        (ms ++ [⟨.ended line signal failures, (d'.finished line signal).switchboard⟩]))
      (d'.finished line signal)
  | nobody (d : Delivery σ) (line : Line) (signal : Signal) :
    Course (.delivering line signal [] []) d [] d
  | next {d d' d'' : Delivery σ} {line : Line} {signal : Signal} (s : Subscriber σ)
    {subscribers : List (Subscriber σ)} (result : Except ListenerError Unit)
    {failures : List ListenerFailure} {ms ms' : List (Moment σ)} (h : Course .acting d ms d')
    (h' : Course (.delivering line signal subscribers failures) d' ms' d'') :
    Course (.delivering line signal (s :: subscribers)
        ((failureOf s.subscription signal result).toList ++ failures)) d
      (⟨.invoked line s signal, d.switchboard⟩ ::
        (ms ++ ⟨.answered line s.subscription signal result, d'.switchboard⟩ :: ms')) d''

namespace Course

variable {a : Activity σ} {d d' : Delivery σ} {ms : List (Moment σ)}

/-- Every pass that begins ends as well : in the end passes are under way where they were. -/
theorem dispatching (h : Course a d ms d') (line : Line) (kind : Kind) :
    (d'.switchboard.channel line kind).dispatching =
      (d.switchboard.channel line kind).dispatching := by
  induction h with
  | still hs => rw [hs]
  | append _ _ ih ih' => rw [ih', ih]
  | submitted => rfl
  | subscribed => exact Switchboard.dispatching_subscribe ..
  | unsubscribed => exact Switchboard.dispatching_unsubscribe ..
  | refused => rfl
  | passed hoff _ ih =>
    rw [Delivery.channel_finished]
    split
    · rename_i hon
      rw [hon.1, hon.2, hoff]
      rfl
    · rename_i hon
      rw [ih, Delivery.channel_started, if_neg hon]
  | nobody => rfl
  | next _ _ _ _ ih ih' => rw [ih', ih]

theorem idle (h : Course a d ms d') : d'.switchboard.idle = d.switchboard.idle :=
  Switchboard.idle_congr h.dispatching

/-- The queue takes in what is submitted on the way. -/
theorem takes (h : Course a d ms d') : d.queue.Takes (submissions ms) d'.queue := by
  induction h with
  | still _ hq => exact hq ▸ .nil _
  | append _ _ ih ih' =>
    rw [submissions_append]
    exact ih.append ih'
  | submitted d mutation => exact .enqueue d.queue mutation
  | subscribed | unsubscribed | refused | nobody => exact .nil _
  | passed _ _ ih =>
    rw [submissions_cons_of_none rfl, submissions_append, submissions_cons_of_none rfl,
      submissions_nil, List.append_nil]
    exact ih
  | next _ _ _ _ ih ih' =>
    rw [submissions_cons_of_none rfl, submissions_append, submissions_cons_of_none rfl]
    exact ih.append ih'

/-- What happens after a single event. -/
theorem cons {d₁ : Delivery σ} {m : Moment σ} (h : Course .acting d [m] d₁)
    (h' : Course .acting d₁ ms d') : Course .acting d (m :: ms) d' :=
  append h h'

end Course

section Realization

variable {depth : Nat} {publish : Line → Signal → Delivery σ → Reply × Delivery σ}
  {during : Line → Signal → Delivery σ → List (Moment σ)}
  (hpublish : ∀ line signal (d : Delivery σ), d.switchboard.idle ≤ depth →
    Course .acting d (during line signal d) (publish line signal d).2)
include hpublish

/-- What a listener does follows such a course, if what it publishes does. -/
theorem Program.course_run (program : Program σ) (d : Delivery σ)
    (hroom : d.switchboard.idle ≤ depth) :
    Course .acting d (program.moments publish during d) (program.run publish d).2 := by
  induction program generalizing d with
  | done result ambient => exact .still rfl rfl
  | enqueue mutation next ih => exact .cons (.submitted d mutation) (ih _ _ hroom)
  | subscribe line kind listener next _ ih =>
    have hone := Course.subscribed d line kind listener
    exact hone.cons (ih _ _ (hone.idle ▸ hroom))
  | unsubscribe line subscription next ih =>
    have hone := Course.unsubscribed d line subscription
    exact hone.cons (ih _ _ (hone.idle ▸ hroom))
  | inspect line kind next ih => exact ih _ _ hroom
  | publish line signal ambient next ih =>
    have hstill : Course .acting d [] { d with ambient } := .still rfl rfl
    have hone := hstill.append (hpublish line signal { d with ambient } hroom)
    exact hone.append (ih _ _ _ (hone.idle ▸ hroom))

theorem course_deliver (view : View) (line : Line) (signal : Signal)
    (subscribers : List (Subscriber σ)) (d : Delivery σ)
    (hroom : d.switchboard.idle ≤ depth) :
    Course (.delivering line signal subscribers
        (deliver publish view signal subscribers d).1) d
      (deliverMoments publish during view line signal subscribers d)
      (deliver publish view signal subscribers d).2 := by
  induction subscribers generalizing d with
  | nil => exact .nobody d line signal
  | cons s rest ih =>
    have hone := Program.course_run hpublish (s.listener signal view d.ambient) d hroom
    have hrest := ih _ (hone.idle ▸ hroom)
    simp only [deliver, deliverMoments]
    generalize (s.listener signal view d.ambient).run publish d = x at hone hrest ⊢
    obtain ⟨result, d'⟩ := x
    cases result with
    | ok _ => exact .next s (.ok ()) hone hrest
    | error error => exact .next s (.error error) hone hrest

end Realization

section Publish

variable (view : View) (line : Line) (signal : Signal) (d : Delivery σ)

/-- Where a pass is under way, publishing is refused. -/
theorem publishAt_of_dispatching (depth : Nat)
    (hon : (d.switchboard.channel line signal.kind).dispatching = true) :
    publishAt view depth line signal d = (.error (.reentrantPublish signal.kind), d) := by
  cases depth with
  | zero => rfl
  | succ depth => rw [publishAt, if_pos hon]

/-- Elsewhere the subscribers of the channel are invoked. -/
theorem publishAt_of_idle {depth : Nat}
    (hoff : (d.switchboard.channel line signal.kind).dispatching = false) :
    publishAt view (depth + 1) line signal d =
      (.ok (deliver (publishAt view depth) view signal
          (d.switchboard.channel line signal.kind).subscribers (d.started line signal)).1,
        (deliver (publishAt view depth) view signal
          (d.switchboard.channel line signal.kind).subscribers
          (d.started line signal)).2.finished line signal) := by
  rw [publishAt, if_neg (by simp [hoff])]
  rfl

/-- What happens when a signal is delivered follows a course, as long as every idle channel has
room for a pass. -/
theorem course_publishAt (depth : Nat) (hroom : d.switchboard.idle ≤ depth) :
    Course .acting d (publishMoments view depth line signal d)
      (publishAt view depth line signal d).2 := by
  induction depth generalizing line signal d with
  | zero =>
    have hon := d.switchboard.dispatching_of_idle line signal.kind (Nat.le_zero.mp hroom)
    exact .refused d line signal hon
  | succ depth ih =>
    cases hbusy : (d.switchboard.channel line signal.kind).dispatching with
    | true =>
      simp only [publishMoments, publishAt_of_dispatching view line signal d _ hbusy]
      exact .refused d line signal hbusy
    | false =>
      simp only [publishMoments, publishAt_of_idle view line signal d hbusy]
      refine .passed hbusy (course_deliver ih view line signal _ _ ?_)
      have hstarted := d.idle_started hbusy
      omega

end Publish

/-! ## What a pass is -/

/-- What happens in a pass over a channel, between its beginning and its end. -/
structure IsPass (line : Line) (signal : Signal) (subscribers : List (Subscriber σ))
    (failures : List ListenerFailure) (es : List (Event σ)) : Prop where
  /-- No other pass over the channel begins or ends meanwhile. -/
  undivided : ∀ e ∈ es, e.bounds line signal.kind = false
  /-- Every subscriber is invoked once, in order, -/
  invocations : es.filterMap (Event.invocation? line signal.kind) = subscribers.map (·, signal)
  /-- and those that fail make up the answer, in order. -/
  failures : failures = es.filterMap (Event.failure? line signal.kind)

/-- Every pass that begins has an end, and what happens between is a pass over the subscribers
that the channel has when it begins. -/
def Bracketed : List (Moment σ) → Prop
  | [] => True
  | m :: after =>
    (∀ line signal, m.event = .began line signal → ∃ failures body final rest,
      after = body ++ ⟨.ended line signal failures, final⟩ :: rest ∧
        IsPass line signal (m.switchboard.channel line signal.kind).subscribers failures
          (events body)) ∧
    Bracketed after

namespace Bracketed

theorem append {ms ms' : List (Moment σ)} (h : Bracketed ms) (h' : Bracketed ms') :
    Bracketed (ms ++ ms') := by
  induction ms with
  | nil => exact h'
  | cons m ms ih =>
    refine ⟨fun line signal hm => ?_, ih h.2⟩
    obtain ⟨failures, body, final, rest, hsplit, hpass⟩ := h.1 line signal hm
    exact ⟨failures, body, final, rest ++ ms', by simp [hsplit], hpass⟩

/-- Moments at which no pass begins. -/
theorem cons {m : Moment σ} {ms : List (Moment σ)}
    (hm : ∀ line signal, m.event ≠ .began line signal) (h : Bracketed ms) :
    Bracketed (m :: ms) :=
  ⟨fun line signal hb => absurd hb (hm line signal), h⟩

theorem of_append_right {ms ms' : List (Moment σ)} (h : Bracketed (ms ++ ms')) :
    Bracketed ms' := by
  induction ms with
  | nil => exact h
  | cons _ _ ih => exact ih h.2

end Bracketed

section Quiet

variable {line : Line} {kind : Kind} {es : List (Event σ)}

theorem bounds_of_quiet {e : Event σ} (h : e.isOn line kind = false) :
    e.bounds line kind = false := by
  cases e <;> first | rfl | exact h

theorem filterMap_invocation?_of_quiet (h : ∀ e ∈ es, e.isOn line kind = false) :
    es.filterMap (Event.invocation? line kind) = [] := by
  refine List.filterMap_eq_nil_iff.mpr fun e he => ?_
  have hquiet := h e he
  cases e with
  | invoked => exact if_neg (of_decide_eq_false hquiet)
  | _ => rfl

theorem filterMap_failure?_of_quiet (h : ∀ e ∈ es, e.isOn line kind = false) :
    es.filterMap (Event.failure? line kind) = [] := by
  refine List.filterMap_eq_nil_iff.mpr fun e he => ?_
  have hquiet := h e he
  cases e with
  | answered => exact if_neg (of_decide_eq_false hquiet)
  | _ => rfl

end Quiet

namespace Course

variable {a : Activity σ} {d d' : Delivery σ} {ms : List (Moment σ)}

/-- While a pass over a channel is under way, nothing that happens belongs to another one. -/
theorem quiet (h : Course a d ms d') {line : Line} {kind : Kind} (ha : ¬ a.isOn line kind)
    (hon : (d.switchboard.channel line kind).dispatching = true) :
    ∀ e ∈ events ms, e.isOn line kind = false := by
  induction h with
  | still | nobody => simp
  | append h _ ih ih' =>
    simp only [events_append, List.mem_append]
    rintro e (he | he)
    · exact ih ha hon e he
    · exact ih' ha ((h.dispatching line kind).trans hon) e he
  | submitted | subscribed | unsubscribed | refused => simp [Event.isOn]
  | @passed d _ l signal _ _ hoff _ ih =>
    have hother : ¬ (l = line ∧ signal.kind = kind) := by
      rintro ⟨rfl, rfl⟩
      rw [hon] at hoff
      cases hoff
    have hstarted : ((d.started l signal).switchboard.channel line kind).dispatching = true := by
      rw [Delivery.channel_started, if_neg fun hx => hother ⟨hx.1.symm, hx.2.symm⟩, hon]
    have hends : ∀ {e : Event σ}, e = .began l signal ∨ (∃ failures, e = .ended l signal failures) →
        e.isOn line kind = false := by
      rintro e (rfl | ⟨_, rfl⟩) <;> exact decide_eq_false hother
    simp only [events_cons, events_append, List.mem_cons, List.mem_append, events_nil,
      List.not_mem_nil, or_false]
    rintro e (he | he | he)
    · exact hends (.inl he)
    · exact ih hother hstarted e he
    · exact hends (.inr ⟨_, he⟩)
  | next _ _ h _ ih ih' =>
    simp only [events_cons, events_append, List.mem_cons, List.mem_append]
    rintro e (rfl | he | rfl | he)
    · exact decide_eq_false ha
    · exact ih id hon e he
    · exact decide_eq_false ha
    · exact ih' ha ((h.dispatching line kind).trans hon) e he

/-- Between its beginning and its end, delivering a signal is a pass over the subscribers. -/
theorem isPass {line : Line} {signal : Signal} {subscribers : List (Subscriber σ)}
    {failures : List ListenerFailure}
    (h : Course (.delivering line signal subscribers failures) d ms d')
    (hon : (d.switchboard.channel line signal.kind).dispatching = true) :
    IsPass line signal subscribers failures (events ms) := by
  induction subscribers generalizing failures d ms with
  | nil =>
    cases h
    exact ⟨by simp, rfl, rfl⟩
  | cons s rest ih =>
    obtain _ | _ | _ | _ | _ | _ | _ | _ | ⟨_, result, hone, hrest⟩ := h
    rename_i d₁ failures ms₁ ms₂
    have hquiet : ∀ e ∈ events ms₁, e.isOn line signal.kind = false := hone.quiet id hon
    have hpass := ih hrest (by rw [hone.dispatching]; exact hon)
    refine ⟨?_, ?_, ?_⟩
    · simp only [events_cons, events_append, List.mem_cons, List.mem_append]
      rintro e (rfl | he | rfl | he)
      · rfl
      · exact bounds_of_quiet (hquiet e he)
      · rfl
      · exact hpass.undivided e he
    · have hinvoked : Event.invocation? line signal.kind (.invoked line s signal) =
          some (s, signal) := if_pos ⟨rfl, rfl⟩
      rw [events_cons, List.filterMap_cons_some hinvoked, events_append, List.filterMap_append,
        filterMap_invocation?_of_quiet hquiet, List.nil_append, events_cons,
        List.filterMap_cons_none rfl, hpass.invocations, List.map_cons]
    · have hanswered : Event.failure? line signal.kind
          (.answered line s.subscription signal result : Event σ) =
            failureOf s.subscription signal result := if_pos ⟨rfl, rfl⟩
      rw [events_cons, List.filterMap_cons_none rfl, events_append, List.filterMap_append,
        filterMap_failure?_of_quiet hquiet, List.nil_append, events_cons, List.filterMap_cons,
        hanswered, ← hpass.failures]
      cases failureOf s.subscription signal result <;> rfl

/-- Whatever happens is made up of whole passes. -/
theorem bracketed (h : Course a d ms d')
    (ha : ∀ line kind, a.isOn line kind → (d.switchboard.channel line kind).dispatching = true) :
    Bracketed ms := by
  induction h with
  | still | nobody => trivial
  | append h _ ih ih' => exact (ih ha).append (ih' fun _ _ => False.elim)
  | submitted | subscribed | unsubscribed | refused => exact .cons (by simp) trivial
  | @passed d _ line signal failures ms hoff h ih =>
    have hon := d.dispatching_started line signal
    refine ⟨fun l s hbegan => ?_, .append (ih ?_) (.cons (by simp) trivial)⟩
    · cases hbegan
      refine ⟨failures, ms, _, [], rfl, ?_⟩
      rw [Delivery.channel_started, if_pos ⟨rfl, rfl⟩]
      exact h.isPass hon
    · rintro _ _ ⟨rfl, rfl⟩
      exact hon
  | next _ _ h _ ih ih' =>
    refine .cons (by simp) (.append (ih fun _ _ => False.elim) (.cons (by simp) (ih' ?_)))
    intro line kind hline
    rw [h.dispatching]
    exact ha line kind hline

end Course

/-- Where no pass is under way, publishing is a pass over the subscribers of the channel, and
answers with its failures. -/
theorem publishAt_isPass (view : View) (line : Line) (signal : Signal) (d : Delivery σ)
    {depth : Nat} (hroom : d.switchboard.idle ≤ depth + 1)
    (hoff : (d.switchboard.channel line signal.kind).dispatching = false) :
    ∃ failures d' body, publishAt view (depth + 1) line signal d = (.ok failures, d') ∧
      publishMoments view (depth + 1) line signal d =
        ⟨.began line signal, (d.started line signal).switchboard⟩ ::
          (body ++ [⟨.ended line signal failures, d'.switchboard⟩]) ∧
      IsPass line signal (d.switchboard.channel line signal.kind).subscribers failures
        (events body) := by
  have hpublish : publishAt view (depth + 1) line signal d = _ :=
    publishAt_of_idle view line signal d hoff
  have hidle := d.idle_started hoff
  have hcourse := course_deliver (fun l s d => course_publishAt view l s d depth) view line signal
    (d.switchboard.channel line signal.kind).subscribers (d.started line signal) (by omega)
  refine ⟨_, _, _, hpublish, ?_, hcourse.isPass (d.dispatching_started line signal)⟩
  simp only [publishMoments, hpublish]

end Tether
