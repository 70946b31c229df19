import Mathlib.Data.List.Nodup
import Tether.Proofs.Passes

/-!
# Who is subscribed

Who listens to a channel can be told from what happened so far : everybody who subscribed
(`joined`) and was not unsubscribed since (`left`). The channel itself is one step behind. As long
as a pass over it is under way it still lists those who left during the pass (`leaving`), and
takes them out when the pass ends.

Every event is a `Switchboard.Step`, and every step keeps channel and history together
(`Kept.step`), so they agree throughout, however passes nest (`Kept.steps`). With what a pass is
(`Bracketed`) this gives the law of delivery, `Switchboard.orderly_turns` : over any run from an
empty switchboard, publishing is refused exactly where a pass over the channel is under way, and
elsewhere invokes exactly those who are subscribed when it begins.
-/

namespace Tether

variable {σ : Type}

/-! ## The history of a channel -/

namespace Event

/-- Who subscribes to a channel. -/
def joiner? (line : Line) (kind : Kind) : Event σ → Option (Subscriber σ)
  | .subscribed l s => if l = line ∧ s.subscription.kind = kind then some s else none
  | _ => none

/-- Who is taken off a channel. -/
def leaver? (line : Line) (kind : Kind) : Event σ → Option Subscription
  | .unsubscribed l s true => if l = line ∧ s.kind = kind then some s else none
  | _ => none

/-- What an event does to the pass over a channel, if one is under way, with those who left
during it. -/
def turnPass (line : Line) (kind : Kind) (pass : Option (List Subscription)) :
    Event σ → Option (List Subscription)
  | .began l s => if l = line ∧ s.kind = kind then some [] else pass
  | .ended l s _ => if l = line ∧ s.kind = kind then none else pass
  | e => pass.map (· ++ (e.leaver? line kind).toList)

end Event

section History

variable (line : Line) (kind : Kind) (es : List (Event σ))

/-- Everybody who subscribed to a channel, in order. -/
def joined : List (Subscriber σ) := es.filterMap (Event.joiner? line kind)

/-- Everybody who was taken off a channel, in order. -/
def left : List Subscription := es.filterMap (Event.leaver? line kind)

/-- The pass that is under way over a channel, as those who left during it. -/
def pass? : Option (List Subscription) := es.foldl (Event.turnPass line kind) none

/-- Whether a pass over a channel is under way. -/
def running : Bool := (pass? line kind es).isSome

/-- Those who left a channel during the pass that is under way. -/
def leaving : List Subscription := (pass? line kind es).getD []

/-- Who subscribed to a channel and did not leave, in order of subscription. -/
def members : List (Subscriber σ) :=
  (joined line kind es).filter fun s => s.subscription ∉ left line kind es

variable (e : Event σ)

@[simp] theorem joined_snoc :
    joined line kind (es ++ [e]) = joined line kind es ++ (e.joiner? line kind).toList := by
  rw [joined, List.filterMap_append]
  cases h : e.joiner? line kind <;> simp [joined, h]

@[simp] theorem left_snoc :
    left line kind (es ++ [e]) = left line kind es ++ (e.leaver? line kind).toList := by
  rw [left, List.filterMap_append]
  cases h : e.leaver? line kind <;> simp [left, h]

@[simp] theorem pass?_snoc :
    pass? line kind (es ++ [e]) = e.turnPass line kind (pass? line kind es) := by
  simp [pass?]

end History

/-! ## What an event does to the listeners -/

namespace Switchboard

/-- What an event does to the listeners. -/
inductive Step : Switchboard σ → Event σ → Switchboard σ → Prop
  | submitted (s : Switchboard σ) (p : Pending) : Step s (.submitted p) s
  | subscribed (s : Switchboard σ) (line : Line) (kind : Kind) (listener : Listener σ) :
    Step s (.subscribed line ⟨(s.subscribe line kind listener).1, listener⟩)
      (s.subscribe line kind listener).2
  | unsubscribed (s : Switchboard σ) (line : Line) (x : Subscription) :
    Step s (.unsubscribed line x (s.unsubscribe line x).1) (s.unsubscribe line x).2
  | refused {s : Switchboard σ} {line : Line} {signal : Signal}
    (hon : (s.channel line signal.kind).dispatching = true) :
    Step s (.refused line signal (.reentrantPublish signal.kind)) s
  | began {s : Switchboard σ} {line : Line} {signal : Signal}
    (hoff : (s.channel line signal.kind).dispatching = false) :
    Step s (.began line signal)
      (s.setChannel line signal.kind (s.channel line signal.kind).start)
  | invoked {s : Switchboard σ} {line : Line} {signal : Signal} (x : Subscriber σ)
    (hon : (s.channel line signal.kind).dispatching = true) : Step s (.invoked line x signal) s
  | answered (s : Switchboard σ) (line : Line) (signal : Signal) (x : Subscription)
    (result : Except ListenerError Unit) : Step s (.answered line x signal result) s
  | ended (s : Switchboard σ) (line : Line) (signal : Signal) (failures : List ListenerFailure) :
    Step s (.ended line signal failures)
      (s.setChannel line signal.kind (s.channel line signal.kind).finish)

/-- What moments do to the listeners, one after another. -/
def Steps : Switchboard σ → List (Moment σ) → Switchboard σ → Prop
  | s, [], s' => s' = s
  | s, m :: ms, s' => s.Step m.event m.switchboard ∧ m.switchboard.Steps ms s'

/-- The listeners as they are after some moments. -/
def latest (s : Switchboard σ) (ms : List (Moment σ)) : Switchboard σ :=
  ms.foldl (fun _ m => m.switchboard) s

theorem Steps.append {s s' s'' : Switchboard σ} {ms ms' : List (Moment σ)}
    (h : s.Steps ms s') (h' : s'.Steps ms' s'') : s.Steps (ms ++ ms') s'' := by
  induction ms generalizing s with
  | nil => exact h ▸ h'
  | cons m ms ih => exact ⟨h.1, ih h.2⟩

theorem Steps.of_split {s s' : Switchboard σ} {before after : List (Moment σ)} {m : Moment σ}
    (h : s.Steps (before ++ m :: after) s') :
    s.Steps before (s.latest before) ∧ (s.latest before).Step m.event m.switchboard := by
  induction before generalizing s with
  | nil => exact ⟨rfl, h.1⟩
  | cons m' before ih =>
    obtain ⟨hsteps, hstep⟩ := ih h.2
    exact ⟨⟨h.1, hsteps⟩, hstep⟩

end Switchboard

/-- What happens goes by such steps. -/
theorem Course.steps {a : Activity σ} {d d' : Delivery σ} {ms : List (Moment σ)}
    (h : Course a d ms d')
    (ha : ∀ line kind, a.isOn line kind → (d.switchboard.channel line kind).dispatching = true) :
    d.switchboard.Steps ms d'.switchboard := by
  induction h with
  | still hs => exact hs
  | append _ _ ih ih' => exact (ih ha).append (ih' fun _ _ => False.elim)
  | submitted d mutation => exact ⟨.submitted _ _, rfl⟩
  | subscribed d line kind listener => exact ⟨.subscribed _ line kind listener, rfl⟩
  | unsubscribed d line s => exact ⟨.unsubscribed _ line s, rfl⟩
  | refused d line signal hon => exact ⟨.refused hon, rfl⟩
  | @passed d d' line signal failures ms hoff _ ih =>
    refine ⟨.began hoff, .append (ih ?_) ⟨.ended d'.switchboard line signal failures, rfl⟩⟩
    rintro _ _ ⟨rfl, rfl⟩
    exact d.dispatching_started line signal
  | nobody => rfl
  | @next d _ _ line signal s _ result _ _ _ h _ ih ih' =>
    have hon := ha line signal.kind ⟨rfl, rfl⟩
    refine ⟨.invoked s hon, .append (ih fun _ _ => False.elim)
      ⟨.answered _ line signal s.subscription result, ih' ?_⟩⟩
    intro l k hl
    rw [h.dispatching]
    exact ha l k hl

/-! ## Channel and history -/

/-- What a channel has to do with what happened so far. -/
structure Kept (line : Line) (kind : Kind) (s : Switchboard σ) (es : List (Event σ)) : Prop where
  /-- Passes are under way where the history says so, -/
  dispatching : (s.channel line kind).dispatching = running line kind es
  /-- what is to be taken out are those who left meanwhile, -/
  retired : (s.channel line kind).retired = leaving line kind es
  /-- and they are listed beside those who did not leave. -/
  listed : (s.channel line kind).subscribers = (joined line kind es).filter fun x =>
    x.subscription ∉ left line kind es ∨ x.subscription ∈ leaving line kind es
  /-- Nobody else left than who had joined, -/
  known : ∀ x ∈ left line kind es, x ∈ (joined line kind es).map Subscriber.subscription
  /-- nobody left twice, -/
  once : (left line kind es).Nodup
  /-- and who is leaving has left. -/
  gone : ∀ x ∈ leaving line kind es, x ∈ left line kind es
  /-- Subscriptions are told apart by their numbers, which are issued in order. -/
  distinct : ((joined line kind es).map Subscriber.subscription).Nodup
  issued : ∀ x ∈ (joined line kind es).map Subscriber.subscription,
    x.number < (s.bus line).nextNumber

/-- Who is among the subscribers that are picked out by their subscription. -/
theorem mem_map_subscription_filter {x : Subscription} {p : Subscription → Prop}
    [DecidablePred p] {xs : List (Subscriber σ)} :
    x ∈ (xs.filter fun s => p s.subscription).map Subscriber.subscription ↔
      x ∈ xs.map Subscriber.subscription ∧ p x := by
  simp only [List.mem_map, List.mem_filter, decide_eq_true_eq]
  constructor
  · rintro ⟨s, ⟨hs, hp⟩, rfl⟩
    exact ⟨⟨s, hs, rfl⟩, hp⟩
  · rintro ⟨⟨s, hs, rfl⟩, hp⟩
    exact ⟨s, ⟨hs, hp⟩, rfl⟩

theorem mem_members {line : Line} {kind : Kind} {es : List (Event σ)} {x : Subscription} :
    x ∈ (members line kind es).map Subscriber.subscription ↔
      x ∈ (joined line kind es).map Subscriber.subscription ∧ x ∉ left line kind es :=
  mem_map_subscription_filter (p := (· ∉ left line kind es))

theorem leaving_of_not_running {line : Line} {kind : Kind} {es : List (Event σ)}
    (h : running line kind es = false) : leaving line kind es = [] := by
  rw [leaving, Option.isSome_eq_false_iff.mp h |> Option.isNone_iff_eq_none.mp]
  rfl

section Unsubscribed

variable (line : Line) (x : Subscription) {es : List (Event σ)}

theorem left_unsubscribed : left line x.kind (es ++ [.unsubscribed line x true]) =
    left line x.kind es ++ [x] := by
  simp [Event.leaver?]

theorem pass?_unsubscribed : pass? line x.kind (es ++ [.unsubscribed line x true]) =
    (pass? line x.kind es).map (· ++ [x]) := by
  simp [Event.turnPass, Event.leaver?]

theorem running_unsubscribed : running line x.kind (es ++ [.unsubscribed line x true]) =
    running line x.kind es := by
  rw [running, pass?_unsubscribed, Option.isSome_map]
  rfl

theorem leaving_unsubscribed (h : running line x.kind es = true) :
    leaving line x.kind (es ++ [.unsubscribed line x true]) = leaving line x.kind es ++ [x] := by
  obtain ⟨leavers, hsome⟩ := Option.isSome_iff_exists.mp h
  rw [leaving, leaving, pass?_unsubscribed, hsome]
  rfl

end Unsubscribed

namespace Channel

variable (c : Channel σ) (x : Subscription)

theorem contains_iff : c.contains x = true ↔ x ∈ c.subscribers.map Subscriber.subscription := by
  simp [contains, List.mem_map, List.any_eq_true]

/-- Somebody is removed who is listed and not yet to be taken out. -/
theorem remove_fst : (c.remove x).1 = true ↔ c.contains x = true ∧ x ∉ c.retired := by
  unfold remove
  split
  · rename_i h
    simp only [Bool.or_eq_true, Bool.not_eq_true', List.contains_iff_mem] at h
    grind
  · rename_i h
    simp only [Bool.or_eq_true, Bool.not_eq_true', List.contains_iff_mem, not_or] at h
    split <;> grind

theorem remove_of_false (h : (c.remove x).1 = false) : (c.remove x).2 = c := by
  unfold remove at h ⊢
  grind

theorem remove_of_true (h : (c.remove x).1 = true) :
    (c.remove x).2 =
      if c.dispatching then { c with retired := c.retired ++ [x] }
      else { c with subscribers := c.subscribers.filter fun s => s.subscription ≠ x } := by
  unfold remove at h ⊢
  grind

end Channel

theorem elsewhere_symm {line l : Line} {kind k : Kind} (h : ¬ (line = l ∧ kind = k)) :
    ¬ (l = line ∧ k = kind) :=
  fun hx => h ⟨hx.1.symm, hx.2.symm⟩

namespace Kept

variable {line : Line} {kind : Kind} {s : Switchboard σ} {es : List (Event σ)}

/-- Before anything happens nobody is subscribed. -/
theorem start (line : Line) (kind : Kind) : Kept line kind ({} : Switchboard σ) [] := by
  cases line <;> cases kind <;>
    exact ⟨rfl, rfl, rfl, by simp [left], by simp [left], by simp [leaving, pass?],
      by simp [joined], by simp [joined]⟩

/-- What has nothing to do with a channel. -/
theorem elsewhere {s' : Switchboard σ} {e : Event σ} (h : Kept line kind s es)
    (hc : s'.channel line kind = s.channel line kind)
    (hn : (s.bus line).nextNumber ≤ (s'.bus line).nextNumber)
    (hj : e.joiner? line kind = none) (hl : e.leaver? line kind = none)
    (hp : ∀ pass, e.turnPass line kind pass = pass) : Kept line kind s' (es ++ [e]) := by
  have hjoined : joined line kind (es ++ [e]) = joined line kind es := by simp [hj]
  have hleft : left line kind (es ++ [e]) = left line kind es := by simp [hl]
  have hpass : pass? line kind (es ++ [e]) = pass? line kind es := by simp [hp]
  have hleaving : leaving line kind (es ++ [e]) = leaving line kind es := by
    simp only [leaving, hpass]
  refine ⟨?_, ?_, ?_, ?_, ?_, ?_, ?_, ?_⟩ <;>
    simp only [hc, hjoined, hleft, hleaving, running, hpass]
  · exact h.dispatching
  · exact h.retired
  · exact h.listed
  · exact h.known
  · exact h.once
  · exact h.gone
  · exact h.distinct
  · exact fun x hx => Nat.lt_of_lt_of_le (h.issued x hx) hn

theorem elsewhere_setChannel {e : Event σ} (h : Kept line kind s es) {l : Line} {k : Kind}
    (c : Channel σ) (hl : ¬ (line = l ∧ kind = k)) (hj : e.joiner? line kind = none)
    (hleft : e.leaver? line kind = none) (hp : ∀ pass, e.turnPass line kind pass = pass) :
    Kept line kind (s.setChannel l k c) (es ++ [e]) := by
  refine h.elsewhere ?_ (Nat.le_of_eq (s.nextNumber_setChannel l line k c).symm) hj hleft hp
  rw [Switchboard.channel_setChannel, if_neg hl]

theorem mem_subscribers (h : Kept line kind s es) {x : Subscription} :
    x ∈ (s.channel line kind).subscribers.map Subscriber.subscription ↔
      x ∈ (joined line kind es).map Subscriber.subscription ∧
        (x ∉ left line kind es ∨ x ∈ leaving line kind es) := by
  rw [h.listed]
  exact mem_map_subscription_filter
    (p := fun x => x ∉ left line kind es ∨ x ∈ leaving line kind es)

/-- Who unsubscribes is taken off if it joined and did not leave yet. -/
theorem was_iff (h : Kept line kind s es) (x : Subscription) :
    ((s.channel line kind).remove x).1 = true ↔
      x ∈ (members line kind es).map Subscriber.subscription := by
  rw [Channel.remove_fst, Channel.contains_iff, h.retired, mem_members, h.mem_subscribers]
  have hgone := h.gone x
  grind

/-- Who subscribes is listed last. -/
theorem subscribed (h : Kept line kind s es) (listener : Listener σ) :
    Kept line kind (s.subscribe line kind listener).2
      (es ++ [.subscribed line ⟨(s.subscribe line kind listener).1, listener⟩]) := by
  generalize hx : (s.subscribe line kind listener).1 = x
  obtain ⟨hkind, hnumber⟩ : x.kind = kind ∧ x.number = (s.bus line).nextNumber := by
    subst hx
    exact ⟨rfl, rfl⟩
  have hchannel := s.channel_subscribe line line kind kind listener
  rw [if_pos ⟨rfl, rfl⟩, hx] at hchannel
  have hnext := s.nextNumber_subscribe line line kind listener
  rw [if_pos rfl] at hnext
  have hjoined : joined line kind (es ++ [.subscribed line ⟨x, listener⟩]) =
      joined line kind es ++ [⟨x, listener⟩] := by
    simp [Event.joiner?, hkind]
  have hleft : left line kind (es ++ [.subscribed line ⟨x, listener⟩]) = left line kind es := by
    simp [Event.leaver?]
  have hpass : pass? line kind (es ++ [.subscribed line ⟨x, listener⟩]) = pass? line kind es := by
    simp [Event.turnPass, Event.leaver?]
  -- Its number is higher than all that were issued before.
  have hfresh : x ∉ (joined line kind es).map Subscriber.subscription := fun hin =>
    absurd (h.issued x hin) (by omega)
  have hstays : x ∉ left line kind es := fun hin => hfresh (h.known x hin)
  refine ⟨?_, ?_, ?_, ?_, ?_, ?_, ?_, ?_⟩ <;>
    simp only [hchannel, hjoined, hleft, leaving, running, hpass, Channel.add, hnext]
  · exact h.dispatching
  · exact h.retired
  · rw [List.filter_append, h.listed, List.filter_cons_of_pos (by simp [hstays])]
    rfl
  · exact fun y hy => by simp [h.known y hy]
  · exact h.once
  · exact h.gone
  · rw [List.map_append, List.map_singleton, ← List.concat_eq_append]
    exact h.distinct.concat hfresh
  · intro y hy
    rw [List.map_append, List.mem_append] at hy
    rcases hy with hy | hy
    · have := h.issued y hy
      omega
    · rw [List.mem_singleton.mp hy, hnumber]
      omega

/-- Who is taken off during a pass is listed until it ends, and otherwise goes at once. -/
theorem unsubscribed (h : Kept line kind s es) {x : Subscription} (hx : x.kind = kind) :
    Kept line kind (s.unsubscribe line x).2
      (es ++ [.unsubscribed line x (s.unsubscribe line x).1]) := by
  subst hx
  have hchannel := s.channel_unsubscribe line line x.kind x
  rw [if_pos ⟨rfl, rfl⟩] at hchannel
  have hnext : ((s.unsubscribe line x).2.bus line).nextNumber = (s.bus line).nextNumber :=
    s.nextNumber_setChannel line line x.kind _
  change Kept line x.kind (s.unsubscribe line x).2
    (es ++ [.unsubscribed line x ((s.channel line x.kind).remove x).1])
  cases hwas : ((s.channel line x.kind).remove x).1 with
  | false =>
    refine h.elsewhere ?_ (Nat.le_of_eq hnext.symm) rfl rfl fun pass => ?_
    · rw [hchannel, Channel.remove_of_false _ _ hwas]
    · cases pass <;> simp [Event.turnPass, Event.leaver?]
  | true =>
    obtain ⟨hjoin, hstayed⟩ := mem_members.mp ((h.was_iff x).mp hwas)
    rw [Channel.remove_of_true _ _ hwas, h.dispatching] at hchannel
    have hjoined : joined line x.kind (es ++ [.unsubscribed line x true]) =
        joined line x.kind es := by simp [Event.joiner?]
    have hrunning : running line x.kind (es ++ [.unsubscribed line x true]) =
        running line x.kind es := running_unsubscribed line x
    have honce : (left line x.kind es ++ [x]).Nodup := by
      rw [← List.concat_eq_append]
      exact h.once.concat hstayed
    have hknown : ∀ y ∈ left line x.kind es ++ [x],
        y ∈ (joined line x.kind es).map Subscriber.subscription := by
      intro y hy
      rcases List.mem_append.mp hy with hy | hy
      · exact h.known y hy
      · exact List.mem_singleton.mp hy ▸ hjoin
    cases hrun : running line x.kind es with
    | true =>
      have hleaving := leaving_unsubscribed line x hrun
      rw [hrun, if_pos rfl] at hchannel
      refine ⟨?_, ?_, ?_, ?_, ?_, ?_, ?_, ?_⟩ <;>
        simp only [hchannel, hjoined, left_unsubscribed, hleaving, hrunning, hnext]
      · exact hrun.symm
      · rw [h.retired]
      · rw [h.listed]
        refine List.filter_congr fun y _ => ?_
        grind
      · exact hknown
      · exact honce
      · grind [h.gone]
      · exact h.distinct
      · exact h.issued
    | false =>
      have hbefore := leaving_of_not_running hrun
      have hleaving := leaving_of_not_running (hrunning.trans hrun)
      rw [hrun, if_neg Bool.false_ne_true] at hchannel
      refine ⟨?_, ?_, ?_, ?_, ?_, ?_, ?_, ?_⟩ <;>
        simp only [hchannel, hjoined, left_unsubscribed, hleaving, hrunning, hnext]
      · exact hrun.symm
      · rw [h.retired, hbefore]
      · rw [h.listed, hbefore, List.filter_filter]
        refine List.filter_congr fun y _ => ?_
        grind
      · exact hknown
      · exact honce
      · simp
      · exact h.distinct
      · exact h.issued

theorem began (h : Kept line kind s es) {signal : Signal} (hk : signal.kind = kind)
    (hoff : (s.channel line kind).dispatching = false) :
    Kept line kind (s.setChannel line kind (s.channel line kind).start)
      (es ++ [.began line signal]) := by
  have hchannel := s.channel_setChannel line line kind kind (s.channel line kind).start
  rw [if_pos ⟨rfl, rfl⟩] at hchannel
  have hbefore := leaving_of_not_running (h.dispatching.symm.trans hoff)
  have hjoined : joined line kind (es ++ [.began line signal]) = joined line kind es := by
    simp [Event.joiner?]
  have hleft : left line kind (es ++ [.began line signal]) = left line kind es := by
    simp [Event.leaver?]
  have hpass : pass? line kind (es ++ [.began line signal]) = some [] := by
    simp [Event.turnPass, hk]
  have hretired := h.retired
  have hlisted := h.listed
  rw [hbefore] at hretired hlisted
  refine ⟨?_, ?_, ?_, ?_, ?_, ?_, ?_, ?_⟩ <;>
    simp only [hchannel, hjoined, hleft, leaving, running, hpass,
      Switchboard.nextNumber_setChannel]
  · rfl
  · exact hretired
  · exact hlisted
  · exact h.known
  · exact h.once
  · simp
  · exact h.distinct
  · exact h.issued

/-- When a pass ends, those who left meanwhile are taken out. -/
theorem ended (h : Kept line kind s es) {signal : Signal} (hk : signal.kind = kind)
    (failures : List ListenerFailure) :
    Kept line kind (s.setChannel line kind (s.channel line kind).finish)
      (es ++ [.ended line signal failures]) := by
  have hchannel := s.channel_setChannel line line kind kind (s.channel line kind).finish
  rw [if_pos ⟨rfl, rfl⟩] at hchannel
  have hjoined : joined line kind (es ++ [.ended line signal failures]) =
      joined line kind es := by simp [Event.joiner?]
  have hleft : left line kind (es ++ [.ended line signal failures]) = left line kind es := by
    simp [Event.leaver?]
  have hpass : pass? line kind (es ++ [.ended line signal failures]) = none := by
    simp [Event.turnPass, hk]
  refine ⟨?_, ?_, ?_, ?_, ?_, ?_, ?_, ?_⟩ <;>
    simp only [hchannel, hjoined, hleft, leaving, running, hpass,
      Switchboard.nextNumber_setChannel]
  · rfl
  · rfl
  · rw [Channel.finish, h.listed, h.retired, List.filter_filter]
    refine List.filter_congr fun y _ => ?_
    have hgone := h.gone y.subscription
    simp only [Option.getD_none]
    grind
  · exact h.known
  · exact h.once
  · simp
  · exact h.distinct
  · exact h.issued

/-- Channel and history stay together, whatever happens, on the channel or elsewhere. -/
theorem step {e : Event σ} {s' : Switchboard σ} (hstep : s.Step e s')
    (h : Kept line kind s es) : Kept line kind s' (es ++ [e]) := by
  have hsame (pass : Option (List Subscription)) : pass.map (· ++ []) = pass := by
    cases pass <;> simp
  cases hstep with
  | submitted | refused | invoked | answered =>
    exact h.elsewhere rfl (Nat.le_refl _) rfl rfl hsame
  | subscribed l k listener =>
    by_cases hl : line = l ∧ kind = k
    · obtain ⟨rfl, rfl⟩ := hl
      exact h.subscribed listener
    · have hback := elsewhere_symm hl
      refine h.elsewhere ?_ ?_ (if_neg hback) rfl hsame
      · rw [Switchboard.channel_subscribe, if_neg hl]
      · rw [Switchboard.nextNumber_subscribe]
        grind
  | unsubscribed l x =>
    by_cases hl : line = l ∧ kind = x.kind
    · obtain ⟨rfl, rfl⟩ := hl
      exact h.unsubscribed rfl
    · have hback := elsewhere_symm hl
      have hleaver : (Event.unsubscribed l x (s.unsubscribe l x).1 : Event σ).leaver? line kind =
          none := by
        cases (s.unsubscribe l x).1
        · rfl
        · exact if_neg hback
      refine h.elsewhere_setChannel _ hl rfl hleaver fun pass => ?_
      rw [Event.turnPass, hleaver]
      · exact hsame pass
      · simp
      · simp
  | @began l signal hoff =>
    by_cases hl : line = l ∧ kind = signal.kind
    · obtain ⟨rfl, rfl⟩ := hl
      exact h.began rfl hoff
    · have hback := elsewhere_symm hl
      exact h.elsewhere_setChannel _ hl rfl rfl fun pass => if_neg hback
  | ended l signal failures =>
    by_cases hl : line = l ∧ kind = signal.kind
    · obtain ⟨rfl, rfl⟩ := hl
      exact h.ended rfl failures
    · have hback := elsewhere_symm hl
      exact h.elsewhere_setChannel _ hl rfl rfl fun pass => if_neg hback

theorem steps {s' : Switchboard σ} {ms : List (Moment σ)} (hsteps : s.Steps ms s')
    (h : Kept line kind s es) : Kept line kind s' (es ++ events ms) := by
  induction ms generalizing s es with
  | nil => rwa [hsteps, events_nil, List.append_nil]
  | cons m ms ih =>
    have hrest := ih hsteps.2 (h.step hsteps.1)
    rwa [List.append_assoc, List.singleton_append] at hrest

end Kept

/-! ## Runs -/

/-- Something done from outside the listeners : a program of its own. All but the listeners may be
new at every turn. -/
structure Turn (σ : Type) where
  program : Program σ
  view : View
  queue : MutationQueue
  journal : Journal
  ambient : σ

namespace Turn

variable (t : Turn σ) (s : Switchboard σ)

/-- The state in which a turn is taken. -/
def delivery : Delivery σ := ⟨s, t.queue, t.journal, t.ambient⟩

/-- The listeners after a turn. -/
def after : Switchboard σ := (t.program.run (publish t.view) (t.delivery s)).2.switchboard

/-- What happens during a turn. -/
def moments : List (Moment σ) :=
  t.program.moments (publish t.view) (publishMoments t.view maxNesting) (t.delivery s)

theorem course : Course .acting (t.delivery s) (t.moments s)
    (t.program.run (publish t.view) (t.delivery s)).2 :=
  Program.course_run (fun line signal d => course_publishAt t.view line signal d maxNesting)
    t.program (t.delivery s) s.idle_le

end Turn

namespace Switchboard

/-- The listeners after turns, one after another. -/
def afterTurns (s : Switchboard σ) (ts : List (Turn σ)) : Switchboard σ :=
  ts.foldl (fun s t => t.after s) s

/-- What happens during turns, one after another. -/
def moments : Switchboard σ → List (Turn σ) → List (Moment σ)
  | _, [] => []
  | s, t :: ts => t.moments s ++ (t.after s).moments ts

section Turns

variable (s : Switchboard σ) (ts : List (Turn σ))

theorem steps_moments : s.Steps (s.moments ts) (s.afterTurns ts) := by
  induction ts generalizing s with
  | nil => rfl
  | cons t ts ih => exact ((t.course s).steps fun _ _ => False.elim).append (ih (t.after s))

theorem bracketed_moments : Bracketed (s.moments ts) := by
  induction ts generalizing s with
  | nil => trivial
  | cons t ts ih => exact ((t.course s).bracketed fun _ _ => False.elim).append (ih (t.after s))

/-- Between turns passes are under way where they were before. -/
theorem dispatching_afterTurns (line : Line) (kind : Kind) :
    ((s.afterTurns ts).channel line kind).dispatching = (s.channel line kind).dispatching := by
  induction ts generalizing s with
  | nil => rfl
  | cons t ts ih => exact (ih (t.after s)).trans ((t.course s).dispatching line kind)

end Turns

/-- What holds of a moment, where `es` happened before it, to the listeners `s`, and `after`
happens from then on. -/
structure Lawful (es : List (Event σ)) (s : Switchboard σ) (m : Moment σ)
    (after : List (Moment σ)) : Prop where
  /-- Publishing is refused where a pass over the channel is under way, and changes nothing. -/
  refused : ∀ line signal error, m.event = .refused line signal error →
    error = .reentrantPublish signal.kind ∧ running line signal.kind es = true ∧
      m.switchboard = s
  /-- A pass begins where none is under way, and it ends; until then it invokes exactly who is
  subscribed when it begins, once each, in order, whatever happens, and its answer is the
  failures of those, in order. -/
  began : ∀ line signal, m.event = .began line signal →
    running line signal.kind es = false ∧ ∃ failures body final rest,
      after = body ++ ⟨.ended line signal failures, final⟩ :: rest ∧
        IsPass line signal (members line signal.kind es) failures (events body)
  /-- Who is subscribed is subscribed once. -/
  distinct : ∀ line kind, ((members line kind es).map Subscriber.subscription).Nodup
  /-- Nobody is invoked but in a pass. -/
  invoked : ∀ line x signal, m.event = .invoked line x signal →
    running line signal.kind es = true
  /-- Unsubscribing succeeds for those who are subscribed, -/
  removed : ∀ line x was, m.event = .unsubscribed line x was →
    (was = true ↔ x ∈ (members line x.kind es).map Subscriber.subscription)
  /-- and not once more. -/
  repeated : ∀ line x was, m.event = .unsubscribed line x was → x ∈ left line x.kind es →
    was = false
  /-- Who is taken off during a pass stays listed for now, and otherwise goes at once. -/
  deferred : ∀ line x, m.event = .unsubscribed line x true →
    (x ∈ (m.switchboard.channel line x.kind).subscribers.map Subscriber.subscription ↔
      running line x.kind es = true)
  /-- While a pass is under way its channel is marked, -/
  busy : ∀ line kind, running line kind (es ++ [m.event]) = true →
    (m.switchboard.channel line kind).dispatching = true
  /-- and while none is, a channel lists those who are subscribed, with nothing left to do. -/
  idle : ∀ line kind, running line kind (es ++ [m.event]) = false →
    m.switchboard.channel line kind = { subscribers := members line kind (es ++ [m.event]) }

/-- The law of delivery, over the turns of a run from an empty switchboard. -/
structure Orderly (ts : List (Turn σ)) : Prop where
  moment : ∀ before m after, ({} : Switchboard σ).moments ts = before ++ m :: after →
    Lawful (events before) (({} : Switchboard σ).latest before) m after
  /-- Nobody is taken off twice. -/
  once : ∀ line kind, (left line kind (events (({} : Switchboard σ).moments ts))).Nodup
  /-- Between turns no pass is under way, and all channels list those who are subscribed. -/
  idle : ∀ line kind, running line kind (events (({} : Switchboard σ).moments ts)) = false ∧
    (({} : Switchboard σ).afterTurns ts).channel line kind =
      { subscribers := members line kind (events (({} : Switchboard σ).moments ts)) }
  /-- A call that is refused leaves all of the state as it is, and nothing else happens in it. -/
  failed : ∀ view depth line signal (d d' : Delivery σ) error,
    publishAt view depth line signal d = (.error error, d') →
      d' = d ∧
        publishMoments view depth line signal d = [⟨.refused line signal error, d.switchboard⟩]
  /-- Any other call is a pass and answers what the pass ends with. -/
  delivered : ∀ view depth line signal (d d' : Delivery σ) failures,
    publishAt view depth line signal d = (.ok failures, d') →
      ∃ first body, publishMoments view depth line signal d =
        ⟨.began line signal, first⟩ ::
          (body ++ [⟨.ended line signal failures, d'.switchboard⟩])

end Switchboard

section Lawful

variable {line : Line} {kind : Kind} {s : Switchboard σ} {es : List (Event σ)}

/-- Without a pass a channel lists those who are subscribed. -/
theorem Kept.channel_of_not_running (h : Kept line kind s es)
    (hoff : running line kind es = false) :
    s.channel line kind = { subscribers := members line kind es } := by
  have hleaving := leaving_of_not_running hoff
  have hlisted : (s.channel line kind).subscribers = members line kind es := by
    rw [h.listed, hleaving]
    exact List.filter_congr fun x _ => by simp
  rw [← hlisted, ← h.dispatching.trans hoff, ← h.retired.trans hleaving]

theorem Kept.distinct_members (h : Kept line kind s es) :
    ((members line kind es).map Subscriber.subscription).Nodup :=
  h.distinct.sublist (List.filter_sublist.map _)

/-- Who is taken off is still listed as long as a pass is under way. -/
theorem Kept.mem_of_unsubscribed {x : Subscription}
    (h : Kept line x.kind s (es ++ [.unsubscribed line x true])) :
    x ∈ (s.channel line x.kind).subscribers.map Subscriber.subscription ↔
      running line x.kind es = true := by
  have hgone : x ∈ left line x.kind (es ++ [.unsubscribed line x true]) := by
    rw [left_unsubscribed]
    exact List.mem_append_right _ (List.mem_singleton_self x)
  rw [h.mem_subscribers]
  cases hrun : running line x.kind es with
  | true =>
    have hleaving : x ∈ leaving line x.kind (es ++ [.unsubscribed line x true]) := by
      rw [leaving_unsubscribed line x hrun]
      exact List.mem_append_right _ (List.mem_singleton_self x)
    exact iff_of_true ⟨h.known x hgone, .inr hleaving⟩ rfl
  | false =>
    rw [leaving_of_not_running ((running_unsubscribed line x).trans hrun)]
    exact iff_of_false (fun hx => hx.2.elim (absurd hgone) List.not_mem_nil) Bool.false_ne_true

end Lawful

namespace Switchboard

variable {s : Switchboard σ} {es : List (Event σ)} {m : Moment σ} {after : List (Moment σ)}

section Step

variable {s' : Switchboard σ} {line : Line} {signal : Signal}

theorem Step.of_refused {error : Error} (h : s.Step (.refused line signal error) s') :
    error = .reentrantPublish signal.kind ∧
      (s.channel line signal.kind).dispatching = true ∧ s' = s := by
  cases h with
  | refused hon => exact ⟨rfl, hon, rfl⟩

theorem Step.of_began (h : s.Step (.began line signal) s') :
    (s.channel line signal.kind).dispatching = false ∧
      s' = s.setChannel line signal.kind (s.channel line signal.kind).start := by
  cases h with
  | began hoff => exact ⟨hoff, rfl⟩

theorem Step.of_invoked {x : Subscriber σ} (h : s.Step (.invoked line x signal) s') :
    (s.channel line signal.kind).dispatching = true := by
  cases h with
  | invoked _ hon => exact hon

theorem Step.of_unsubscribed {x : Subscription} {was : Bool}
    (h : s.Step (.unsubscribed line x was) s') :
    was = ((s.channel line x.kind).remove x).1 := by
  cases h
  rfl

end Step

/-- A step from where channels and history agree is lawful. -/
theorem Step.lawful (hstep : s.Step m.event m.switchboard)
    (hkept : ∀ line kind, Kept line kind s es) (hb : Bracketed (m :: after)) :
    Lawful es s m after where
  refused line signal error he := by
    obtain ⟨rfl, hon, hs⟩ := Step.of_refused (he ▸ hstep)
    exact ⟨rfl, (hkept line signal.kind).dispatching.symm.trans hon, hs⟩
  began line signal he := by
    obtain ⟨hoff, hs⟩ := Step.of_began (he ▸ hstep)
    have hrunning := (hkept line signal.kind).dispatching.symm.trans hoff
    obtain ⟨failures, body, final, rest, hafter, hpass⟩ := hb.1 line signal he
    refine ⟨hrunning, failures, body, final, rest, hafter, ?_⟩
    rw [hs, channel_setChannel, if_pos ⟨rfl, rfl⟩, Channel.start,
      (hkept line signal.kind).channel_of_not_running hrunning] at hpass
    exact hpass
  distinct line kind := (hkept line kind).distinct_members
  invoked line x signal he :=
    (hkept line signal.kind).dispatching.symm.trans (Step.of_invoked (he ▸ hstep))
  removed line x was he := by
    rw [he] at hstep
    rw [hstep.of_unsubscribed]
    exact (hkept line x.kind).was_iff x
  repeated line x was he hleft := by
    rw [he] at hstep
    refine Bool.eq_false_iff.mpr fun hon => ?_
    rw [hstep.of_unsubscribed, (hkept line x.kind).was_iff, mem_members] at hon
    exact hon.2 hleft
  deferred line x he := Kept.mem_of_unsubscribed (he ▸ (hkept line x.kind).step hstep)
  busy line kind hrun := ((hkept line kind).step hstep).dispatching.trans hrun
  idle line kind hrun := ((hkept line kind).step hstep).channel_of_not_running hrun

theorem publishMoments_of_error {view : View} {depth : Nat} {line : Line} {signal : Signal}
    {d d' : Delivery σ} {error : Error}
    (h : publishAt view depth line signal d = (.error error, d')) :
    d' = d ∧
      publishMoments view depth line signal d = [⟨.refused line signal error, d.switchboard⟩] := by
  cases depth with
  | zero =>
    cases h
    exact ⟨rfl, rfl⟩
  | succ depth =>
    cases hbusy : (d.switchboard.channel line signal.kind).dispatching with
    | true =>
      have hd : d' = d := by
        rw [publishAt_of_dispatching view line signal d _ hbusy] at h
        exact (Prod.ext_iff.mp h).2.symm
      subst hd
      exact ⟨rfl, by simp only [publishMoments, h]⟩
    | false =>
      rw [publishAt_of_idle view line signal d hbusy] at h
      cases h

theorem publishMoments_of_ok {view : View} {depth : Nat} {line : Line} {signal : Signal}
    {d d' : Delivery σ} {failures : List ListenerFailure}
    (h : publishAt view depth line signal d = (.ok failures, d')) :
    ∃ first body, publishMoments view depth line signal d =
      ⟨.began line signal, first⟩ :: (body ++ [⟨.ended line signal failures, d'.switchboard⟩]) := by
  cases depth with
  | zero => cases h
  | succ depth => exact ⟨_, _, by simp only [publishMoments, h]; rfl⟩

/-- However passes nest and whatever listeners do meanwhile, delivery is lawful. -/
theorem orderly_turns (ts : List (Turn σ)) : Orderly ts := by
  have hsteps := ({} : Switchboard σ).steps_moments ts
  have hend (line : Line) (kind : Kind) := (Kept.start line kind).steps hsteps
  refine ⟨fun before m after hsplit => ?_, fun line kind => (hend line kind).once,
    fun line kind => ?_, fun _ _ _ _ _ _ _ => publishMoments_of_error,
    fun _ _ _ _ _ _ _ => publishMoments_of_ok⟩
  · have hbracketed := ({} : Switchboard σ).bracketed_moments ts
    rw [hsplit] at hsteps hbracketed
    obtain ⟨hbefore, hstep⟩ := hsteps.of_split
    exact hstep.lawful (fun line kind => (Kept.start line kind).steps hbefore)
      hbracketed.of_append_right
  · have hidle := ({} : Switchboard σ).dispatching_afterTurns ts line kind
    have hrunning : running line kind (events (({} : Switchboard σ).moments ts)) = false := by
      refine (hend line kind).dispatching.symm.trans (hidle.trans ?_)
      cases line <;> cases kind <;> rfl
    exact ⟨hrunning, (hend line kind).channel_of_not_running hrunning⟩

end Switchboard

end Tether
