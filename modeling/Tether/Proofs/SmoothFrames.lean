import Tether.Proofs.Flushing
import Tether.Proofs.Frames

/-!
# Frames in which nothing fails

A listener is content with a signal if it answers that all is well and does nothing. Where every
listener is content with every signal that waits (`Coordinator.Content`) and no named signal is
scheduled, a dispatch only goes on to the next frame (`Coordinator.dispatch_of_content`), so a step
is its flush and its synchronization (`Coordinator.step_of_content`).

A flush for whose mutations no direct call is refused reports on nothing but what was applied and
reaped (`Coordinator.flush_of_granted`).
-/

set_option linter.unusedSectionVars false

namespace Tether

/-! ## Passes that change nothing -/

namespace Switchboard

variable {σ : Type} (s : Switchboard σ) (line : Line) (kind : Kind)

theorem setChannel_setChannel (c c' : Channel σ) :
    (s.setChannel line kind c).setChannel line kind c' = s.setChannel line kind c' := by
  cases line <;> cases kind <;> rfl

theorem setChannel_channel : s.setChannel line kind (s.channel line kind) = s := by
  cases line <;> cases kind <;> rfl

end Switchboard

section Delivery

variable {σ : Type} (publish : Line → Signal → Delivery σ → Reply × Delivery σ) (view : View)
  (line : Line) (signal : Signal) (d : Delivery σ)

theorem deliver_of_content {subscribers : List (Subscriber σ)}
    (h : ∀ s ∈ subscribers, s.listener signal view d.ambient = .done (.ok ()) d.ambient) :
    deliver publish view signal subscribers d = ([], d) := by
  induction subscribers with
  | nil => rfl
  | cons s rest ih =>
    have hrest := ih fun s' hs' => h s' (List.mem_cons_of_mem _ hs')
    simp only [deliver, h s List.mem_cons_self, Program.run]
    rw [hrest]

/-- A pass in which nobody is retired leaves the listeners as they were. -/
theorem Delivery.finished_started
    (hoff : (d.switchboard.channel line signal.kind).dispatching = false)
    (hkept : (d.switchboard.channel line signal.kind).retired = []) :
    ∃ journal, (d.started line signal).finished line signal = { d with journal } := by
  refine ⟨(d.started line signal).journal, ?_⟩
  have hfinish : ((d.started line signal).switchboard.channel line signal.kind).finish =
      d.switchboard.channel line signal.kind := by
    rw [channel_started, if_pos ⟨rfl, rfl⟩]
    generalize d.switchboard.channel line signal.kind = channel at hoff hkept
    obtain ⟨subscribers, dispatching, retired⟩ := channel
    obtain rfl : dispatching = false := hoff
    obtain rfl : retired = [] := hkept
    simp [Channel.start, Channel.finish]
  have hboard : (d.started line signal).switchboard.setChannel line signal.kind
      (d.switchboard.channel line signal.kind) = d.switchboard := by
    show (d.switchboard.setChannel line signal.kind _).setChannel line signal.kind _ = _
    rw [Switchboard.setChannel_setChannel, Switchboard.setChannel_channel]
  simp only [Delivery.finished, Delivery.updateChannel, hfinish, hboard]
  rfl

end Delivery

/-- The clock moves on as long as it does not run over. -/
theorem Frame.exists_advance {f : Frame} {delta : Duration}
    (h : f.time.nanos + delta.nanos < Duration.limit) :
    ∃ g, f.advance delta = .ok g ∧ g.time.nanos = f.time.nanos + delta.nanos := by
  cases hadd : f.time.add? delta with
  | none => exact absurd (Duration.add?_eq_none.mp hadd) (Nat.not_le_of_lt h)
  | some time =>
    have hadvance : f.advance delta = .ok { f with time, delta } := by rw [advance, hadd]
    exact ⟨_, hadvance, Duration.add?_eq_some hadd⟩

namespace Coordinator

variable {ο σ : Type} [HostObject ο] {c d e : Coordinator ο σ}

/-! ## Listeners that are content -/

/-- No listener has anything to say or to do about a signal. -/
def ContentWith (c : Coordinator ο σ) (s : Signal) : Prop :=
  ∀ sub ∈ (c.switchboard.channel .lifecycle s.kind).subscribers,
    sub.listener s c.view c.surroundings = .done (.ok ()) c.surroundings

/-- No pass is under way, nobody is about to be removed, and every listener is content with the
signals that wait. -/
structure Content (c : Coordinator ο σ) : Prop where
  idle : c.switchboard.IsIdle
  kept : ∀ kind, (c.switchboard.channel .lifecycle kind).retired = []
  content : ∀ s ∈ c.outbox.toList, c.ContentWith s

theorem publish_of_content (hidle : c.switchboard.IsIdle)
    (hkept : ∀ kind, (c.switchboard.channel .lifecycle kind).retired = []) {s : Signal}
    (h : c.ContentWith s) : ∃ journal, c.publish s = (.ok [], { c with journal }) := by
  obtain ⟨journal, hpass⟩ := Delivery.finished_started .lifecycle s c.delivery
    (hidle .lifecycle s.kind) (hkept s.kind)
  refine ⟨journal, ?_⟩
  have hdeliver :=
    deliver_of_content (publishAt c.view 7) c.view s (c.delivery.started .lifecycle s) h
  have hpublish : Tether.publish c.view .lifecycle s c.delivery =
      (.ok [], { c.delivery with journal }) := by
    rw [Tether.publish, show maxNesting = 7 + 1 from rfl,
      publishAt_of_idle c.view .lifecycle s c.delivery (hidle .lifecycle s.kind)]
    show (Except.ok (deliver _ _ _ (c.switchboard.channel .lifecycle s.kind).subscribers _).1,
      (deliver _ _ _ (c.switchboard.channel .lifecycle s.kind).subscribers _).2.finished _ _) = _
    rw [hdeliver, hpass]
  simp only [publish, hpublish]
  rfl

theorem publishAll_of_content {ss : List Signal} (hidle : c.switchboard.IsIdle)
    (hkept : ∀ kind, (c.switchboard.channel .lifecycle kind).retired = [])
    (h : ∀ s ∈ ss, c.ContentWith s) :
    ∃ journal, publishAll ss c = (.ok [], { c with journal }) := by
  induction ss generalizing c with
  | nil => exact ⟨c.journal, rfl⟩
  | cons s ss ih =>
    obtain ⟨journal, hone⟩ := publish_of_content hidle hkept (h s List.mem_cons_self)
    obtain ⟨journal', hrest⟩ := ih (c := { c with journal }) hidle hkept
      fun s' hs' => h s' (List.mem_cons_of_mem _ hs')
    exact ⟨journal', by simp only [publishAll, hone, hrest, List.append_nil]⟩

/-- A dispatch with which every listener is content only goes on to the next frame. -/
theorem dispatch_of_content (hdelayed : c.named.delayed = []) (h : c.Content) :
    ∃ journal, c.dispatch = (.ok { delivered := c.outbox.size },
      { c with
        named := { c.named with lookup := {} }
        outbox := #[]
        frame := c.frame.next
        journal }) := by
  obtain ⟨journal, hall⟩ := publishAll_of_content (c := c.reacting) h.idle h.kept h.content
  obtain ⟨journal', hdispatch⟩ := dispatch_eq (congrArg Prod.fst hall)
  have hreacted : c.reacted = { c.reacting with journal } := congrArg Prod.snd hall
  refine ⟨journal', hdispatch.trans ?_⟩
  rw [hreacted]
  simp only [dueSignals, hdelayed, List.filter_nil, List.countP_nil, List.flatMap_nil,
    List.foldl_nil, List.any_nil, Bool.false_eq_true, ↓reduceIte, List.map_nil, Registry.markAll]
  have hincidents : c.incidents.map (· ++ ([] : List Incident).toArray) = c.incidents := by
    cases c.incidents <;> simp
  have hnamed : { c.named with delayed := [], lookup := {} } = { c.named with lookup := {} } := by
    rw [← hdelayed]
  rw [hincidents, hnamed]
  rfl

/-! ## Flushes and steps -/

/-- A flush for whose mutations no direct call is refused. -/
theorem flush_of_granted (hq : c.queue.Unbroken) (hopen : c.frame.flushed = false)
    (hm : ∀ m ∈ c.waiting, m.InTime c.frame.time)
    (hgranted : ∀ r ∈ refusals c.waiting c.reap.2, r = none) :
    ∃ e, c.flush = (.ok (.ok { applied := c.waiting.length, reaped := c.reap.1 }), e) ∧
      e.core = (c.run (.reap :: c.waiting.map Mutation.direct)).core ∧
      e.rest = { c.rest with
        queue := { c.queue with pending := #[], next := c.queue.sequence }
        frame := c.flushing.frame } := by
  obtain ⟨report, hreport, hflushes⟩ := flushes_flush (rfl : c.core = c.core) hq hopen hm
  refine ⟨c.flush.2, ?_, hflushes.core, hflushes.rest⟩
  have hall : refusals c.waiting c.reap.2 = List.replicate c.waiting.length none :=
    List.eq_replicate_iff.mpr ⟨length_refusals _ _, hgranted⟩
  have htally : report = { applied := c.waiting.length, reaped := c.reap.1 } := by
    rw [hflushes.report, hall]
    simp [FlushReport.tally, List.countP_replicate]
  rw [Prod.ext_iff]
  exact ⟨htally ▸ hreport, rfl⟩

/-- A step whose flush succeeds and with whose dispatch every listener is content. -/
theorem step_of_content {delta : Duration} {frame : Frame} {report : FlushReport}
    (hadvance : c.frame.advance delta = .ok frame) (hopen : c.frame.flushed = false)
    (hflush : { c with frame }.flush = (.ok (.ok report), e)) (hdelayed : e.named.delayed = [])
    (h : (e.synchronizeAll .bidirectional).2.Content) :
    ∃ whole journal, c.step delta = (.ok (.ok whole),
        { (e.synchronizeAll .bidirectional).2 with
          named := { e.named with lookup := {} }
          outbox := #[]
          frame := (e.synchronizeAll .bidirectional).2.frame.next
          journal }) ∧
      whole.flush = report ∧ whole.sync = (e.synchronizeAll .bidirectional).1 ∧
      whole.dispatch.failures = [] := by
  have hnamed : (e.synchronizeAll .bidirectional).2.named = e.named :=
    (e.structural_synchronizeAll .bidirectional).named
  obtain ⟨journal, hdispatch⟩ := dispatch_of_content (hnamed.symm ▸ hdelayed) h
  have honce : { c with frame }.flushOnce = (.ok (.ok report), e) := by
    rw [flushOnce, if_neg (by simp [(number_advance hadvance).2.1, hopen]), hflush]
  rw [hnamed] at hdispatch
  simp only [step, hadvance, honce, hdispatch]
  exact ⟨_, _, rfl, rfl, rfl, rfl⟩

end Coordinator

end Tether
