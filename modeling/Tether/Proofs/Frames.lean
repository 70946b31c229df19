import Mathlib.Algebra.GroupWithZero.Nat
import Mathlib.Data.List.Forall2
import Mathlib.Data.List.Induction
import Mathlib.Data.List.Nodup
import Tether.Proofs.Delays
import Tether.Proofs.Refusals

/-!
# Frame after frame

Number and clock of a frame, whether it was flushed and what waits in the queue are moved on by
different operations, which may be mixed in any order. In a run that does not run over the clock
(`Coordinator.Timely`) they stay in step with what has been done : every dispatch ends a frame,
every frame has at most one flush, by itself or in its step, and a flush takes all that waits
(`Coordinator.disciplined_run`).

What a run submits (`Coordinator.submitted`) and what its flushes apply (`Coordinator.applied`)
are listed beside it. That the second list is always the beginning of the first and the queue the
rest (`Coordinator.Balanced`) is what makes every mutation be applied by one flush.
-/

set_option linter.unusedSectionVars false

namespace Tether

namespace Action

variable {ο σ : Type}

/-- Whether an action ends a frame, if it does not run over the clock. -/
def endsFrame : Action ο σ → Bool
  | .dispatch | .step _ => true
  | _ => false

/-- Whether an action asks for a flush by itself. -/
def isFlush : Action ο σ → Bool
  | .flush => true
  | _ => false

theorem isFlush_iff {a : Action ο σ} : a.isFlush = true ↔ a = .flush := by
  cases a <;> simp [isFlush]

/-- How far an action moves the clock on, in nanoseconds. -/
def nanos : Action ο σ → Nat
  | .advance delta | .step delta => delta.nanos
  | _ => 0

end Action

namespace Coordinator

variable {ο σ : Type} [HostObject ο]

/-- Whether an action moves the clock, or a flush in it schedules a signal, beyond the longest
duration. -/
def overruns (c : Coordinator ο σ) : Action ο σ → Bool
  | .flush => !c.flush.1.isOk
  | .step delta => !(c.step delta).1.isOk
  | .advance delta => !(c.frame.advance delta).isOk
  | _ => false

/-- No action of a run overruns. -/
def Timely : Coordinator ο σ → List (Action ο σ) → Prop
  | _, [] => True
  | c, a :: as => c.overruns a = false ∧ (c.act a).Timely as

instance decidableTimely : ∀ (c : Coordinator ο σ) as, Decidable (c.Timely as)
  | _, [] => isTrue trivial
  | c, a :: as =>
    have := decidableTimely (c.act a) as
    inferInstanceAs (Decidable (c.overruns a = false ∧ (c.act a).Timely as))

theorem timely_append (c : Coordinator ο σ) (as bs : List (Action ο σ)) :
    c.Timely (as ++ bs) ↔ c.Timely as ∧ (c.run as).Timely bs := by
  induction as generalizing c with
  | nil => simp [Timely]
  | cons a as ih => simp [Timely, ih, and_assoc]

variable {c d : Coordinator ο σ}

theorem exists_of_isOk {ε α : Type} {x : Except ε α} (h : x.isOk = true) : ∃ a, x = .ok a := by
  cases x with
  | error e => cases h
  | ok a => exact ⟨a, rfl⟩

theorem exists_frame {delta : Duration} (h : c.overruns (.advance delta) = false) :
    ∃ frame, c.frame.advance delta = .ok frame :=
  exists_of_isOk (by simpa [overruns] using h)

theorem exists_answer {delta : Duration} (h : c.overruns (.step delta) = false) :
    ∃ answer, (c.step delta).1 = .ok answer :=
  exists_of_isOk (by simpa [overruns] using h)

/-! ## Flushes and dispatches -/

/-- A frame that was not flushed can be flushed. -/
theorem flush_of_open (hf : c.frame.flushed = false) (h : c.flush.1.isOk = true) :
    ∃ report, c.flush.1 = .ok (.ok report) := by
  obtain ⟨overflow, hcase⟩ | hcase := c.flushOnce_cases
  all_goals simp only [flushOnce, hf, Bool.false_eq_true, ↓reduceIte] at hcase
  · rw [hcase] at h
    cases h
  · exact hcase

theorem flush_of_flushed (hf : c.frame.flushed = true) :
    c.flush = (.ok (.error (.alreadyFlushed c.frame.number)), c) := by
  simp only [flush, hf, ↓reduceIte]

theorem frame_flush (hf : c.frame.flushed = false) :
    c.flush.2.frame = { c.frame with phase := .structural, flushed := true } :=
  congrArg Rest.frame (rest_flush hf)

theorem queue_flush (hq : c.queue.Unbroken) (hf : c.frame.flushed = false) :
    c.flush.2.queue = { c.queue with pending := #[], next := c.queue.sequence } := by
  have hrest := congrArg Rest.queue (rest_flush hf)
  rwa [show c.queue.drain = _ from hq.drain_eq] at hrest

/-- To submit is not to hand out. -/
theorem next_of_takes {q q' : MutationQueue} {ps : List Pending} (h : q.Takes ps q') :
    q'.next = q.next := by
  have hall : ∀ (ps : List Pending) (q : MutationQueue), (q.submitAll ps).next = q.next := by
    intro ps
    induction ps with
    | nil => exact fun q => rfl
    | cons p ps ih => exact fun q => ih _
  rw [h.queue, hall]

/-- What a dispatch comes to between operations. -/
theorem dispatch_of_idle (hidle : c.switchboard.IsIdle) :
    ((∃ report, c.dispatch.1 = .ok report) ∨
      ∃ failures, c.dispatch.1 = .error (.listenerFailure failures)) ∧
    c.dispatch.2.frame = c.frame.next ∧
    c.dispatch.2.queue.pending.toList = c.queue.pending.toList ++ c.submittedByDispatch ∧
    c.dispatch.2.queue.next = c.queue.next := by
  obtain ⟨failures, hreply, -, hcourse⟩ :=
    delivers_publishAll (c := c.reacting) c.outbox.toList hidle
  obtain ⟨journal, hdispatch⟩ := dispatch_eq hreply
  have htakes := takes_raised (c := c) hcourse.takes
  rw [hdispatch]
  refine ⟨?_, rfl, htakes.pending, next_of_takes htakes⟩
  dsimp only
  split
  · exact .inr ⟨failures, rfl⟩
  · exact .inl ⟨_, rfl⟩

/-! ## Steps -/

/-- How a step comes to its answer : it moves the clock on to `frame`, comes to `e` by its flush,
of which it has `report`, synchronizes all entities and dispatches. -/
structure Steps (c : Coordinator ο σ) (delta : Duration) (answer : Except Error FrameReport)
    (frame : Frame) (report : FlushReport) (e : Coordinator ο σ) : Prop where
  advance : c.frame.advance delta = .ok frame
  /-- In a frame that was flushed there is no flush, and nothing to report of it. -/
  skips : c.frame.flushed = true → e = { c with frame } ∧ report = {}
  flushes : c.frame.flushed = false → { c with frame }.flush = (.ok (.ok report), e)
  dispatches : c.dispatchOf? (.step delta) = some (e.synchronizeAll .bidirectional).2
  ends : ∃ journal,
    (c.step delta).2 = { (e.synchronizeAll .bidirectional).2.dispatch.2 with journal }
  /-- The step succeeds if its dispatch does, and reports on all that was done. -/
  reports : ∀ whole, answer = .ok whole → whole.frame = c.frame.number ∧ whole.flush = report ∧
    whole.sync = (e.synchronizeAll .bidirectional).1 ∧
    (e.synchronizeAll .bidirectional).2.dispatch.1 = .ok whole.dispatch
  /-- If it fails, its dispatch did. -/
  fails : ∀ error, answer = .error error →
    (e.synchronizeAll .bidirectional).2.dispatch.1 = .error error

theorem number_advance {f g : Frame} {delta : Duration} (h : f.advance delta = .ok g) :
    g.number = f.number ∧ g.flushed = f.flushed ∧ g.time.nanos = f.time.nanos + delta.nanos := by
  unfold Frame.advance at h
  split at h
  · cases h
  · rename_i time htime
    cases h
    exact ⟨rfl, rfl, Duration.add?_eq_some htime⟩

theorem steps_of_ok {delta : Duration} {answer : Except Error FrameReport}
    (h : (c.step delta).1 = .ok answer) :
    ∃ frame report e, c.Steps delta answer frame report e := by
  cases hadvance : c.frame.advance delta with
  | error overflow => simp only [step, hadvance, reduceCtorEq] at h
  | ok frame =>
    obtain ⟨hnumber, hflushed, -⟩ := number_advance hadvance
    generalize hresult : flushOnce { c with frame } = x
    obtain ⟨result, e⟩ := x
    obtain ⟨report, rfl⟩ : ∃ report, result = .ok (.ok report) := by
      obtain ⟨overflow, hflush⟩ | hflush := { c with frame }.flushOnce_cases
      all_goals rw [hresult] at hflush
      · obtain rfl : result = .error overflow := hflush
        simp only [step, hadvance, hresult, reduceCtorEq] at h
      · exact hflush
    simp only [step, hadvance, hresult] at h
    refine ⟨frame, report, e, hadvance, fun hf => ?_, fun hf => ?_, ?_, ?_, ?_, ?_⟩
    · rw [flushOnce_of_flushed (hflushed.trans hf)] at hresult
      cases hresult
      exact ⟨rfl, rfl⟩
    · rwa [flushOnce, if_neg (by simp [hflushed, hf])] at hresult
    · simp only [dispatchOf?, stepDispatch?, hadvance, hresult]
    · exact step_of_dispatch (by simp only [stepDispatch?, hadvance, hresult])
    all_goals
      generalize (e.synchronizeAll .bidirectional).2.dispatch = y at h ⊢
      obtain ⟨dispatched, e'⟩ := y
    · intro whole hwhole
      cases dispatched <;> cases h <;> cases hwhole
      exact ⟨hnumber, rfl, rfl, rfl⟩
    · intro error herror
      cases dispatched <;> cases h <;> cases herror
      rfl

/-! ## The clock -/

/-- How an action moves the frame on. -/
structure Turns (f f' : Frame) (a : Action ο σ) : Prop where
  number : f'.number = f.number + if a.endsFrame then 1 else 0
  time : f'.time.nanos = f.time.nanos + a.nanos
  flushed : f'.flushed = (!a.endsFrame && (f.flushed || a.isFlush))

theorem Structural.frame (h : c.Structural d) : d.frame = c.frame := by
  obtain ⟨_, _, _, _, _, _, rfl⟩ := h
  rfl

theorem Structural.queue (h : c.Structural d) : d.queue = c.queue := by
  obtain ⟨_, _, _, _, _, _, rfl⟩ := h
  rfl

theorem queue_synchronizeAll (c : Coordinator ο σ) (direction : Direction) :
    (c.synchronizeAll direction).2.queue = c.queue :=
  (c.structural_synchronizeAll direction).queue

theorem frame_synchronizeAll (c : Coordinator ο σ) (direction : Direction) :
    (c.synchronizeAll direction).2.frame = c.frame.enter .synchronization :=
  (c.structural_synchronizeAll direction).frame

theorem turns_flush (c : Coordinator ο σ) :
    Turns c.frame c.flush.2.frame (.flush : Action ο σ) := by
  cases hf : c.frame.flushed with
  | true =>
    rw [flush_of_flushed hf]
    exact ⟨rfl, rfl, by simp [hf, Action.endsFrame]⟩
  | false =>
    rw [frame_flush hf]
    exact ⟨rfl, rfl, by simp [Action.endsFrame, Action.isFlush]⟩

namespace Steps

variable {delta : Duration} {answer : Except Error FrameReport} {frame : Frame}
  {report : FlushReport} {e : Coordinator ο σ} (h : c.Steps delta answer frame report e)
include h

theorem flushOnce : { c with frame }.flushOnce = (.ok (.ok report), e) := by
  have hflushed := (number_advance h.advance).2.1
  cases hf : c.frame.flushed with
  | true =>
    obtain ⟨rfl, rfl⟩ := h.skips hf
    exact flushOnce_of_flushed (hflushed.trans hf)
  | false => rw [Coordinator.flushOnce, if_neg (by simp [hflushed, hf]), h.flushes hf]

/-- The flush of a step leaves number and time of the frame. -/
theorem frame_eq : e.frame.number = c.frame.number ∧
    e.frame.time.nanos = c.frame.time.nanos + delta.nanos := by
  obtain ⟨hnumber, hflushed, htime⟩ := number_advance h.advance
  cases hf : c.frame.flushed with
  | true =>
    obtain ⟨rfl, -⟩ := h.skips hf
    exact ⟨hnumber, htime⟩
  | false =>
    have hframe := frame_flush (c := { c with frame }) (hflushed.trans hf)
    rw [h.flushes hf] at hframe
    rw [show e.frame = _ from hframe]
    exact ⟨hnumber, htime⟩

theorem idle (hidle : c.switchboard.IsIdle) :
    (e.synchronizeAll .bidirectional).2.switchboard.IsIdle := by
  have hflush := lasting_isIdle.flushOnce (c := { c with frame }) hidle
  rw [h.flushOnce] at hflush
  exact Lasting.synchronizeAll (I := fun s _ => s.IsIdle) .bidirectional hflush

theorem turns (hidle : c.switchboard.IsIdle) :
    Turns c.frame (c.step delta).2.frame (.step delta : Action ο σ) := by
  obtain ⟨journal, hends⟩ := h.ends
  obtain ⟨hnumber, htime⟩ := h.frame_eq
  rw [hends, (dispatch_of_idle (h.idle hidle)).2.1, frame_synchronizeAll]
  exact ⟨congrArg (· + 1) hnumber, htime, rfl⟩

end Steps

/-- Every action that does not overrun moves the frame on like this. -/
theorem turns_act (hidle : c.switchboard.IsIdle) (a : Action ο σ) (h : c.overruns a = false) :
    Turns c.frame (c.act a).frame a := by
  have hsame {a : Action ο σ} {f : Frame} (hends : a.endsFrame = false) (hflush : a.isFlush = false)
      (hnanos : a.nanos = 0) (hf : f.number = c.frame.number ∧ f.time = c.frame.time ∧
        f.flushed = c.frame.flushed) : Turns c.frame f a :=
    ⟨by simp [hends, hf.1], by simp [hnanos, hf.2.1], by simp [hends, hflush, hf.2.2]⟩
  cases a with
  | bind _ | unbind _ | unbindHost _ | reap | addComponent _ _ _ | removeComponent _ _
  | writeComponent _ _ _ | writeWorld _ _ _ | synchronize _ _ =>
    rw [(c.structural_act rfl).frame]
    exact hsame rfl rfl rfl ⟨rfl, rfl, rfl⟩
  | synchronizeAll direction =>
    rw [act, frame_synchronizeAll]
    exact hsame rfl rfl rfl ⟨rfl, rfl, rfl⟩
  | flush => exact c.turns_flush
  | dispatch =>
    rw [act, (dispatch_of_idle hidle).2.1]
    exact ⟨rfl, rfl, rfl⟩
  | advance delta =>
    obtain ⟨frame, hframe⟩ := exists_frame h
    obtain ⟨hnumber, hflushed, htime⟩ := number_advance hframe
    simp only [act, advance, hframe]
    exact ⟨hnumber, htime, by simp [hflushed, Action.endsFrame, Action.isFlush]⟩
  | step delta =>
    obtain ⟨answer, hanswer⟩ := exists_answer h
    obtain ⟨frame, report, e, hsteps⟩ := steps_of_ok hanswer
    exact hsteps.turns hidle
  | delaySignal name entities delay =>
    simp only [act, delaySignal, NamedSignals.schedule]
    split <;> exact hsame rfl rfl rfl ⟨rfl, rfl, rfl⟩
  | surround _ | registerComponent _ | enqueue _ | subscribe _ _ _ | unsubscribe _ _
  | publish _ | subscribeNamed _ _ | unsubscribeNamed _ | signal _ _ | listenForIncidents
  | takeIncidents => exact hsame rfl rfl rfl ⟨rfl, rfl, rfl⟩

/-- Since the last dispatch of a run a flush has succeeded. -/
def FlushedSince (c₀ : Coordinator ο σ) (as : List (Action ο σ)) : Prop :=
  ∃ before after report, as = before ++ .flush :: after ∧
    (c₀.run before).flush.1 = .ok (.ok report) ∧ ∀ a ∈ after, a.endsFrame = false

theorem flushedSince_concat {c₀ : Coordinator ο σ} {as : List (Action ο σ)} {a : Action ο σ} :
    c₀.FlushedSince (as ++ [a]) ↔ a.endsFrame = false ∧
      (c₀.FlushedSince as ∨
        a.isFlush = true ∧ ∃ report, (c₀.run as).flush.1 = .ok (.ok report)) := by
  constructor
  · rintro ⟨before, after, report, heq, hflush, hafter⟩
    induction after using List.reverseRecOn with
    | nil =>
      obtain ⟨rfl, hlast⟩ := List.append_inj' heq rfl
      obtain rfl := List.singleton_injective hlast
      exact ⟨rfl, .inr ⟨rfl, report, hflush⟩⟩
    | append_singleton after b =>
      rw [← List.cons_append, ← List.append_assoc] at heq
      obtain ⟨rfl, hlast⟩ := List.append_inj' heq rfl
      obtain rfl := List.singleton_injective hlast
      exact ⟨hafter a (by simp), .inl ⟨before, after, report, rfl, hflush,
        fun x hx => hafter x (List.mem_append_left _ hx)⟩⟩
  · rintro ⟨hends, ⟨before, after, report, rfl, hflush, hafter⟩ | ⟨hflush, report, hreport⟩⟩
    · refine ⟨before, after ++ [a], report, by simp, hflush, fun x hx => ?_⟩
      rcases List.mem_append.mp hx with hx | hx
      · exact hafter x hx
      · exact List.mem_singleton.mp hx ▸ hends
    · obtain rfl := Action.isFlush_iff.mp hflush
      exact ⟨as, [], report, rfl, hreport, by simp⟩

end Coordinator

/-! ## What is submitted and what is applied -/

/-- A mutation that was submitted in a frame, by a listener while a dispatch was delivering or in
another way. -/
structure Submission where
  pending : Pending
  frame : Nat
  reacting : Bool

/-- The first frame in which a mutation may be applied. -/
def Submission.earliest (s : Submission) : Nat := if s.reacting then s.frame + 1 else s.frame

/-- A mutation that was applied in a frame. -/
structure Application where
  pending : Pending
  frame : Nat

namespace Coordinator

variable {ο σ : Type} [HostObject ο]

/-- What an action submits, in order. -/
def submittedBy (c : Coordinator ο σ) : Action ο σ → List Submission
  | .enqueue mutation => [⟨⟨(c.enqueue mutation).1, mutation⟩, c.frame.number, false⟩]
  | .publish s => (submissions (c.publishing s)).map fun p => ⟨p, c.frame.number, false⟩
  | .signal name entities => (NamedCall.submissions
      (c.named.callsAmong c.registry.isBound name entities) (c.surroundings, c.queue)).map
        fun p => ⟨p, c.frame.number, false⟩
  | a =>
    match c.dispatchOf? a with
    | some d => d.submittedByDispatch.map fun p => ⟨p, d.frame.number, true⟩
    | none => []

/-- What a flush applies, in order, whatever the outcomes. -/
def appliedByFlush (c : Coordinator ο σ) : List Application :=
  c.flushed.map fun a => ⟨a.pending, c.frame.number⟩

/-- What an action applies, in order. -/
def appliedBy (c : Coordinator ο σ) : Action ο σ → List Application
  | .flush => c.appliedByFlush
  | .step delta =>
    match c.frame.advance delta with
    | .error _ => []
    | .ok frame => { c with frame }.appliedByFlush
  | _ => []

/-- All that a run submits, in order. -/
def submitted : Coordinator ο σ → List (Action ο σ) → List Submission
  | _, [] => []
  | c, a :: as => c.submittedBy a ++ (c.act a).submitted as

/-- All that the flushes of a run apply, in order. -/
def applied : Coordinator ο σ → List (Action ο σ) → List Application
  | _, [] => []
  | c, a :: as => c.appliedBy a ++ (c.act a).applied as

theorem submitted_append (c : Coordinator ο σ) (as bs : List (Action ο σ)) :
    c.submitted (as ++ bs) = c.submitted as ++ (c.run as).submitted bs := by
  induction as generalizing c with
  | nil => rfl
  | cons a as ih => rw [List.cons_append, submitted, submitted, run_cons, ih, List.append_assoc]

theorem applied_append (c : Coordinator ο σ) (as bs : List (Action ο σ)) :
    c.applied (as ++ bs) = c.applied as ++ (c.run as).applied bs := by
  induction as generalizing c with
  | nil => rfl
  | cons a as ih => rw [List.cons_append, applied, applied, run_cons, ih, List.append_assoc]

/-- A flush that does not overrun applies all that it was given. -/
theorem applications_pending {ps : List Pending} {report report' : FlushReport}
    {c : Coordinator ο σ} (h : (applyAll ps report c).1 = .ok report') :
    (applications ps c).map Applied.pending = ps := by
  induction ps generalizing report c with
  | nil => rfl
  | cons p ps ih =>
    unfold applyAll at h
    unfold applications
    generalize c.perform p.mutation = x at h ⊢
    obtain ⟨result, d⟩ := x
    cases result with
    | error overflow => cases h
    | ok outcome =>
      dsimp only at h ⊢
      rw [List.map_cons, ← record_snd p report, ih h]

variable {c d : Coordinator ο σ}

theorem appliedByFlush_eq (hq : c.queue.Unbroken) (hf : c.frame.flushed = false)
    {report : FlushReport} (h : c.flush.1 = .ok (.ok report)) :
    c.appliedByFlush = c.queue.pending.toList.map fun p => ⟨p, c.frame.number⟩ := by
  have hall : (applications c.due c.drained).map Applied.pending = c.due := by
    rw [flush_eq hf] at h
    generalize hr : applyAll c.due { reaped := c.flushing.reap.1 } c.drained = r at h
    obtain ⟨result, d⟩ := r
    cases result with
    | error overflow => cases h
    | ok report' => exact applications_pending (congrArg Prod.fst hr)
  have hmap : c.appliedByFlush =
      ((applications c.due c.drained).map Applied.pending).map fun p => ⟨p, c.frame.number⟩ := by
    rw [appliedByFlush, flushed, if_neg (by simp [hf]), List.map_map]
    rfl
  rw [hmap, hall, due_of_unbroken hq]

theorem appliedByFlush_of_flushed (hf : c.frame.flushed = true) : c.appliedByFlush = [] := by
  simp only [appliedByFlush, flushed, hf, ↓reduceIte, List.map_nil]

theorem range_add_eq (m n : Nat) : List.range (m + n) = List.range m ++ List.range' m n := by
  have happend := List.range'_append_1 (s := 0) (m := m) (n := n)
  rw [Nat.zero_add] at happend
  rw [List.range_eq_range', List.range_eq_range', happend]

/-- Submissions and applications so far fit together and with the state : what was applied is the
beginning `old` of what was submitted, and what waits is the rest `new`. -/
structure Balanced (c : Coordinator ο σ) (old new : List Submission) (apps : List Application) :
    Prop where
  applied : List.Forall₂ (fun s a => a.pending = s.pending ∧ s.earliest ≤ a.frame) old apps
  waiting : new.map Submission.pending = c.queue.pending.toList
  ready : ∀ s ∈ new, s.earliest ≤ c.frame.number
  next : c.queue.next = apps.length
  numbered : apps.map (fun a => a.pending.sequence) = List.range apps.length

namespace Balanced

variable {old new : List Submission} {apps : List Application}

/-- A flush applies all that waits. -/
theorem flush (h : c.Balanced old new apps) (hq : c.queue.Unbroken)
    (hf : c.frame.flushed = false) {report : FlushReport} (hr : c.flush.1 = .ok (.ok report)) :
    c.flush.2.Balanced (old ++ new) [] (apps ++ c.appliedByFlush) := by
  have happlied := appliedByFlush_eq hq hf hr
  have hqueue := queue_flush hq hf
  have hlength : c.appliedByFlush.length = c.queue.pending.size := by simp [happlied]
  have hsequence : c.appliedByFlush.map (fun a => a.pending.sequence) =
      List.range' c.queue.next c.queue.pending.size := by
    rw [happlied, List.map_map, ← hq.numbered]
    rfl
  constructor
  case applied =>
    refine List.rel_append h.applied ?_
    rw [happlied, ← h.waiting, List.map_map, List.forall₂_map_right_iff, List.forall₂_same]
    exact fun s hs => ⟨rfl, h.ready s hs⟩
  case waiting => rw [hqueue]; rfl
  case ready => simp
  case next => rw [hqueue, List.length_append, hlength, ← h.next, ← hq.claimed]
  case numbered =>
    rw [List.map_append, h.numbered, hsequence, h.next, List.length_append, hlength,
      range_add_eq]

/-- What is submitted waits behind what waited before. -/
theorem submit (h : c.Balanced old new apps) {ss : List Submission}
    (hqueue : d.queue.pending.toList = c.queue.pending.toList ++ ss.map Submission.pending)
    (hnext : d.queue.next = c.queue.next) (hframe : c.frame.number ≤ d.frame.number)
    (hready : ∀ s ∈ ss, s.earliest ≤ d.frame.number) : d.Balanced old (new ++ ss) apps where
  applied := h.applied
  waiting := by rw [List.map_append, h.waiting, hqueue]
  ready s hs := by
    rcases List.mem_append.mp hs with hs | hs
    · exact Nat.le_trans (h.ready s hs) hframe
    · exact hready s hs
  next := hnext.trans h.next
  numbered := h.numbered

theorem keep (h : c.Balanced old new apps) (hqueue : d.queue = c.queue)
    (hframe : d.frame.number = c.frame.number) : d.Balanced old new apps where
  applied := h.applied
  waiting := hqueue ▸ h.waiting
  ready := hframe ▸ h.ready
  next := hqueue ▸ h.next
  numbered := h.numbered

/-- What a dispatch submits waits for the next frame. -/
theorem dispatch (h : c.Balanced old new apps) (hidle : c.switchboard.IsIdle) :
    c.dispatch.2.Balanced old
      (new ++ c.submittedByDispatch.map fun p => ⟨p, c.frame.number, true⟩) apps := by
  obtain ⟨-, hframe, hqueue, hnext⟩ := dispatch_of_idle hidle
  refine h.submit ?_ hnext ?_ fun s hs => ?_
  · simpa [Function.comp_def] using hqueue
  · rw [hframe]
    exact Nat.le_succ _
  · obtain ⟨p, -, rfl⟩ := List.mem_map.mp hs
    rw [hframe]
    exact Nat.le_refl _

theorem publish (h : c.Balanced old new apps) (s : Signal) :
    (c.publish s).2.Balanced old
      (new ++ (submissions (c.publishing s)).map fun p => ⟨p, c.frame.number, false⟩) apps := by
  have htakes : c.queue.Takes (submissions (c.publishing s)) (c.publish s).2.queue :=
    (c.course_publish s).takes
  refine h.submit ?_ (next_of_takes htakes) (Nat.le_refl _) fun s hs => ?_
  · simpa [Function.comp_def] using htakes.pending
  · obtain ⟨p, -, rfl⟩ := List.mem_map.mp hs
    exact Nat.le_refl _

theorem signal (h : c.Balanced old new apps) (name : String) (entities : List Handle) :
    (c.signal name entities).2.Balanced old
      (new ++ c.submittedBy (.signal name entities)) apps := by
  have htakes := c.takes_signal name entities
  refine h.submit ?_ (next_of_takes htakes) (Nat.le_refl _) fun s hs => ?_
  · simpa [submittedBy, Function.comp_def] using htakes.pending
  · obtain ⟨p, -, rfl⟩ := List.mem_map.mp hs
    exact Nat.le_refl _

theorem step (h : c.Balanced old new apps) (hidle : c.switchboard.IsIdle)
    (hq : c.queue.Unbroken) {delta : Duration} {answer : Except Error FrameReport}
    (hanswer : (c.step delta).1 = .ok answer) :
    ∃ old' new', old' ++ new' = old ++ new ++ c.submittedBy (.step delta) ∧
      (c.step delta).2.Balanced old' new' (apps ++ c.appliedBy (.step delta)) := by
  obtain ⟨frame, report, e, hsteps⟩ := steps_of_ok hanswer
  obtain ⟨hnumber, hflushed, -⟩ := number_advance hsteps.advance
  obtain ⟨journal, hends⟩ := hsteps.ends
  have hmoved : Balanced { c with frame } old new apps := h.keep rfl hnumber
  have happlied : c.appliedBy (.step delta) = appliedByFlush { c with frame } := by
    simp only [appliedBy, hsteps.advance]
  obtain ⟨old', new', hsplit, he⟩ : ∃ old' new', old' ++ new' = old ++ new ∧
      e.Balanced old' new' (apps ++ c.appliedBy (.step delta)) := by
    cases hf : c.frame.flushed with
    | true =>
      obtain ⟨rfl, -⟩ := hsteps.skips hf
      rw [happlied, appliedByFlush_of_flushed (hflushed.trans hf), List.append_nil]
      exact ⟨old, new, rfl, hmoved⟩
    | false =>
      have hflush := hsteps.flushes hf
      have hd := hmoved.flush hq (hflushed.trans hf) (congrArg Prod.fst hflush)
      rw [hflush] at hd
      rw [happlied]
      exact ⟨old ++ new, [], List.append_nil _, hd⟩
  have hsync := he.keep (e.queue_synchronizeAll .bidirectional)
    (by rw [frame_synchronizeAll]; rfl)
  have hd := hsync.dispatch (hsteps.idle hidle)
  rw [hends]
  exact ⟨old', _, by
    rw [← List.append_assoc, hsplit]
    simp only [submittedBy, hsteps.dispatches], hd.keep rfl rfl⟩

/-- Submissions and applications are balanced after an action as well. -/
theorem act (h : c.Balanced old new apps) (hidle : c.switchboard.IsIdle)
    (hq : c.queue.Unbroken) (a : Action ο σ) (ha : c.overruns a = false) :
    ∃ old' new', old' ++ new' = old ++ new ++ c.submittedBy a ∧
      (c.act a).Balanced old' new' (apps ++ c.appliedBy a) := by
  have hsubmits {d : Coordinator ο σ} {ss : List Submission}
      (hd : d.Balanced old (new ++ ss) apps) : ∃ old' new',
        old' ++ new' = old ++ new ++ ss ∧ d.Balanced old' new' (apps ++ []) :=
    ⟨old, new ++ ss, (List.append_assoc ..).symm, by rwa [List.append_nil]⟩
  have hkeeps {d : Coordinator ο σ} (hqueue : d.queue = c.queue)
      (hframe : d.frame.number = c.frame.number) : ∃ old' new',
        old' ++ new' = old ++ new ++ [] ∧ d.Balanced old' new' (apps ++ []) :=
    hsubmits (by rw [List.append_nil]; exact h.keep hqueue hframe)
  cases a with
  | bind _ | unbind _ | unbindHost _ | reap | addComponent _ _ _ | removeComponent _ _
  | writeComponent _ _ _ | writeWorld _ _ _ | synchronize _ _ =>
    exact hkeeps (c.structural_act rfl).queue (congrArg Frame.number (c.structural_act rfl).frame)
  | synchronizeAll direction =>
    exact hkeeps (c.queue_synchronizeAll direction)
      (by rw [Coordinator.act, frame_synchronizeAll]; rfl)
  | enqueue m =>
    refine hsubmits (h.submit Array.toList_push rfl (Nat.le_refl _) fun s hs => ?_)
    obtain rfl := List.mem_singleton.mp hs
    exact Nat.le_refl _
  | flush =>
    cases hf : c.frame.flushed with
    | true =>
      rw [Coordinator.act, flush_of_flushed hf, appliedBy, appliedByFlush_of_flushed hf]
      exact hkeeps rfl rfl
    | false =>
      obtain ⟨report, hreport⟩ := flush_of_open hf (by simpa [overruns] using ha)
      exact ⟨old ++ new, [], rfl, h.flush hq hf hreport⟩
  | dispatch => exact hsubmits (h.dispatch hidle)
  | publish s => exact hsubmits (h.publish s)
  | signal name entities => exact hsubmits (h.signal name entities)
  | advance delta =>
    obtain ⟨frame, hframe⟩ := exists_frame ha
    simp only [Coordinator.act, advance, hframe]
    exact hkeeps rfl (number_advance hframe).1
  | step delta =>
    obtain ⟨answer, hanswer⟩ := exists_answer ha
    exact h.step hidle hq hanswer
  | delaySignal name entities delay =>
    simp only [Coordinator.act, delaySignal, NamedSignals.schedule]
    split <;> exact hkeeps rfl rfl
  | surround _ | registerComponent _ | subscribe _ _ _ | unsubscribe _ _
  | subscribeNamed _ _ | unsubscribeNamed _ | listenForIncidents
  | takeIncidents => exact hkeeps rfl rfl

end Balanced

/-! ## Whole runs -/

/-- How a run keeps its frames apart. -/
structure Disciplined (c₀ : Coordinator ο σ) (as : List (Action ο σ)) : Prop where
  /-- The number of the frame counts the dispatches so far, inside and outside steps, -/
  number : (c₀.run as).frame.number = as.countP Action.endsFrame
  /-- and a dispatch returns with a report or with the failures of listeners. -/
  dispatch : (∃ report, (c₀.run as).dispatch.1 = .ok report) ∨
    ∃ failures, (c₀.run as).dispatch.1 = .error (.listenerFailure failures)
  /-- The clock is the sum of all deltas. -/
  time : (c₀.run as).frame.time.nanos = (as.map Action.nanos).sum
  /-- The frame is marked as flushed if a flush has succeeded since the last dispatch. -/
  flushed : (c₀.run as).frame.flushed = true ↔ c₀.FlushedSince as
  /-- Then a flush is refused, -/
  refused : c₀.FlushedSince as → (c₀.run as).flush =
    (.ok (.error (.alreadyFlushed (c₀.run as).frame.number)), c₀.run as)
  /-- otherwise it succeeds, if it does not overrun, and nothing waits after it. -/
  succeeds : ¬c₀.FlushedSince as → ∀ answer, (c₀.run as).flush.1 = .ok answer →
    (∃ report, answer = .ok report) ∧ (c₀.run as).flush.2.queue.pending = #[]
  /-- A step that does not overrun flushes unless the frame is marked, -/
  step : ∀ delta answer, ((c₀.run as).step delta).1 = .ok answer →
    ∃ frame report e, (c₀.run as).Steps delta answer frame report e
  /-- and fails only with the failures of listeners. -/
  fails : ∀ delta error, ((c₀.run as).step delta).1 = .ok (.error error) →
    ∃ failures, error = .listenerFailure failures
  /-- Mutations are submitted under the numbers from zero on. -/
  numbered : (c₀.submitted as).map (fun s => s.pending.sequence) =
    List.range (c₀.submitted as).length
  /-- What flushes have applied, and behind it what waits, is all that was submitted, in order, -/
  applied : (c₀.applied as).map Application.pending ++ (c₀.run as).queue.pending.toList =
    (c₀.submitted as).map Submission.pending
  /-- so what was submitted waits or was applied once, -/
  once : ∀ s ∈ c₀.submitted as,
    (s.pending ∈ (c₀.run as).queue.pending.toList ∧
      ∀ a ∈ c₀.applied as, a.pending ≠ s.pending) ∨
    (s.pending ∉ (c₀.run as).queue.pending.toList ∧
      ∃! a, a ∈ c₀.applied as ∧ a.pending = s.pending)
  /-- and that not before the next frame if a listener submitted it at a dispatch. -/
  later : ∀ s ∈ c₀.submitted as, ∀ a ∈ c₀.applied as, a.pending = s.pending →
    s.frame ≤ a.frame ∧ (s.reacting = true → s.frame < a.frame)

namespace Balanced

variable {old new : List Submission} {apps : List Application}

theorem pending_old (h : c.Balanced old new apps) :
    apps.map Application.pending = old.map Submission.pending := by
  have happlied := h.applied
  clear h
  induction happlied with
  | nil => rfl
  | cons hfirst _ ih => rw [List.map_cons, List.map_cons, hfirst.1, ih]

theorem all (h : c.Balanced old new apps) :
    apps.map Application.pending ++ c.queue.pending.toList =
      (old ++ new).map Submission.pending := by
  rw [List.map_append, h.pending_old, h.waiting]

/-- What is applied was submitted early enough. -/
theorem exists_submission (h : c.Balanced old new apps) {a : Application} (ha : a ∈ apps) :
    ∃ s ∈ old, a.pending = s.pending ∧ s.earliest ≤ a.frame := by
  have happlied := h.applied
  clear h
  induction happlied with
  | nil => cases ha
  | @cons s _ _ _ hfirst _ ih =>
    rcases List.mem_cons.mp ha with rfl | ha
    · exact ⟨s, List.mem_cons_self, hfirst⟩
    · obtain ⟨t, ht, hpair⟩ := ih ha
      exact ⟨t, List.mem_cons_of_mem s ht, hpair⟩

variable (hq : c.queue.Unbroken)
include hq

theorem numbers (h : c.Balanced old new apps) :
    (old ++ new).map (fun s => s.pending.sequence) = List.range (old ++ new).length := by
  have hall := congrArg (List.map Pending.sequence) h.all
  have hlength := congrArg List.length h.all
  simp only [List.map_append, List.map_map, hq.numbered, h.next] at hall
  simp only [List.length_append, List.length_map, Array.length_toList] at hlength
  rw [List.map_append, List.length_append, ← hlength, range_add_eq, ← h.numbered]
  exact hall.symm

/-- A mutation is known by its number. -/
theorem eq_of_sequence (h : c.Balanced old new apps) {s t : Submission} (hs : s ∈ old ++ new)
    (ht : t ∈ old ++ new) (heq : s.pending = t.pending) : s = t := by
  have hnodup : ((old ++ new).map fun s => s.pending.sequence).Nodup :=
    h.numbers hq ▸ List.nodup_range
  exact List.inj_on_of_nodup_map hnodup hs ht (congrArg Pending.sequence heq)

theorem once (h : c.Balanced old new apps) {s : Submission} (hs : s ∈ old ++ new) :
    (s.pending ∈ c.queue.pending.toList ∧ ∀ a ∈ apps, a.pending ≠ s.pending) ∨
    (s.pending ∉ c.queue.pending.toList ∧ ∃! a, a ∈ apps ∧ a.pending = s.pending) := by
  have hnodup : ((old ++ new).map fun s => s.pending.sequence).Nodup :=
    h.numbers hq ▸ List.nodup_range
  have hdisjoint : ∀ t ∈ old, ∀ u ∈ new, t ≠ u := 
    (List.nodup_append.mp (List.Nodup.of_map _ hnodup)).2.2
  rcases List.mem_append.mp hs with hold | hnew
  · refine .inr ⟨fun hmem => ?_, ?_⟩
    · rw [← h.waiting] at hmem
      obtain ⟨t, ht, heq⟩ := List.mem_map.mp hmem
      obtain rfl := h.eq_of_sequence hq (List.mem_append_right _ ht) hs heq
      exact hdisjoint t hold t ht rfl
    · have hmem : s.pending ∈ apps.map Application.pending :=
        h.pending_old ▸ List.mem_map_of_mem hold
      obtain ⟨a, ha, heq⟩ := List.mem_map.mp hmem
      refine ⟨a, ⟨ha, heq⟩, fun b hb => ?_⟩
      have happs : (apps.map fun a => a.pending.sequence).Nodup := h.numbered ▸ List.nodup_range
      exact List.inj_on_of_nodup_map happs hb.1 ha
        (congrArg Pending.sequence (hb.2.trans heq.symm))
  · refine .inl ⟨h.waiting ▸ List.mem_map_of_mem hnew, fun a ha heq => ?_⟩
    obtain ⟨t, ht, hpair, -⟩ := h.exists_submission ha
    obtain rfl := h.eq_of_sequence hq hs (List.mem_append_left _ ht) (heq.symm.trans hpair)
    exact hdisjoint s ht s hnew rfl

theorem later (h : c.Balanced old new apps) {s : Submission} (hs : s ∈ old ++ new)
    {a : Application} (ha : a ∈ apps) (heq : a.pending = s.pending) :
    s.frame ≤ a.frame ∧ (s.reacting = true → s.frame < a.frame) := by
  obtain ⟨t, ht, hpair, hearliest⟩ := h.exists_submission ha
  obtain rfl := h.eq_of_sequence hq hs (List.mem_append_left _ ht) (heq.symm.trans hpair)
  rw [Submission.earliest] at hearliest
  split at hearliest
  · exact ⟨Nat.le_of_succ_le hearliest, fun _ => hearliest⟩
  · exact ⟨hearliest, fun hreacting => absurd hreacting ‹_›⟩

end Balanced

section Runs

variable {c₀ : Coordinator ο σ} {as : List (Action ο σ)}

theorem balanced_run (hidle : c₀.switchboard.IsIdle) (hqueue : c₀.queue = {})
    (h : c₀.Timely as) : ∃ old new, old ++ new = c₀.submitted as ∧
      (c₀.run as).Balanced old new (c₀.applied as) := by
  induction as using List.reverseRecOn with
  | nil =>
    refine ⟨[], [], rfl, .nil, ?_, by simp, ?_, rfl⟩ <;> rw [run_nil, hqueue] <;> rfl
  | append_singleton as a ih =>
    obtain ⟨htimely, ha, -⟩ := (timely_append c₀ as [a]).mp h
    obtain ⟨old, new, hsplit, hbalanced⟩ := ih htimely
    obtain ⟨old', new', hsplit', hbalanced'⟩ := hbalanced.act (lasting_isIdle.run as hidle)
      (lasting_unbroken.run as (hqueue ▸ MutationQueue.unbroken_empty)) a ha
    rw [submitted_append, applied_append, run_append]
    refine ⟨old', new', ?_, ?_⟩
    · rw [hsplit', hsplit, submitted, submitted, List.append_nil]
    · rwa [applied, applied, List.append_nil]

theorem frame_run (hidle : c₀.switchboard.IsIdle) (hframe : c₀.frame = {}) (h : c₀.Timely as) :
    (c₀.run as).frame.number = as.countP Action.endsFrame ∧
      (c₀.run as).frame.time.nanos = (as.map Action.nanos).sum ∧
      ((c₀.run as).frame.flushed = true ↔ c₀.FlushedSince as) := by
  induction as using List.reverseRecOn with
  | nil =>
    rw [run_nil, hframe]
    refine ⟨rfl, rfl, by simp, ?_⟩
    rintro ⟨before, after, report, heq, -⟩
    simp at heq
  | append_singleton as a ih =>
    obtain ⟨htimely, ha, -⟩ := (timely_append c₀ as [a]).mp h
    obtain ⟨hnumber, htime, hflushed⟩ := ih htimely
    have hturns := turns_act (lasting_isIdle.run as hidle) a ha
    rw [run_append, run_cons, run_nil, flushedSince_concat]
    refine ⟨?_, ?_, ?_⟩
    · rw [hturns.number, hnumber, List.countP_append, List.countP_singleton]
    · rw [hturns.time, htime, List.map_append, List.sum_append, List.map_singleton,
        List.sum_singleton]
    · rw [hturns.flushed, Bool.and_eq_true, Bool.or_eq_true, Bool.not_eq_true', hflushed]
      refine and_congr_right fun _ => ⟨?_, ?_⟩
      · rintro (hsince | hflush)
        · exact .inl hsince
        · obtain rfl := Action.isFlush_iff.mp hflush
          cases hf : (c₀.run as).frame.flushed with
          | true => exact .inl (hflushed.mp hf)
          | false => exact .inr ⟨rfl, flush_of_open hf (by simpa [overruns] using ha)⟩
      · exact Or.imp_right And.left

theorem disciplined_of_new (hidle : c₀.switchboard.IsIdle) (hframe : c₀.frame = {})
    (hqueue : c₀.queue = {}) (h : c₀.Timely as) : c₀.Disciplined as := by
  obtain ⟨hnumber, htime, hflushed⟩ := frame_run hidle hframe h
  obtain ⟨old, new, hsplit, hbalanced⟩ := balanced_run hidle hqueue h
  have hidle' := lasting_isIdle.run as hidle
  have hq := lasting_unbroken.run as (hqueue ▸ MutationQueue.unbroken_empty)
  constructor
  case number => exact hnumber
  case dispatch => exact (dispatch_of_idle hidle').1
  case time => exact htime
  case flushed => exact hflushed
  case refused => exact fun hsince => flush_of_flushed (hflushed.mpr hsince)
  case succeeds =>
    intro hsince answer hanswer
    have hf : (c₀.run as).frame.flushed = false := by
      rwa [← hflushed, Bool.not_eq_true] at hsince
    obtain ⟨report, hreport⟩ := flush_of_open hf (by rw [hanswer]; rfl)
    refine ⟨⟨report, Except.ok.inj (hanswer.symm.trans hreport)⟩, ?_⟩
    rw [queue_flush hq hf]
  case step => exact fun _ _ => steps_of_ok
  case fails =>
    intro delta error herror
    obtain ⟨frame, report, e, hsteps⟩ := steps_of_ok herror
    obtain ⟨⟨dispatch, hdispatch⟩ | ⟨failures, hdispatch⟩, -⟩ :=
      dispatch_of_idle (hsteps.idle hidle')
    · cases (hsteps.fails error rfl).symm.trans hdispatch
    · exact ⟨failures, Except.error.inj ((hsteps.fails error rfl).symm.trans hdispatch)⟩
  all_goals rw [← hsplit]
  case numbered => exact hbalanced.numbers hq
  case applied => exact hbalanced.all
  case once => exact fun s hs => hbalanced.once hq hs
  case later => exact fun s hs a ha heq => hbalanced.later hq hs ha heq

end Runs

/-- Whatever operations are mixed, in a run that does not run over the clock

* frame number and clock count the dispatches and the deltas;
* a flush succeeds exactly if none has since the last dispatch, and a step flushes exactly then;
* every mutation is applied by one flush at most and waits until then, and what a listener submits
  at a dispatch is applied in a later frame. -/
theorem disciplined_run (table : Table) (settings : Settings) (surroundings : Surroundings ο σ)
    (journal : Journal) (as : List (Action ο σ))
    (h : (withTable table settings surroundings journal).Timely as) :
    (withTable table settings surroundings journal).Disciplined as :=
  disciplined_of_new (idle_run table settings surroundings journal []) rfl rfl h

/-- A host object is bound by a flush; when that is dispatched a listener asks for its end, which
comes with the next step. -/
def farewell : List (Action PropertyBag Unit) :=
  [.subscribe .lifecycle .entityCreated fun _ _ ambient =>
      .enqueue (.destroy (.host ⟨7⟩)) fun _ => .done (.ok ()) ambient,
    .enqueue (.create ⟨⟨7⟩, 0⟩), .flush, .flush, .dispatch, .step ⟨1, by decide⟩]

theorem disciplined_run_farewell :
    sample.Timely farewell ∧ (sample.run farewell).frame.number = 2 ∧
      (sample.run farewell).frame.time.nanos = 1 ∧
      (sample.submitted farewell).map Submission.earliest = [0, 1] ∧
      (sample.applied farewell).map Application.frame = [0, 1] ∧
      ¬sample.FlushedSince farewell := by
  have htimely : sample.Timely farewell := by decide +kernel
  have h : sample.Disciplined farewell := disciplined_run sample.table sample.settings
    sample.surroundings sample.journal farewell htimely
  refine ⟨htimely, h.number, h.time, by decide +kernel, by decide +kernel, ?_⟩
  rw [← h.flushed]
  decide +kernel

end Coordinator

end Tether
