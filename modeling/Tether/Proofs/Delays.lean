import Mathlib.Data.List.Induction
import Tether.Proofs.Dispatches

/-!
# Signals that wait

A run has a timeline : the signals that it schedules, by a call or by a flush that applies a
mutation, and its dispatches, in order (`Coordinator.timeline`). The fate of a scheduled signal
is the first dispatch from then on whose clock has reached its time, if there is one
(`fatesFrom`).

`Coordinator.delays_run` says that this is what happens : every dispatch takes off the schedule
exactly the signals whose fate it is, in the order in which they were scheduled, and raises each of
them once for those of its entities that are bound, or not at all if none is; what still waits in
the end are the signals without a fate.
-/

set_option linter.unusedSectionVars false

namespace Tether

variable {ο σ : Type}

/-! ## Fates -/

/-- What befalls the signals that wait : one is scheduled, or a dispatch begins in some state. -/
inductive Beat (ο σ : Type)
  | scheduled (d : Delayed)
  | dispatched (c : Coordinator ο σ)

namespace Beat

/-- Whether a dispatch comes late enough for a signal. -/
def takes (d : Delayed) : Beat ο σ → Bool
  | .scheduled _ => false
  | .dispatched c => d.due.le c.frame.time

/-- What waits after a beat. -/
def next (ds : List Delayed) : Beat ο σ → List Delayed
  | .scheduled d => ds ++ [d]
  | .dispatched c => ds.filter fun d => !d.due.le c.frame.time

end Beat

/-- The signals that a timeline schedules, each with the place of the first dispatch from then on
that comes late enough, where the timeline begins at place `n`. -/
def fatesFrom : Nat → List (Beat ο σ) → List (Delayed × Option Nat)
  | _, [] => []
  | n, .scheduled d :: later =>
    (d, (later.findIdx? (Beat.takes d)).map (n + 1 + ·)) :: fatesFrom (n + 1) later
  | n, .dispatched _ :: later => fatesFrom (n + 1) later

/-- The signals of a timeline with a given fate, in the order in which they were scheduled. -/
def withFate (fate : Option Nat) (fates : List (Delayed × Option Nat)) : List Delayed :=
  (fates.filter fun f => f.2 = fate).map Prod.fst

/-- The signals that are taken at a place of a timeline. -/
def takenAt (j : Nat) (bs : List (Beat ο σ)) : List Delayed := withFate (some j) (fatesFrom 0 bs)

/-- The signals that are taken nowhere in a timeline. -/
def untaken (bs : List (Beat ο σ)) : List Delayed := withFate none (fatesFrom 0 bs)

theorem withFate_cons (fate : Option Nat) (f : Delayed × Option Nat)
    (fs : List (Delayed × Option Nat)) : withFate fate (f :: fs) =
      (if f.2 = fate then [f.1] else []) ++ withFate fate fs := by
  unfold withFate
  rw [List.filter_cons]
  split <;> simp_all

/-- A signal waits from one beat to the next unless it is taken there. -/
theorem untaken_concat (n : Nat) (bs : List (Beat ο σ)) (b : Beat ο σ) :
    withFate none (fatesFrom n (bs ++ [b])) = b.next (withFate none (fatesFrom n bs)) := by
  induction bs generalizing n with
  | nil =>
    cases b with
    | scheduled d => rfl
    | dispatched c => rfl
  | cons first bs ih =>
    cases first with
    | dispatched c => exact ih (n + 1)
    | scheduled d =>
      rw [List.cons_append, fatesFrom, fatesFrom, withFate_cons, withFate_cons, ih,
        List.findIdx?_append]
      cases hfirst : bs.findIdx? (Beat.takes d) with
      | some k => simp
      | none =>
        cases b with
        | scheduled e => simp [Beat.next, Beat.takes, List.findIdx?_cons]
        | dispatched c =>
          cases hdue : d.due.le c.frame.time <;>
            simp [Beat.next, Beat.takes, List.findIdx?_cons, hdue]

theorem place_lt {n j : Nat} {d : Delayed} {bs : List (Beat ο σ)}
    (h : (d, some j) ∈ fatesFrom n bs) : n < j := by
  induction bs generalizing n with
  | nil => simp [fatesFrom] at h
  | cons first bs ih =>
    cases first with
    | dispatched c => exact Nat.lt_of_succ_lt (ih h)
    | scheduled e =>
      rw [fatesFrom, List.mem_cons] at h
      rcases h with h | h
      · obtain ⟨k, -, rfl⟩ := Option.map_eq_some_iff.mp (Prod.mk.inj h).2.symm
        omega
      · exact Nat.lt_of_succ_lt (ih h)

/-- A dispatch takes what waits when it begins and is due then. -/
theorem taken_dispatched (n : Nat) (before after : List (Beat ο σ)) (c : Coordinator ο σ) :
    withFate (some (n + before.length)) (fatesFrom n (before ++ .dispatched c :: after)) =
      (withFate none (fatesFrom n before)).filter fun d => d.due.le c.frame.time := by
  induction before generalizing n with
  | nil =>
    refine List.map_eq_nil_iff.mpr (List.filter_eq_nil_iff.mpr ?_)
    rintro ⟨d, fate⟩ hd heq
    obtain rfl : fate = some n := of_decide_eq_true heq
    exact absurd (place_lt (show (d, some n) ∈ fatesFrom (n + 1) after from hd)) (by omega)
  | cons first before ih =>
    have hplace : n + (before.length + 1) = n + 1 + before.length := by omega
    cases first with
    | dispatched e =>
      rw [List.length_cons, hplace]
      exact ih (n + 1)
    | scheduled d =>
      rw [List.length_cons, hplace, List.cons_append, fatesFrom, fatesFrom, withFate_cons,
        withFate_cons, ih, List.findIdx?_append]
      cases hfirst : before.findIdx? (Beat.takes d) with
      | some k =>
        have hk : k < before.length := by
          obtain ⟨hk, -⟩ := List.findIdx?_eq_some_iff_getElem.mp hfirst
          exact hk
        simp
        omega
      | none =>
        cases hdue : d.due.le c.frame.time with
        | true => simp [Beat.takes, List.findIdx?_cons, hdue]
        | false =>
          cases hafter : after.findIdx? (Beat.takes d) <;>
            simp [Beat.takes, List.findIdx?_cons, hdue, hafter]

theorem untaken_eq_foldl (bs : List (Beat ο σ)) : untaken bs = bs.foldl Beat.next [] := by
  induction bs using List.reverseRecOn with
  | nil => rfl
  | append_singleton bs b ih =>
    rw [List.foldl_append, ← ih]
    exact untaken_concat 0 bs b

/-- A timeline leads from the signals that wait before it to those that wait after it, and every
dispatch of it begins between operations with the signals that wait then. -/
def Follows : List Delayed → List (Beat ο σ) → List Delayed → Prop
  | ds, [], ds' => ds' = ds
  | ds, b :: bs, ds' =>
    (∀ c, b = .dispatched c → c.named.delayed = ds ∧ c.switchboard.IsIdle) ∧
      Follows (b.next ds) bs ds'

namespace Follows

variable {ds ds' ds'' : List Delayed} {bs bs' : List (Beat ο σ)}

theorem append (h : Follows ds bs ds') (h' : Follows ds' bs' ds'') :
    Follows ds (bs ++ bs') ds'' := by
  induction bs generalizing ds with
  | nil => exact h ▸ h'
  | cons b bs ih => exact ⟨h.1, ih h.2⟩

theorem eq_foldl (h : Follows ds bs ds') : ds' = bs.foldl Beat.next ds := by
  induction bs generalizing ds with
  | nil => exact h
  | cons b bs ih => exact ih h.2

theorem of_split {before after : List (Beat ο σ)} {c : Coordinator ο σ}
    (h : Follows ds (before ++ .dispatched c :: after) ds') :
    c.named.delayed = before.foldl Beat.next ds ∧ c.switchboard.IsIdle := by
  induction before generalizing ds with
  | nil => exact h.1 c rfl
  | cons b before ih => exact ih h.2

theorem scheduled (ds new : List Delayed) :
    Follows ds (new.map Beat.scheduled : List (Beat ο σ)) (ds ++ new) := by
  induction new generalizing ds with
  | nil => exact List.append_nil ds
  | cons d new ih =>
    refine ⟨fun c hc => (nomatch hc), ?_⟩
    have hrest := ih (ds ++ [d])
    rwa [List.append_assoc, List.singleton_append] at hrest

end Follows

/-! ## Timelines -/

/-- The signal that is scheduled for a delay from now on, if there is a time for it. -/
def Delayed.after? (now : Duration) (name : String) (entities : List Handle)
    (delay : Duration) : Option Delayed :=
  (now.add? delay).map fun due => ⟨name, entities, due⟩

/-- What a mutation schedules. A signal without a delay is for now. -/
def Mutation.scheduled? (now : Duration) : Mutation → Option Delayed
  | .signal name entities delay => Delayed.after? now name entities (delay.getD .zero)
  | _ => none

/-- Whether an action neither goes to listeners by itself nor hands over what they share. -/
def Action.isQuiet : Action ο σ → Bool
  | .surround _ | .publish _ | .signal _ _ => false
  | _ => true

namespace Coordinator

variable [HostObject ο]

/-- What a flush schedules : the signals among the mutations that it applies. -/
def scheduledByFlush (c : Coordinator ο σ) : List Delayed :=
  c.flushed.filterMap fun a => a.pending.mutation.scheduled? c.frame.time

/-- The state in which a step dispatches, if it comes so far : after its flush and the
synchronization of all entities. -/
def stepDispatch? (c : Coordinator ο σ) (delta : Duration) : Option (Coordinator ο σ) :=
  match c.frame.advance delta with
  | .error _ => none
  | .ok frame =>
    match { c with frame }.flushOnce with
    | (.ok (.ok _), d) => some (d.synchronizeAll .bidirectional).2
    | _ => none

/-- What an action schedules, in order. -/
def schedules (c : Coordinator ο σ) : Action ο σ → List Delayed
  | .delaySignal name entities delay =>
    (Delayed.after? c.frame.time name entities delay).toList
  | .flush => c.scheduledByFlush
  | .step delta =>
    match c.frame.advance delta with
    | .error _ => []
    | .ok frame => { c with frame }.scheduledByFlush
  | _ => []

/-- The state in which an action dispatches, if it does. -/
def dispatchOf? (c : Coordinator ο σ) : Action ο σ → Option (Coordinator ο σ)
  | .dispatch => some c
  | .step delta => c.stepDispatch? delta
  | _ => none

/-- What an action does to the signals that wait : it schedules, and then dispatches. -/
def beats (c : Coordinator ο σ) (a : Action ο σ) : List (Beat ο σ) :=
  (c.schedules a).map .scheduled ++ (c.dispatchOf? a).toList.map .dispatched

/-- All that a run does to the signals that wait, in order. -/
def timeline : Coordinator ο σ → List (Action ο σ) → List (Beat ο σ)
  | _, [] => []
  | c, a :: as => c.beats a ++ (c.act a).timeline as

/-! ## The schedule along a run -/

section Schedule

variable {c d : Coordinator ο σ}

theorem Structural.named (h : c.Structural d) : d.named = c.named := by
  obtain ⟨_, _, _, _, _, _, rfl⟩ := h
  rfl

theorem Structural.ambient (h : c.Structural d) :
    d.surroundings.ambient = c.surroundings.ambient := by
  obtain ⟨_, _, _, _, _, _, rfl⟩ := h
  rfl

theorem delayed_delaySignal (c : Coordinator ο σ) (name : String) (entities : List Handle)
    (delay : Duration) : (c.delaySignal name entities delay).2.named.delayed =
      c.named.delayed ++
        (Delayed.after? c.frame.time name entities delay).toList := by
  simp only [delaySignal, NamedSignals.schedule, NamedSignals.delay, raising, Delayed.after?]
  cases c.frame.time.add? delay with
  | none => exact (List.append_nil _).symm
  | some due => rfl

theorem delayed_perform (c : Coordinator ο σ) (m : Mutation) :
    (c.perform m).2.named.delayed =
      c.named.delayed ++ (m.scheduled? c.frame.time).toList := by
  have hkept {d : Coordinator ο σ} (h : c.Structural d) :
      d.named.delayed = c.named.delayed ++ [] := by rw [h.named, List.append_nil]
  cases m with
  | create host => exact hkept (c.structural_bind host)
  | destroy target =>
    cases target with
    | handle h => exact hkept (c.structural_unbind h)
    | host id => exact hkept (c.structural_unbindHost id)
  | addComponent h id value => exact hkept (c.structural_addComponent h id value)
  | removeComponent h id => exact hkept (c.structural_removeComponent h id)
  | signal name entities delay => exact c.delayed_delaySignal name entities _

/-- Where the clock runs over nothing is scheduled. -/
theorem scheduled_of_overflow (c : Coordinator ο σ) (m : Mutation) (overflow : ClockOverflow)
    (h : (c.perform m).1 = .error overflow) : m.scheduled? c.frame.time = none := by
  cases m with
  | signal name entities delay =>
    simp only [perform, delaySignal, NamedSignals.schedule, NamedSignals.delay, raising] at h
    simp only [Mutation.scheduled?, Delayed.after?, Option.map_eq_none_iff]
    cases hadd : c.frame.time.add? (delay.getD .zero) with
    | none => rfl
    | some due =>
      rw [hadd] at h
      cases h
  | _ => rfl

theorem delayed_applyAll (ps : List Pending) (report : FlushReport) (c : Coordinator ο σ) :
    (applyAll ps report c).2.named.delayed = c.named.delayed ++
      (applications ps c).filterMap fun a => a.pending.mutation.scheduled? c.frame.time := by
  induction ps generalizing report c with
  | nil => exact (List.append_nil _).symm
  | cons p ps ih =>
    have hdelayed := c.delayed_perform p.mutation
    have hframe : (c.perform p.mutation).2.frame = c.frame :=
      congrArg Rest.frame (c.rest_perform p.mutation)
    have hscheduled := c.scheduled_of_overflow p.mutation
    unfold applications applyAll
    generalize c.perform p.mutation = x at hdelayed hframe hscheduled
    obtain ⟨result, d⟩ := x
    cases result with
    | error overflow =>
      rw [hscheduled overflow rfl] at hdelayed
      exact hdelayed
    | ok outcome =>
      obtain ⟨hcore, hrest⟩ := record_core p report outcome d
      have hd : (record p report outcome d).2.named.delayed = d.named.delayed :=
        congrArg Core.delayed hcore
      have hf : (record p report outcome d).2.frame = c.frame :=
        (congrArg Rest.frame hrest).trans hframe
      dsimp only
      rw [ih, hd, hf, hdelayed, ← record_snd p report, List.append_assoc, List.filterMap_cons]
      cases p.mutation.scheduled? c.frame.time <;> rfl

theorem delayed_flush (c : Coordinator ο σ) :
    c.flush.2.named.delayed = c.named.delayed ++ c.scheduledByFlush := by
  cases hf : c.frame.flushed with
  | true =>
    simp only [flush, scheduledByFlush, flushed, hf, ↓reduceIte]
    exact (List.append_nil _).symm
  | false =>
    have hall := delayed_applyAll c.due { reaped := c.flushing.reap.1 } c.drained
    have hreap := c.flushing.structural_reap
    have hnamed : c.drained.named = c.named := by
      unfold drained
      exact hreap.named
    rw [hnamed, frame_drained] at hall
    rw [flush_eq hf]
    simp only [scheduledByFlush, flushed, hf, Bool.false_eq_true, ↓reduceIte]
    generalize applyAll c.due { reaped := c.flushing.reap.1 } c.drained = r at hall ⊢
    obtain ⟨result, d⟩ := r
    cases result <;> exact hall

theorem delayed_flushOnce (c : Coordinator ο σ) :
    c.flushOnce.2.named.delayed = c.named.delayed ++ c.scheduledByFlush := by
  have hflush := c.delayed_flush
  cases hf : c.frame.flushed with
  | true =>
    rw [flushOnce_of_flushed hf]
    simp only [flush, hf, ↓reduceIte] at hflush
    exact hflush
  | false =>
    simp only [flushOnce, hf, Bool.false_eq_true, ↓reduceIte]
    exact hflush

/-- Of the signals that wait a dispatch leaves those that are not due. -/
theorem delayed_dispatch (hidle : c.switchboard.IsIdle) :
    c.dispatch.2.named.delayed = c.named.delayed.filter fun d => !d.due.le c.frame.time := by
  obtain ⟨failures, hreply, -⟩ := delivers_publishAll (c := c.reacting) c.outbox.toList hidle
  obtain ⟨journal, hdispatch⟩ := dispatch_eq hreply
  rw [hdispatch]

theorem follows_dispatch (hidle : c.switchboard.IsIdle) :
    Follows c.named.delayed [.dispatched c] c.dispatch.2.named.delayed := by
  refine ⟨fun d hd => ?_, delayed_dispatch hidle⟩
  cases hd
  exact ⟨rfl, hidle⟩

/-- Once its clock has moved on, a step ends with its flush or comes to dispatch. -/
theorem step_cases {delta : Duration} {frame : Frame} (h : c.frame.advance delta = .ok frame) :
    (c.stepDispatch? delta = none ∧ (c.step delta).2 = { c with frame }.flushOnce.2 ∧
      ∀ whole, (c.step delta).1 ≠ .ok (.ok whole)) ∨
    ∃ d, d = ({ c with frame }.flushOnce.2.synchronizeAll .bidirectional).2 ∧
      c.stepDispatch? delta = some d ∧
      (∃ journal, (c.step delta).2 = { d.dispatch.2 with journal }) ∧
      ∀ whole, (c.step delta).1 = .ok (.ok whole) → d.dispatch.1 = .ok whole.dispatch := by
  simp only [stepDispatch?, step, h]
  generalize flushOnce { c with frame } = x
  obtain ⟨result, e⟩ := x
  rcases result with overflow | error | report
  · exact .inl ⟨rfl, rfl, by simp⟩
  · exact .inl ⟨rfl, rfl, by simp⟩
  · refine .inr ⟨_, rfl, rfl, ?_⟩
    dsimp only
    generalize (e.synchronizeAll .bidirectional).2.dispatch = y
    obtain ⟨answer, e'⟩ := y
    cases answer with
    | error error => exact ⟨⟨_, rfl⟩, by simp⟩
    | ok dispatch =>
      refine ⟨⟨_, rfl⟩, fun whole hwhole => ?_⟩
      cases hwhole
      rfl

theorem step_of_dispatch {delta : Duration} (h : c.stepDispatch? delta = some d) :
    ∃ journal, (c.step delta).2 = { d.dispatch.2 with journal } := by
  cases hadvance : c.frame.advance delta with
  | error overflow =>
    rw [stepDispatch?, hadvance] at h
    cases h
  | ok frame =>
    obtain ⟨hnone, -⟩ | ⟨e, -, he, hend, -⟩ := step_cases hadvance
    · rw [hnone] at h
      cases h
    · rwa [Option.some.inj (h.symm.trans he)]

/-- A step that succeeds reports on its dispatch. -/
theorem step_reports {delta : Duration} {whole : FrameReport}
    (h : (c.step delta).1 = .ok (.ok whole)) :
    ∃ d, c.stepDispatch? delta = some d ∧ d.dispatch.1 = .ok whole.dispatch := by
  cases hadvance : c.frame.advance delta with
  | error overflow =>
    rw [step, hadvance] at h
    cases h
  | ok frame =>
    obtain ⟨-, -, hfails⟩ | ⟨d, -, hd, -, hreport⟩ := step_cases hadvance
    · exact absurd h (hfails whole)
    · exact ⟨d, hd, hreport whole h⟩

theorem follows_step (hidle : c.switchboard.IsIdle) (delta : Duration) :
    Follows c.named.delayed (c.beats (.step delta)) (c.step delta).2.named.delayed := by
  cases hadvance : c.frame.advance delta with
  | error overflow =>
    simp only [beats, schedules, dispatchOf?, stepDispatch?, step, hadvance]
    rfl
  | ok frame =>
    have hscheduled : Follows c.named.delayed
        ((c.schedules (.step delta)).map Beat.scheduled : List (Beat ο σ))
        { c with frame }.flushOnce.2.named.delayed := by
      rw [delayed_flushOnce]
      simp only [schedules, hadvance]
      exact .scheduled _ _
    have hidle' := lasting_isIdle.flushOnce (c := { c with frame }) hidle
    have hsynchronized := structural_synchronizeAll { c with frame }.flushOnce.2 .bidirectional
    obtain ⟨hd, hend, -⟩ | ⟨d, rfl, hd, ⟨journal, hend⟩, -⟩ := step_cases hadvance
    · rw [hend]
      simp only [beats, dispatchOf?, hd]
      exact hscheduled.append rfl
    · rw [hend]
      simp only [beats, dispatchOf?, hd]
      rw [← congrArg NamedSignals.delayed hsynchronized.named] at hscheduled
      exact hscheduled.append
        (follows_dispatch (Lasting.structural (I := fun s _ => s.IsIdle) hsynchronized hidle'))

/-- What an action does to the signals that wait is told by its beats. -/
theorem follows_act (hidle : c.switchboard.IsIdle) (a : Action ο σ) :
    Follows c.named.delayed (c.beats a) (c.act a).named.delayed := by
  have hkept {d : Coordinator ο σ} (h : c.Structural d) :
      Follows c.named.delayed ([] : List (Beat ο σ)) d.named.delayed := by
    rw [h.named]
    rfl
  cases a with
  | bind _ | unbind _ | unbindHost _ | reap | addComponent _ _ _ | removeComponent _ _
  | writeComponent _ _ _ | writeWorld _ _ _ | synchronize _ _ => exact hkept (c.structural_act rfl)
  | synchronizeAll direction =>
    exact congrArg NamedSignals.delayed (c.structural_synchronizeAll direction).named
  | flush =>
    rw [act, delayed_flush]
    exact .append (.scheduled _ _) rfl
  | dispatch => exact follows_dispatch hidle
  | delaySignal name entities delay =>
    rw [act, delayed_delaySignal]
    exact .append (.scheduled _ _) rfl
  | advance delta =>
    simp only [act, advance]
    split <;> rfl
  | step delta => exact follows_step hidle delta
  | signal name entities =>
    simp only [act, Coordinator.signal, NamedSignals.raise]
    split <;> rfl
  | surround _ | registerComponent _ | enqueue _ | subscribe _ _ _ | unsubscribe _ _
  | publish _ | subscribeNamed _ _ | unsubscribeNamed _ | listenForIncidents
  | takeIncidents => rfl

theorem follows_run (as : List (Action ο σ)) (hidle : c.switchboard.IsIdle) :
    Follows c.named.delayed (c.timeline as) (c.run as).named.delayed := by
  induction as generalizing c with
  | nil => rfl
  | cons a as ih => exact (follows_act hidle a).append (ih (lasting_isIdle.act hidle a))

end Schedule

/-! ## Signals fire once -/

/-- What comes of the dispatch that an action makes. -/
theorem act_of_dispatch {c d : Coordinator ο σ} {a : Action ο σ} (h : c.dispatchOf? a = some d) :
    ∃ journal, c.act a = { d.dispatch.2 with journal } := by
  cases a with
  | dispatch =>
    cases h
    exact ⟨_, rfl⟩
  | step delta => exact step_of_dispatch h
  | _ => cases h

theorem ambient_flush (c : Coordinator ο σ) :
    c.flush.2.surroundings.ambient = c.surroundings.ambient := by
  cases hf : c.frame.flushed with
  | true => simp only [flush, hf, ↓reduceIte]
  | false => exact congrArg Rest.ambient (rest_flush hf)

theorem ambient_flushOnce (c : Coordinator ο σ) :
    c.flushOnce.2.surroundings.ambient = c.surroundings.ambient := by
  unfold flushOnce
  split
  · rfl
  · exact c.ambient_flush

/-- An action that does not go to listeners by itself leaves them alone unless it dispatches. -/
theorem ambient_act {c : Coordinator ο σ} {a : Action ο σ} (h : c.dispatchOf? a = none)
    (hquiet : a.isQuiet = true) : (c.act a).surroundings.ambient = c.surroundings.ambient := by
  cases a with
  | bind _ | unbind _ | unbindHost _ | reap | addComponent _ _ _ | removeComponent _ _
  | writeComponent _ _ _ | writeWorld _ _ _ | synchronize _ _ =>
    exact (c.structural_act rfl).ambient
  | synchronizeAll direction =>
    exact (c.structural_synchronizeAll direction).ambient
  | flush => exact c.ambient_flush
  | advance delta =>
    simp only [act, advance]
    split <;> rfl
  | step delta =>
    cases hadvance : c.frame.advance delta with
    | error overflow => simp only [act, step, hadvance]
    | ok frame =>
      obtain ⟨-, hend, -⟩ | ⟨d, -, hd, -⟩ := step_cases hadvance
      · exact (congrArg (·.surroundings.ambient) hend).trans (ambient_flushOnce _)
      · cases hd.symm.trans h
  | delaySignal name entities delay =>
    simp only [act, delaySignal, NamedSignals.schedule, raising]
    split <;> rfl
  | surround _ | publish _ | signal _ _ => cases hquiet
  | dispatch => cases h
  | registerComponent _ | enqueue _ | subscribe _ _ _ | unsubscribe _ _ | subscribeNamed _ _
  | unsubscribeNamed _ | listenForIncidents | takeIncidents => rfl

/-- What becomes of the signals that a run schedules. -/
structure Delaying (c : Coordinator ο σ) (as : List (Action ο σ)) : Prop where
  /-- What waits in the end is what no dispatch took. -/
  waiting : (c.run as).named.delayed = untaken (c.timeline as)
  pending : (c.run as).named.pending = (untaken (c.timeline as)).length
  /-- A dispatch takes what it is the first one to come late enough for, -/
  taken : ∀ j d, (c.timeline as)[j]? = some (.dispatched d) →
    d.dueSignals = takenAt j (c.timeline as)
  /-- raises it for who is bound then, one signal after another, -/
  raised : ∀ d, .dispatched d ∈ c.timeline as →
    (d.dispatch.2.surroundings, d.dispatch.2.queue) =
      (d.dueSignals.flatMap (d.named.callsFor d.registry.isBound)).foldl NamedCall.result
        (d.reacted.surroundings, d.reacted.queue)
  /-- and counts the signals for which somebody is. -/
  counted : ∀ d, .dispatched d ∈ c.timeline as → ∀ report, d.dispatch.1 = .ok report →
    report.named = d.dueSignals.countP fun s => s.entities.any d.registry.isBound
  /-- The dispatches of the timeline are those of the run, -/
  dispatched : ∀ before a after, as = before ++ a :: after → ∀ d,
    (c.run before).dispatchOf? a = some d →
      ∃ journal, (c.run before).act a = { d.dispatch.2 with journal }
  reported : ∀ before delta after, as = before ++ .step delta :: after → ∀ whole,
    ((c.run before).step delta).1 = .ok (.ok whole) →
      ∃ d, (c.run before).dispatchOf? (.step delta) = some d ∧ d.dispatch.1 = .ok whole.dispatch
  /-- and where there is none listeners are left alone. -/
  quiet : ∀ before a after, as = before ++ a :: after → (c.run before).dispatchOf? a = none →
    a.isQuiet = true → ((c.run before).act a).surroundings.ambient =
      (c.run before).surroundings.ambient

section Idle

variable {c : Coordinator ο σ} (hidle : c.switchboard.IsIdle)
include hidle

theorem raised_of_idle : (c.dispatch.2.surroundings, c.dispatch.2.queue) =
    (c.dueSignals.flatMap (c.named.callsFor c.registry.isBound)).foldl NamedCall.result
      (c.reacted.surroundings, c.reacted.queue) := by
  obtain ⟨failures, hreply, -⟩ := delivers_publishAll (c := c.reacting) c.outbox.toList hidle
  obtain ⟨journal, hdispatch⟩ := dispatch_eq hreply
  rw [hdispatch]

theorem counted_of_idle {report : DispatchReport} (h : c.dispatch.1 = .ok report) :
    report.named = c.dueSignals.countP fun s => s.entities.any c.registry.isBound := by
  obtain ⟨failures, hreply, -⟩ := delivers_publishAll (c := c.reacting) c.outbox.toList hidle
  obtain ⟨journal, hdispatch⟩ := dispatch_eq hreply
  rw [hdispatch] at h
  dsimp only at h
  split at h
  · cases h
  · cases h
    rfl

end Idle

theorem delaying_of_idle {c : Coordinator ο σ} (hidle : c.switchboard.IsIdle)
    (hnew : c.named.delayed = []) (as : List (Action ο σ)) : c.Delaying as := by
  have hfollows := follows_run as hidle
  rw [hnew] at hfollows
  have hwaiting : (c.run as).named.delayed = untaken (c.timeline as) := by
    rw [untaken_eq_foldl]
    exact hfollows.eq_foldl
  have hbegins (d : Coordinator ο σ) (hd : .dispatched d ∈ c.timeline as) :
      d.switchboard.IsIdle := by
    obtain ⟨before, after, hsplit⟩ := List.append_of_mem hd
    rw [hsplit] at hfollows
    exact hfollows.of_split.2
  constructor
  case waiting => exact hwaiting
  case pending => exact congrArg List.length hwaiting
  case taken =>
    intro j d hj
    obtain ⟨hlt, hget⟩ := List.getElem?_eq_some_iff.mp hj
    have hsplit : c.timeline as =
        (c.timeline as).take j ++ .dispatched d :: (c.timeline as).drop (j + 1) := by
      rw [← hget, List.getElem_cons_drop, List.take_append_drop]
    have hplace : 0 + ((c.timeline as).take j).length = j := by
      rw [List.length_take, Nat.zero_add, Nat.min_eq_left (Nat.le_of_lt hlt)]
    have htaken := taken_dispatched 0 ((c.timeline as).take j) ((c.timeline as).drop (j + 1)) d
    rw [hplace, ← hsplit] at htaken
    rw [hsplit] at hfollows
    rw [takenAt, htaken, dueSignals, hfollows.of_split.1, ← untaken_eq_foldl, untaken]
  case raised => exact fun d hd => raised_of_idle (hbegins d hd)
  case counted => exact fun d hd _ hreport => counted_of_idle (hbegins d hd) hreport
  case dispatched => exact fun _ _ _ _ _ hd => act_of_dispatch hd
  case reported => exact fun _ _ _ _ _ hwhole => step_reports hwhole
  case quiet => exact fun _ _ _ _ hd hquiet => ambient_act hd hquiet

/-- Whatever a run does, each of its signals fires once, in time. -/
theorem delays_run (table : Table) (settings : Settings) (surroundings : Surroundings ο σ)
    (journal : Journal) (as : List (Action ο σ)) :
    (withTable table settings surroundings journal).Delaying as :=
  delaying_of_idle (idle_run table settings surroundings journal []) rfl as

-- A signal for two nanoseconds from now waits for the first and fires after the second.
example :
    let c := sample.run [.delaySignal "door" [⟨0, 0⟩] ⟨2, by decide⟩, .step ⟨1, by decide⟩]
    c.named.pending = 1 ∧ (c.run [.step ⟨1, by decide⟩]).named.pending = 0 := by
  decide +kernel

end Coordinator

end Tether
