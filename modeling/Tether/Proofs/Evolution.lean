import Tether.Proofs.Changes

/-!
# Every action is a series of changes

The phases of a frame are made of operations on single entities. So what an action does to the
population is a series of changes that raises exactly what the action raises
(`Coordinator.evolves_act`), and so is what a run does (`Coordinator.evolves_run`). Nothing that
is raised is lost : it is delivered, or still waits in the outbox (`Coordinator.outbox_run`).
-/

set_option linter.unusedSectionVars false

namespace Tether.Coordinator

variable {ο σ : Type} [HostObject ο]

/-! ## Reaping and flushing -/

theorem moves_reapOne (count : Nat) (c : Coordinator ο σ) (h : Handle) :
    c.Moves (c.raisedBetween (reapOne (count, c) h).2) (reapOne (count, c) h).2 := by
  have hu := c.moves_unbind h
  unfold reapOne
  dsimp only
  split <;> rename_i heq <;> rw [heq] at hu <;> exact ⟨hu.evolves, hu.outbox⟩

theorem reapOne_snd (count : Nat) (c : Coordinator ο σ) (h : Handle) :
    (reapOne (count, c) h).2 = (reapOne (0, c) h).2 := by
  unfold reapOne
  dsimp only
  split <;> rfl

theorem moves_foldl_reapOne (hs : List Handle) (count : Nat) (c : Coordinator ο σ) :
    c.Moves (raisedByReaping hs c) (hs.foldl reapOne (count, c)).2 := by
  induction hs generalizing count c with
  | nil => exact .refl _
  | cons h hs ih =>
    have hone := c.moves_reapOne 0 h
    rw [← reapOne_snd count] at hone
    rw [raisedByReaping, ← reapOne_snd count]
    exact hone.append (ih _ _)

theorem moves_reap (c : Coordinator ο σ) :
    c.Moves c.raisedByReap c.reap.2 := by
  have hfold := moves_foldl_reapOne (c.registry.orphans c.hosts) 0 c
  unfold raisedByReap reap
  generalize (c.registry.orphans c.hosts).foldl reapOne (0, c) = r at hfold
  dsimp only
  split <;> exact ⟨hfold.evolves, hfold.outbox⟩

theorem calm_delaySignal (c : Coordinator ο σ) (name : String) (entities : List Handle)
    (delay : Duration) : c.Calm (c.delaySignal name entities delay).2 :=
  .of_eq rfl rfl rfl

/-- Only signals run over the clock, and they leave the population alone. -/
theorem calm_of_overflow {c d : Coordinator ο σ} {m : Mutation} {overflow : ClockOverflow}
    (h : c.perform m = (.error overflow, d)) : c.Calm d := by
  cases m with
  | signal name entities delay =>
    rw [← (Prod.mk.inj h).2]
    exact c.calm_delaySignal name entities _
  | destroy target => cases target <;> exact absurd (Prod.mk.inj h).1 (by simp)
  | create host => exact absurd (Prod.mk.inj h).1 (by simp)
  | addComponent h id value => exact absurd (Prod.mk.inj h).1 (by simp)
  | removeComponent h id => exact absurd (Prod.mk.inj h).1 (by simp)

theorem moves_perform (c : Coordinator ο σ) (m : Mutation) :
    c.Moves (c.raisedByPerform m) (c.perform m).2 := by
  cases m with
  | create host => exact c.moves_bind host
  | destroy target =>
    cases target with
    | handle h => exact c.moves_unbind h
    | host id => exact c.moves_unbindHost id
  | addComponent h id value => exact c.moves_addComponent h id value
  | removeComponent h id => exact c.moves_removeComponent h id
  | signal name entities delay => exact (c.calm_delaySignal name entities _).moves_between

theorem record_snd (p : Pending) (report : FlushReport) (result : Except Error Unit)
    (c : Coordinator ο σ) : (record p report result c).2 = (record p {} result c).2 := by
  unfold record
  split
  · rfl
  · split <;> rfl

theorem calm_record (p : Pending) (report : FlushReport) (result : Except Error Unit)
    (c : Coordinator ο σ) : c.Calm (record p report result c).2 := by
  unfold record
  split
  · exact .refl c
  · split <;> exact .of_eq rfl rfl rfl

theorem moves_applyAll (ps : List Pending) (report : FlushReport) (c : Coordinator ο σ) :
    c.Moves ((applications ps c).flatMap Applied.raised) (applyAll ps report c).2 := by
  induction ps generalizing report c with
  | nil => exact .refl c
  | cons p ps ih =>
    unfold applications applyAll
    cases hperform : c.perform p.mutation with
    | mk result d =>
      cases result with
      | error overflow => exact (calm_of_overflow hperform).moves
      | ok outcome =>
        have hm := c.moves_perform p.mutation
        rw [hperform] at hm
        dsimp only
        rw [← record_snd p report, List.flatMap_cons]
        refine hm.append ?_
        simpa using (calm_record p report outcome d).moves.append (ih _ _)

theorem flush_eq {c : Coordinator ο σ} (hf : c.frame.flushed = false) :
    c.flush =
      match applyAll c.due { reaped := c.flushing.reap.1 } c.drained with
      | (.error overflow, c) => (.error overflow, c)
      | (.ok report, c) =>
        (.ok (.ok report),
          c.note (.flushed c.frame.number report.applied report.stale
            report.rejected.length)) := by
  simp only [flush, hf]
  rfl

theorem moves_flush (c : Coordinator ο σ) : c.Moves c.raisedByFlush c.flush.2 := by
  cases hf : c.frame.flushed with
  | true =>
    simp only [raisedByFlush, flush, hf, ↓reduceIte]
    exact .refl c
  | false =>
    have hreap := c.flushing.moves_reap
    have hdrain : c.flushing.reap.2.Calm c.drained := by
      unfold drained
      exact .of_eq rfl rfl rfl
    have happly := hdrain.moves.append
      (moves_applyAll c.due { reaped := c.flushing.reap.1 } c.drained)
    have hall : c.Moves _ _ := ⟨(hreap.append happly).evolves, (hreap.append happly).outbox⟩
    simp only [List.nil_append] at hall
    rw [flush_eq hf]
    simp only [raisedByFlush, flushed, hf, Bool.false_eq_true, ↓reduceIte]
    generalize applyAll c.due { reaped := c.flushing.reap.1 } c.drained = r at hall ⊢
    obtain ⟨result, d⟩ := r
    cases result with
    | error overflow => exact hall
    | ok report => exact ⟨hall.evolves, hall.outbox⟩

/-! ## Passes over entities -/

theorem foldl_reportSynchronization (failures : List Error) (c : Coordinator ο σ) :
    ∃ j is, failures.foldl reportSynchronization c = { c with journal := j, incidents := is } := by
  induction failures generalizing c with
  | nil => exact ⟨_, _, rfl⟩
  | cons failure failures ih => exact ih (c.reportSynchronization failure)

theorem calm_reports (failures : List Error) (c : Coordinator ο σ) :
    c.Calm (failures.foldl reportSynchronization c) := by
  obtain ⟨j, is, hreports⟩ := foldl_reportSynchronization failures c
  rw [hreports]
  exact .of_eq rfl rfl rfl

theorem calm_syncRow {c : Coordinator ο σ} {h : Handle} {row : Row}
    (hrow : c.world.row? h = some row) (direction : Direction) (host : HostRef) (object : ο) :
    c.Calm (c.syncRow direction host object row).2 := by
  have ha := c.table.alike_synchronize direction row.handle object row c.journal
  have hhandle := (World.row?_eq_some_iff.mp hrow).2
  refine ⟨Population.alike_modify c.registry fun r hr => ?_, rfl⟩
  rw [ha.handle, hhandle, hrow] at hr
  rw [← Option.some.inj hr]
  exact ha

theorem calm_synchronize (c : Coordinator ο σ) (h : Handle) (direction : Direction) :
    c.Calm (c.synchronize h direction).2 := by
  unfold synchronize
  split
  · exact .refl c
  · split
    · exact .refl c
    · split
      · exact .refl c
      · rename_i hrow
        exact (calm_syncRow hrow direction _ _).trans (calm_reports _ _)

theorem calm_visit (direction : Direction) (state : SyncReport × Coordinator ο σ)
    (h : Handle) : state.2.Calm (visit direction state h).2 := by
  unfold visit
  dsimp only
  split
  · rename_i hrow
    split
    · exact calm_syncRow hrow direction _ _
    · exact .refl _
  · exact .refl _

theorem calm_work (direction : Direction) (state : SyncReport × Coordinator ο σ)
    (share : List Handle) : state.2.Calm (work direction state share).2 :=
  Calm.foldl (calm_visit direction) share ({}, state.2)

theorem calm_synchronizeAll (c : Coordinator ο σ) (direction : Direction) :
    c.Calm (c.synchronizeAll direction).2 := by
  unfold synchronizeAll
  dsimp only
  have henter : c.Calm { c with frame := c.frame.enter .synchronization } := .of_eq rfl rfl rfl
  refine henter.trans ?_
  split
  · exact (Calm.foldl (calm_work direction) _ ({}, _)).trans (calm_reports _ _)
  · exact (Calm.foldl (calm_visit direction) _ ({}, _)).trans (calm_reports _ _)

/-! ## Delivery -/

theorem calm_publish (c : Coordinator ο σ) (s : Signal) : c.Calm (c.publish s).2 :=
  .of_eq rfl rfl rfl

theorem calm_publishAll (ss : List Signal) (c : Coordinator ο σ) :
    c.Calm (publishAll ss c).2 := by
  induction ss generalizing c with
  | nil => exact .refl c
  | cons s ss ih =>
    have hs := c.calm_publish s
    unfold publishAll
    cases hpublish : c.publish s with
    | mk reply d =>
      rw [hpublish] at hs
      cases reply with
      | error error => exact hs
      | ok failures =>
        have hd := hs.trans (ih d)
        dsimp only
        split <;> rename_i hrest <;> rw [hrest] at hd <;> exact hd

theorem calm_contain (c : Coordinator ο σ) (f : ListenerFailure) : c.Calm (c.contain f) :=
  ⟨Population.alike_markDegraded c.registry c.world f.handle, rfl⟩

theorem calm_containAll (fs : List ListenerFailure) (c : Coordinator ο σ) :
    c.Calm (fs.foldl contain c) := by
  induction fs generalizing c with
  | nil => exact .refl c
  | cons f fs ih => exact (c.calm_contain f).trans (ih _)

/-- A dispatch empties the outbox; otherwise it is calm. -/
theorem calm_dispatch (c : Coordinator ο σ) :
    Calm { c with outbox := #[] } c.dispatch.2 := by
  have hall := calm_publishAll c.outbox.toList
    { c with frame := c.frame.enter .reaction, outbox := #[] }
  unfold dispatch
  dsimp only
  generalize publishAll c.outbox.toList
    { c with frame := c.frame.enter .reaction, outbox := #[] } = r at hall
  obtain ⟨reply, d⟩ := r
  have henter : Calm { c with outbox := #[] }
      { c with frame := c.frame.enter .reaction, outbox := #[] } := .of_eq rfl rfl rfl
  have hd := henter.trans hall
  cases reply with
  | error error => exact hd
  | ok failures =>
    dsimp only
    have htick : d.Calm d.tick.2 := .of_eq rfl rfl rfl
    have hend := (hd.trans htick).trans (calm_containAll failures d.tick.2)
    split <;> exact ⟨hend.alike, hend.outbox⟩

/-! ## Whole frames and runs -/

theorem flushOnce_of_flushed {c : Coordinator ο σ} (hf : c.frame.flushed = true) :
    c.flushOnce = (.ok (.ok {}), c) := by
  simp [flushOnce, hf]

theorem calm_advance (c : Coordinator ο σ) (delta : Duration) : c.Calm (c.advance delta) := by
  unfold advance
  split
  · exact .refl c
  · exact .of_eq rfl rfl rfl

/-- The flush of a step is never refused. -/
theorem flushOnce_cases (c : Coordinator ο σ) :
    (∃ overflow, c.flushOnce.1 = .error overflow) ∨ ∃ report, c.flushOnce.1 = .ok (.ok report) := by
  cases hf : c.frame.flushed with
  | true => exact .inr ⟨{}, by rw [flushOnce_of_flushed hf]⟩
  | false =>
    simp only [flushOnce, hf, Bool.false_eq_true, ↓reduceIte, flush_eq hf]
    generalize applyAll c.due { reaped := c.flushing.reap.1 } c.drained = r
    obtain ⟨result, d⟩ := r
    cases result with
    | error overflow => exact .inl ⟨overflow, rfl⟩
    | ok report => exact .inr ⟨report, rfl⟩

theorem moves_flushOnce (c : Coordinator ο σ) : c.Moves c.raisedByFlush c.flushOnce.2 := by
  cases hf : c.frame.flushed with
  | true =>
    rw [flushOnce_of_flushed hf]
    simp only [raisedByFlush, hf, ↓reduceIte]
    exact .refl c
  | false =>
    simp only [flushOnce, hf, Bool.false_eq_true, ↓reduceIte]
    exact c.moves_flush

/-- Either an action moves the state on and delivers nothing, or it moves the state on, delivers
all that the outbox holds then, and is calm for the rest. -/
def Proceeds (c : Coordinator ο σ) (a : Action ο σ) : Prop :=
  (c.deliveredBy a = [] ∧ c.Moves (c.raisedBy a) (c.act a)) ∨
    ∃ d, c.deliveredBy a = d.outbox.toList ∧ c.Moves (c.raisedBy a) d ∧
      Calm { d with outbox := #[] } (c.act a)

theorem proceeds_step (c : Coordinator ο σ) (delta : Duration) : c.Proceeds (.step delta) := by
  cases hadvance : c.frame.advance delta with
  | error overflow =>
    refine .inl ⟨?_, ?_⟩
    · simp only [deliveredBy, hadvance]
    · simp only [raisedBy, act, step, hadvance]
      exact .refl c
  | ok frame =>
    have hm := moves_flushOnce { c with frame }
    have hcases := flushOnce_cases { c with frame }
    simp only [Proceeds, raisedBy, deliveredBy, act, step, hadvance]
    generalize flushOnce { c with frame } = r at hm hcases ⊢
    obtain ⟨result, d⟩ := r
    rcases hcases with ⟨overflow, heq⟩ | ⟨report, heq⟩
    · cases heq
      exact .inl ⟨rfl, hm.evolves, hm.outbox⟩
    · cases heq
      have hall := hm.append (d.calm_synchronizeAll .bidirectional).moves
      rw [List.append_nil] at hall
      refine .inr ⟨(d.synchronizeAll .bidirectional).2, rfl, ⟨hall.evolves, hall.outbox⟩, ?_⟩
      have hdispatch := (d.synchronizeAll .bidirectional).2.calm_dispatch
      dsimp only
      split <;> rename_i hd <;> rw [hd] at hdispatch
      · exact hdispatch
      · exact ⟨hdispatch.alike, hdispatch.outbox⟩

theorem proceeds (c : Coordinator ο σ) (a : Action ο σ) : c.Proceeds a := by
  cases a with
  | bind host => exact .inl ⟨rfl, c.moves_bind host⟩
  | unbind h => exact .inl ⟨rfl, c.moves_unbind h⟩
  | unbindHost id => exact .inl ⟨rfl, c.moves_unbindHost id⟩
  | reap => exact .inl ⟨rfl, c.moves_reap⟩
  | addComponent h id value => exact .inl ⟨rfl, c.moves_addComponent h id value⟩
  | removeComponent h id => exact .inl ⟨rfl, c.moves_removeComponent h id⟩
  | writeComponent h id value =>
    exact .inl ⟨rfl, (c.calm_writeComponent h id value).moves_between⟩
  | writeWorld h id value => exact .inl ⟨rfl, (c.calm_writeWorld h id value).moves_between⟩
  | flush => exact .inl ⟨rfl, c.moves_flush⟩
  | synchronize h direction =>
    exact .inl ⟨rfl, (c.calm_synchronize h direction).moves_between⟩
  | synchronizeAll direction =>
    exact .inl ⟨rfl, (c.calm_synchronizeAll direction).moves_between⟩
  | dispatch => exact .inr ⟨c, rfl, .refl c, c.calm_dispatch⟩
  | step delta => exact c.proceeds_step delta
  | advance delta => exact .inl ⟨rfl, (c.calm_advance delta).moves_between⟩
  | publish s => exact .inl ⟨rfl, (c.calm_publish s).moves_between⟩
  | surround _ | registerComponent _ | enqueue _ | subscribe _ _ _ | unsubscribe _ _
  | subscribeNamed _ _ | unsubscribeNamed _ | signal _ _ | delaySignal _ _ _
  | listenForIncidents | takeIncidents =>
    exact .inl ⟨rfl, Calm.moves_between (.of_eq rfl rfl rfl)⟩

/-- Every action takes the population through a series of changes that raises what the action
raises. -/
theorem evolves_act (c : Coordinator ο σ) (a : Action ο σ) :
    Population.Evolves c.population (c.raisedBy a) (c.act a).population := by
  rcases c.proceeds a with ⟨-, hm⟩ | ⟨d, -, hm, hcalm⟩
  · exact hm.evolves
  · simpa using hm.evolves.append (.of_alike hcalm.alike)

/-- So does every run. -/
theorem evolves_run (c : Coordinator ο σ) (as : List (Action ο σ)) :
    Population.Evolves c.population (c.history as) (c.run as).population := by
  induction as generalizing c with
  | nil => exact .refl _
  | cons a as ih => exact (c.evolves_act a).append (ih (c.act a))

/-- No signal is lost or raised twice : what waited and what an action raises is what the action
delivers and what waits then. -/
theorem outbox_act (c : Coordinator ο σ) (a : Action ο σ) :
    c.outbox.toList ++ (c.raisedBy a).map Raised.signal =
      c.deliveredBy a ++ (c.act a).outbox.toList := by
  rcases c.proceeds a with ⟨hd, hm⟩ | ⟨d, hd, hm, hcalm⟩
  · rw [hd, List.nil_append, hm.outbox]
  · rw [hd, hcalm.outbox, ← hm.outbox]
    simp

theorem outbox_run (c : Coordinator ο σ) (as : List (Action ο σ)) :
    c.outbox.toList ++ (c.history as).map Raised.signal =
      c.deliveries as ++ (c.run as).outbox.toList := by
  induction as generalizing c with
  | nil => simp [history, deliveries]
  | cons a as ih =>
    rw [history, deliveries, run_cons, List.map_append, ← List.append_assoc, outbox_act,
      List.append_assoc, ih, List.append_assoc]

end Tether.Coordinator
