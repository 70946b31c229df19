import Tether.Proofs.Reach
import Tether.Proofs.Refusals

/-!
# A flush and the direct calls

A mutation asks for what a direct call does at once (`Mutation.direct`). Between operations the
queue of a coordinator has no gaps (`Coordinator.unbroken_run`), so a flush takes all that waits,
in order of submission, and `Coordinator.flush_run` says that it then does what reaping and the
direct calls do, one after another, whatever the answers. Its report and its incidents are what
the direct calls are refused for (`Coordinator.refusals`), and no listener has a part in it.
-/

set_option linter.unusedSectionVars false

namespace Tether

/-! ## Mutations one after another -/

/-- The direct call for what a mutation asks for. -/
def Mutation.direct {ο σ : Type} : Mutation → Action ο σ
  | .create host => .bind host
  | .destroy (.handle h) => .unbind h
  | .destroy (.host id) => .unbindHost id
  | .addComponent h id value => .addComponent h id value
  | .removeComponent h id => .removeComponent h id
  | .signal name entities delay => .delaySignal name entities (delay.getD .zero)

/-- Whether a time is left for what a mutation asks for. -/
def Mutation.InTime (m : Mutation) (now : Duration) : Prop :=
  ∀ name entities delay, m = .signal name entities delay →
    (now.add? (delay.getD .zero)).isSome = true

/-- What is told of a mutation that was not applied. -/
def Pending.incident (p : Pending) (error : Error) : Incident :=
  if error.isStale then .staleMutation p.sequence error else .rejected p.sequence error

/-- What is told of mutations, given what each was refused for. -/
def incidentsOf (ps : List Pending) (refusals : List (Option Error)) : List Incident :=
  (ps.zip refusals).filterMap fun x => x.2.map x.1.incident

theorem incidentsOf_cons (p : Pending) (ps : List Pending) (r : Option Error)
    (rs : List (Option Error)) :
    incidentsOf (p :: ps) (r :: rs) = incidentsOf [p] [r] ++ incidentsOf ps rs := by
  cases r <;> rfl

/-- No incident of a mutation is one of materialization. -/
theorem filter_incidentsOf (ps : List Pending) (refusals : List (Option Error)) :
    (incidentsOf ps refusals).filter (fun i => !i.isMaterialization) =
      incidentsOf ps refusals := by
  refine List.filter_eq_self.mpr fun i hi => ?_
  obtain ⟨⟨p, r⟩, -, hp⟩ := List.mem_filterMap.mp hi
  obtain ⟨error, -, rfl⟩ := Option.map_eq_some_iff.mp hp
  dsimp only
  rw [Pending.incident]
  split <;> rfl

/-- Add to a report what mutations were refused for. -/
def FlushReport.tally (report : FlushReport) (refusals : List (Option Error)) : FlushReport :=
  { report with
    applied := report.applied + refusals.countP Option.isNone
    stale := report.stale + refusals.countP fun r => r.any Error.isStale
    rejected := report.rejected ++ refusals.filterMap fun r => r.filter fun e => !e.isStale }

theorem FlushReport.tally_nil (report : FlushReport) : report.tally [] = report := by
  simp [tally]

theorem FlushReport.tally_none (report : FlushReport) :
    report.tally [none] = { report with applied := report.applied + 1 } := by
  simp [tally]

theorem FlushReport.tally_some (report : FlushReport) (error : Error) :
    report.tally [some error] =
      if error.isStale then { report with stale := report.stale + 1 }
      else { report with rejected := report.rejected ++ [error] } := by
  cases he : error.isStale <;> simp [tally, Option.filter, he]

theorem FlushReport.tally_cons (report : FlushReport) (r : Option Error)
    (rs : List (Option Error)) : report.tally (r :: rs) = (report.tally [r]).tally rs := by
  simp only [tally, List.countP_cons, List.countP_nil, List.filterMap_cons, List.filterMap_nil,
    FlushReport.mk.injEq]
  refine ⟨by omega, by omega, trivial, ?_⟩
  cases r.filter fun e => !e.isStale <;> simp

/-- Every mutation is counted once. -/
theorem FlushReport.total_tally (report : FlushReport) (rs : List (Option Error)) :
    (report.tally rs).applied + (report.tally rs).stale + (report.tally rs).rejected.length =
      report.applied + report.stale + report.rejected.length + rs.length := by
  induction rs generalizing report with
  | nil => rw [tally_nil, List.length_nil, Nat.add_zero]
  | cons r rs ih =>
    rw [tally_cons, ih, List.length_cons]
    cases r with
    | none => simp only [tally_none]; omega
    | some error =>
      rw [tally_some]
      split
      · dsimp only
        omega
      · simp only [List.length_append, List.length_singleton]
        omega

namespace Coordinator

variable {ο σ : Type} [HostObject ο] {c d : Coordinator ο σ}

/-- The error that the direct call for a mutation ends with, if it fails. -/
def refusal? (c : Coordinator ο σ) : Mutation → Option Error
  | .create host => errorOf (c.bind host).1
  | .destroy (.handle h) => errorOf (c.unbind h).1
  | .destroy (.host id) => errorOf (c.unbindHost id).1
  | .addComponent h id value => errorOf (c.addComponent h id value).1
  | .removeComponent h id => errorOf (c.removeComponent h id).1
  | .signal .. => none

/-- What the direct calls for mutations are refused for, made one after another. -/
def refusals : List Mutation → Coordinator ο σ → List (Option Error)
  | [], _ => []
  | m :: rest, c => c.refusal? m :: refusals rest (c.act m.direct)

theorem length_refusals (ms : List Mutation) (c : Coordinator ο σ) :
    (refusals ms c).length = ms.length := by
  induction ms generalizing c with
  | nil => rfl
  | cons m ms ih => rw [refusals, List.length_cons, ih, List.length_cons]

theorem perform_snd (c : Coordinator ο σ) (m : Mutation) :
    (c.perform m).2 = c.act m.direct := by
  cases m with
  | destroy target => cases target <;> rfl
  | _ => rfl

/-- A mutation ends with what the direct call ends with, if there is a time for it. -/
theorem perform_fst (c : Coordinator ο σ) {m : Mutation} (hm : m.InTime c.frame.time) :
    ∃ outcome, (c.perform m).1 = .ok outcome ∧ errorOf outcome = c.refusal? m := by
  cases m with
  | destroy target => cases target <;> exact ⟨_, rfl, rfl⟩
  | signal name entities delay =>
    obtain ⟨due, hdue⟩ := Option.isSome_iff_exists.mp (hm name entities delay rfl)
    refine ⟨.ok (), ?_, rfl⟩
    simp [perform, delaySignal, NamedSignals.schedule, NamedSignals.delay, hdue, Except.map]
  | create host => exact ⟨_, rfl, errorOf_map _ _⟩
  | addComponent h id value => exact ⟨_, rfl, errorOf_map _ _⟩
  | removeComponent h id => exact ⟨_, rfl, errorOf_map _ _⟩

theorem refusal?_of_core (h : c.core = d.core) (m : Mutation) :
    c.refusal? m = d.refusal? m := by
  cases m with
  | create host => exact congrArg errorOf (tandem_bind h host).1
  | destroy target =>
    cases target with
    | handle j => exact congrArg errorOf (tandem_unbind h j).1
    | host id => exact congrArg errorOf (tandem_unbindHost h id).1
  | addComponent j id value => exact congrArg errorOf (tandem_addComponent h j id value).1
  | removeComponent j id => exact congrArg errorOf (tandem_removeComponent h j id).1
  | signal => rfl

/-- Taking down the outcome of a mutation. -/
theorem record_fst (p : Pending) (report : FlushReport) (outcome : Except Error Unit)
    (c : Coordinator ο σ) : (record p report outcome c).1 = report.tally [errorOf outcome] := by
  unfold record
  cases outcome with
  | ok _ => exact report.tally_none.symm
  | error error =>
    simp only [errorOf, FlushReport.tally_some]
    split <;> rfl

theorem incidents_record (p : Pending) (report : FlushReport) (outcome : Except Error Unit)
    (c : Coordinator ο σ) :
    (record p report outcome c).2.incidents =
      c.incidents.map (· ++ (incidentsOf [p] [errorOf outcome]).toArray) := by
  unfold record
  cases outcome with
  | ok _ => cases c.incidents <;> simp [errorOf, incidentsOf]
  | error error =>
    cases he : error.isStale <;> cases hi : c.incidents <;>
      simp [errorOf, incidentsOf, Pending.incident, he, Coordinator.report, note, hi]

/-- What mutations do to a state, given the direct calls made on a state with the same core. -/
structure Applies (ps : List Pending) (report : FlushReport) (c d : Coordinator ο σ)
    (report' : FlushReport) (c' : Coordinator ο σ) : Prop where
  core : c'.core = (d.run (ps.map fun p => p.mutation.direct)).core
  report : report' = report.tally (refusals (ps.map Pending.mutation) d)
  incidents : ∃ is, c'.incidents = c.incidents.map (· ++ is) ∧
    is.toList.filter (fun i => !i.isMaterialization) =
      incidentsOf ps (refusals (ps.map Pending.mutation) d)

theorem applies_applyAll (ps : List Pending) (report : FlushReport) {c d : Coordinator ο σ}
    (h : c.core = d.core) (hm : ∀ p ∈ ps, p.mutation.InTime c.frame.time) :
    ∃ report' c', applyAll ps report c = (.ok report', c') ∧ Applies ps report c d report' c' := by
  induction ps generalizing report c d with
  | nil =>
    refine ⟨report, c, rfl, h, (FlushReport.tally_nil report).symm, #[], ?_, rfl⟩
    cases c.incidents <;> simp
  | cons p ps ih =>
    obtain ⟨outcome, houtcome, herror⟩ := c.perform_fst (hm p List.mem_cons_self)
    rw [refusal?_of_core h] at herror
    have htandem := (tandem_perform h p.mutation).2
    rw [d.perform_snd] at htandem
    unfold applyAll
    generalize hperform : c.perform p.mutation = x at houtcome htandem
    obtain ⟨result, e⟩ := x
    obtain rfl : result = .ok outcome := houtcome
    obtain ⟨hcore, is, hsends, -⟩ := htandem
    obtain ⟨hrcore, hrrest⟩ := record_core p report outcome e
    have hrest : (record p report outcome e).2.rest = c.rest := hrrest.trans hsends.rest
    obtain ⟨report', c', heq, happlies⟩ := ih (record p report outcome e).1
      (hrcore.trans hcore) fun q hq => by
        rw [show (record p report outcome e).2.frame = c.frame from congrArg Rest.frame hrest]
        exact hm q (List.mem_cons_of_mem _ hq)
    refine ⟨report', c', heq, happlies.core, ?_, ?_⟩
    · rw [happlies.report, record_fst, herror, List.map_cons, refusals, ← FlushReport.tally_cons]
    · obtain ⟨js, hjs, hfilter⟩ := happlies.incidents
      refine ⟨is ++ (incidentsOf [p] [errorOf outcome]).toArray ++ js, ?_, ?_⟩
      · rw [hjs, incidents_record, hsends.incidents]
        cases c.incidents <;> simp
      · have hnone : is.toList.filter (fun i => !i.isMaterialization) = [] := by
          simpa using hsends.materialization
        rw [Array.toList_append, Array.toList_append, List.filter_append, List.filter_append, hnone,
          hfilter, filter_incidentsOf, herror, List.nil_append, List.map_cons, refusals,
          ← incidentsOf_cons]

/-! ## Why direct calls are refused -/

/-- Where an error of the direct calls comes from. -/
theorem mem_refusals {ms : List Mutation} {c : Coordinator ο σ} {error : Error}
    (h : some error ∈ refusals ms c) :
    ∃ before m after, ms = before ++ m :: after ∧
      (c.run (before.map Mutation.direct)).refusal? m = some error := by
  induction ms generalizing c with
  | nil => simp [refusals] at h
  | cons m ms ih =>
    rcases List.mem_cons.mp h with h | h
    · exact ⟨[], m, ms, rfl, h.symm⟩
    · obtain ⟨before, m', after, rfl, hm'⟩ := ih h
      exact ⟨m :: before, m', after, rfl, hm'⟩

/-- A handle that is not bound is stale or unknown. -/
theorem isStale_of_bound {h : Handle} {error : Error}
    (he : error = .staleHandle h ∨ error = .notBound (.handle h)) : error.isStale = true := by
  rcases he with rfl | rfl <;> rfl

theorem isStale_of_unbind {h : Handle} {error : Error}
    (hu : errorOf (c.unbind h).1 = some error) : error.isStale = true :=
  isStale_of_bound (Registry.error_of_bound (unbind_of_failure hu).2)

theorem isStale_of_unbindHost {id : HostId} {error : Error}
    (hu : errorOf (c.unbindHost id).1 = some error) : error.isStale = true := by
  obtain ⟨-, -, rfl⟩ := unbindHost_of_failure hu
  rfl

theorem isStale_of_addComponent {h : Handle} {id : ComponentId} {value : Value} {error : Error}
    (ha : errorOf (c.addComponent h id value).1 = some error) : error.isStale = true :=
  isStale_of_bound (addComponent_of_failure ha).2

theorem isStale_of_removeComponent {h : Handle} {id : ComponentId} {error : Error}
    (hr : errorOf (c.removeComponent h id).1 = some error) : error.isStale = true :=
  isStale_of_bound (removeComponent_of_failure hr).2

/-- A host object that is there is refused only if it is bound. -/
theorem alreadyBound_of_bind {host : HostRef} {error : Error}
    (h : errorOf (c.bind host).1 = some error) (he : error.isStale = false) :
    ∃ j, error = .alreadyBound host.id j ∧ c.registry.handleOf? host.id = some j := by
  cases hb : (c.bind host).1 with
  | ok j =>
    rw [hb] at h
    cases h
  | error error' =>
    rw [hb] at h
    cases h
    obtain ⟨-, ⟨-, rfl⟩ | ⟨j, -, hj, rfl⟩⟩ := bind_of_error hb
    · cases he
    · exact ⟨j, rfl, hj⟩

/-- A direct call fails because its target is gone, or because the host object is bound. -/
theorem alreadyBound_of_refusal? {m : Mutation} {error : Error}
    (h : c.refusal? m = some error) (he : error.isStale = false) :
    ∃ host j, m = .create host ∧ error = .alreadyBound host.id j ∧
      c.registry.handleOf? host.id = some j := by
  have hstale : ¬error.isStale = true := by simp [he]
  cases m with
  | create host =>
    obtain ⟨j, herror, hhandle⟩ := alreadyBound_of_bind h he
    exact ⟨host, j, rfl, herror, hhandle⟩
  | destroy target =>
    cases target with
    | handle j => exact absurd (isStale_of_unbind h) hstale
    | host id => exact absurd (isStale_of_unbindHost h) hstale
  | addComponent j id value => exact absurd (isStale_of_addComponent h) hstale
  | removeComponent j id => exact absurd (isStale_of_removeComponent h) hstale
  | signal => cases h

/-! ## Flushes -/

/-- The mutations that wait, in order of submission. -/
def waiting (c : Coordinator ο σ) : List Mutation := c.queue.pending.toList.map Pending.mutation

/-- What a flush of `c` does, said by the direct calls that are made on a state `d` with the same
core for the mutations that wait. -/
structure Flushes (c d : Coordinator ο σ) (report : FlushReport) (c' : Coordinator ο σ) :
    Prop where
  /-- Registry, world, outbox, host objects and waiting signals are as after the direct calls. -/
  core : c'.core = (d.run (.reap :: c.waiting.map Mutation.direct)).core
  /-- The queue is empty then; listeners, and what they share, are not touched. -/
  rest : c'.rest = { c.rest with
    queue := { c.queue with pending := #[], next := c.queue.sequence }
    frame := c.flushing.frame }
  /-- The report counts and lists what the direct calls are refused for, -/
  report : report = FlushReport.tally { reaped := d.reap.1 } (refusals c.waiting d.reap.2)
  /-- and so do the incidents, each with the number of its mutation. -/
  incidents : ∃ is, c'.incidents = c.incidents.map (· ++ is) ∧
    is.toList.filter (fun i => !i.isMaterialization) =
      incidentsOf c.queue.pending.toList (refusals c.waiting d.reap.2)

theorem flushes_flush (h : c.core = d.core) (hq : c.queue.Unbroken)
    (hf : c.frame.flushed = false) (hm : ∀ m ∈ c.waiting, m.InTime c.frame.time) :
    ∃ report, c.flush.1 = .ok (.ok report) ∧ c.Flushes d report c.flush.2 := by
  obtain ⟨hreaped, hcore, is, hsends, -⟩ :=
    tandem_reap (show c.flushing.core = d.core from h)
  have hqueue : c.flushing.reap.2.queue = c.queue := congrArg Rest.queue hsends.rest
  have hdue : c.due = c.queue.pending.toList := by rw [due, hqueue, hq.drain_eq]
  obtain ⟨report, c', heq, happlies⟩ := applies_applyAll c.queue.pending.toList
    { reaped := c.flushing.reap.1 } (c.core_drained.trans hcore) fun p hp => by
      rw [frame_drained]
      exact hm p.mutation (List.mem_map_of_mem hp)
  have hflush : c.flush = (.ok (.ok report),
      c'.note (.flushed c'.frame.number report.applied report.stale report.rejected.length)) := by
    rw [flush_eq hf, hdue, heq]
  have hrest := rest_flush hf
  rw [hflush] at hrest ⊢
  refine ⟨report, rfl, ?_, ?_, ?_, ?_⟩
  · rw [run_cons, waiting, List.map_map]
    exact happlies.core
  · rw [hrest, hq.drain_eq]
  · rw [← hreaped]
    exact happlies.report
  · obtain ⟨js, hjs, hown⟩ := happlies.incidents
    have hdrained : c.drained.incidents = c.incidents.map (· ++ is) :=
      c.incidents_drained.trans hsends.incidents
    refine ⟨is ++ js, ?_, ?_⟩
    · rw [show (c'.note _).incidents = c'.incidents from rfl, hjs, hdrained]
      cases c.incidents <;> simp
    · have hnone : is.toList.filter (fun i => !i.isMaterialization) = [] := by
        simpa using hsends.materialization
      rw [Array.toList_append, List.filter_append, hnone, List.nil_append, hown]
      rfl

/-- What a flush rejects is the binding of host objects that are bound by then. -/
theorem Flushes.rejected {report : FlushReport} {c' : Coordinator ο σ}
    (h : c.Flushes c report c') {error : Error} (he : error ∈ report.rejected) :
    ∃ before host after j, c.waiting = before ++ .create host :: after ∧
      error = .alreadyBound host.id j ∧
      (c.run (.reap :: before.map Mutation.direct)).registry.handleOf? host.id = some j := by
  rw [h.report] at he
  obtain ⟨r, hr, hfilter⟩ := List.mem_filterMap.mp he
  obtain ⟨rfl, hkind⟩ := Option.filter_eq_some_iff.mp hfilter
  obtain ⟨before, m, after, hsplit, hrefused⟩ := mem_refusals hr
  obtain ⟨host, j, rfl, rfl, hhandle⟩ :=
    alreadyBound_of_refusal? hrefused (by simpa using hkind)
  exact ⟨before, host, after, j, hsplit, rfl, hhandle⟩

/-- On the way to what a flush leaves there are no more slots. -/
theorem Flushes.capacity_le {report : FlushReport} {c' : Coordinator ο σ}
    (h : c.Flushes c report c') {before after : List Mutation}
    (hsplit : c.waiting = before ++ after) :
    (c.run (.reap :: before.map Mutation.direct)).registry.allocator.capacity ≤
      c'.registry.allocator.capacity := by
  have hlater := (evolves_run (c.run (.reap :: before.map Mutation.direct))
    (after.map Mutation.direct)).capacity_le
  rw [← run_append, List.cons_append, ← List.map_append, ← hsplit] at hlater
  rw [show c'.registry = _ from congrArg Core.registry h.core]
  exact hlater

theorem Flushes.total {report : FlushReport} {c' : Coordinator ο σ}
    (h : c.Flushes d report c') :
    report.applied + report.stale + report.rejected.length = c.waiting.length := by
  rw [h.report, FlushReport.total_tally, length_refusals]
  simp

/-- In a frame that was not flushed yet, with a time left for every signal that is asked for, a
flush does what reaping and the direct calls for the waiting mutations do, in order of
submission :

* what is left is what the direct calls leave, and report and incidents tell what they are
  refused for;
* every mutation is counted once, and rejected is only the binding of a host object that was
  bound by then, under the handle that it has;
* no listener is run : with other listeners the flush is the same.

That the handle is live needs slot numbers that last, as in `sound_run`. -/
theorem flush_run (table : Table) (settings : Settings) (surroundings : Surroundings ο σ)
    (journal : Journal) (as : List (Action ο σ)) :
    let c := (withTable table settings surroundings journal).run as
    c.frame.flushed = false → (∀ m ∈ c.waiting, m.InTime c.frame.time) →
    c.queue.Unbroken ∧ ∃ report, c.flush.1 = .ok (.ok report) ∧ c.Flushes c report c.flush.2 ∧
      report.applied + report.stale + report.rejected.length = c.waiting.length ∧
      (∀ error ∈ report.rejected, ∃ before host after h,
        c.waiting = before ++ .create host :: after ∧ error = .alreadyBound host.id h ∧
        (c.run (.reap :: before.map Mutation.direct)).registry.handleOf? host.id = some h ∧
        (c.flush.2.registry.allocator.capacity ≤ 2 ^ 32 →
          (c.run (.reap :: before.map Mutation.direct)).registry.lookup? host.id = some h)) ∧
      ∀ switchboard listeners,
        let d := { c with switchboard, named := { c.named with listeners } }
        d.flush.1 = c.flush.1 ∧ d.flush.2.core = c.flush.2.core := by
  intro c hf hm
  have hq : c.queue.Unbroken := unbroken_run table settings surroundings journal as
  obtain ⟨report, hreport, hflushes⟩ := flushes_flush (rfl : c.core = c.core) hq hf hm
  refine ⟨hq, report, hreport, hflushes, hflushes.total, fun error he => ?_,
    fun switchboard listeners => ?_⟩
  · obtain ⟨before, host, after, h, hsplit, rfl, hhandle⟩ := hflushes.rejected he
    refine ⟨before, host, after, h, hsplit, rfl, hhandle, fun hcap => ?_⟩
    have hrun : c.run (.reap :: before.map Mutation.direct) =
        (withTable table settings surroundings journal).run
          (as ++ .reap :: before.map Mutation.direct) := (run_append _ _ _).symm
    have hbefore := Nat.le_trans (hflushes.capacity_le hsplit) hcap
    rw [hrun] at hbefore hhandle ⊢
    exact (lookup?_iff (consistent_run _ _ _ _ _ hbefore)).mpr hhandle
  · intro d
    obtain ⟨report', hreport', hflushes'⟩ := flushes_flush (c := d) (d := c) rfl hq hf hm
    have hsame : report' = report := hflushes'.report.trans hflushes.report.symm
    exact ⟨hreport'.trans (hsame ▸ hreport.symm), hflushes'.core.trans hflushes.core.symm⟩

/-- A host object is bound a second time, gets a component, is torn down by its identity and
once more by its handle, and a signal is raised. -/
theorem flush_run_mixed :
    let c := sample.run [.bind ⟨⟨7⟩, 0⟩, .enqueue (.create ⟨⟨7⟩, 0⟩),
      .enqueue (.addComponent ⟨0, 0⟩ ⟨1⟩ (.int 1)), .enqueue (.destroy (.host ⟨7⟩)),
      .enqueue (.destroy (.handle ⟨0, 0⟩)), .enqueue (.signal "done" [⟨0, 0⟩] none)]
    c.frame.flushed = false ∧ (∀ m ∈ c.waiting, m.InTime c.frame.time) ∧
      c.flush.1 =
        .ok (.ok { applied := 3, stale := 1, rejected := [.alreadyBound ⟨7⟩ ⟨0, 0⟩] }) := by
  intro c
  have hf : c.frame.flushed = false := by decide +kernel
  have hwaiting : c.waiting = [.create ⟨⟨7⟩, 0⟩, .addComponent ⟨0, 0⟩ ⟨1⟩ (.int 1),
    .destroy (.host ⟨7⟩), .destroy (.handle ⟨0, 0⟩), .signal "done" [⟨0, 0⟩] none] := rfl
  have hm : ∀ m ∈ c.waiting, m.InTime c.frame.time := by
    rintro m hin name entities delay rfl
    rw [hwaiting] at hin
    simp only [List.mem_cons, reduceCtorEq, false_or, List.not_mem_nil, or_false,
      Mutation.signal.injEq] at hin
    obtain ⟨-, -, rfl⟩ := hin
    decide
  have hrefusals : refusals c.waiting c.reap.2 = [some (.alreadyBound ⟨7⟩ ⟨0, 0⟩), none, none,
      some (.staleHandle ⟨0, 0⟩), none] := by
    decide +kernel
  obtain ⟨-, report, hreport, hflushes, -⟩ := flush_run sample.table sample.settings
    sample.surroundings sample.journal _ hf hm
  have htold : report = _ := hflushes.report.trans (congrArg _ hrefusals)
  refine ⟨hf, hm, hreport.trans ?_⟩
  rw [htold]
  rfl

end Coordinator

end Tether
