import Mathlib.Data.List.TakeWhile
import Tether.Proofs.Dispatches
import Tether.Proofs.Flushing

/-!
# Flushes that run over the clock

A mutation that asks for a signal after a delay needs a time for it. If the clock and the delay
add up to more than the longest duration there is none, and the flush stops at that mutation
without an answer (`Mutation.isLate_iff`). All other mutations are applied, found stale or
rejected, and the flush goes on.

`Coordinator.flush_run_reached` says what every flush does, whether or not it stops : the
mutations before the first that is late have the effect of their direct calls, and those behind
it are lost, since the queue is emptied before the first one is applied. That is what
`Coordinator.flush_stops` shows of a queue of two.
-/

set_option linter.unusedSectionVars false

namespace Tether

/-- A second. -/
def Duration.second : Duration := ⟨nanosPerSecond, by decide⟩

/-- The longest duration. -/
def Duration.longest : Duration := ⟨limit - 1, by decide⟩

/-- Whether there is no time for what a mutation asks for. -/
def Mutation.isLate (now : Duration) : Mutation → Bool
  | .signal _ _ delay => (now.add? (delay.getD .zero)).isNone
  | _ => false

/-- Only a signal can be late, and only after a delay that leads beyond the longest duration. -/
theorem Mutation.isLate_iff {m : Mutation} {now : Duration} : m.isLate now = true ↔
    ∃ name entities delay, m = .signal name entities (some delay) ∧
      Duration.limit ≤ now.nanos + delay.nanos := by
  cases m with
  | signal name entities delay =>
    cases delay with
    | none =>
      have hbound : ¬Duration.limit ≤ now.nanos + Duration.zero.nanos := Nat.not_le.mpr now.bounded
      simp [isLate, Duration.add?_eq_none, hbound]
    | some delay =>
      rw [isLate, Option.getD_some, Option.isNone_iff_eq_none, Duration.add?_eq_none]
      exact ⟨fun h => ⟨name, entities, delay, rfl, h⟩, by rintro ⟨_, _, _, ⟨⟩, h⟩; exact h⟩
  | _ => simp [isLate]

theorem Mutation.inTime_iff {m : Mutation} {now : Duration} :
    m.InTime now ↔ m.isLate now = false := by
  cases m with
  | signal name entities delay =>
    simp only [InTime, isLate, Mutation.signal.injEq, and_imp]
    constructor
    · intro h
      simpa using h name entities delay rfl rfl rfl
    · rintro h _ _ _ rfl rfl rfl
      simpa using h
  | _ => simp [InTime, isLate]

namespace Coordinator

variable {ο σ : Type} [HostObject ο] {c d : Coordinator ο σ}

theorem applyAll_append (ps qs : List Pending) (report : FlushReport) (c : Coordinator ο σ) :
    applyAll (ps ++ qs) report c =
      match applyAll ps report c with
      | (.error overflow, c) => (.error overflow, c)
      | (.ok report, c) => applyAll qs report c := by
  induction ps generalizing report c with
  | nil => rfl
  | cons p ps ih =>
    rw [List.cons_append, applyAll, applyAll]
    generalize c.perform p.mutation = x
    obtain ⟨result, d⟩ := x
    cases result with
    | error overflow => rfl
    | ok outcome => exact ih _ _

/-- Where there is no time for a mutation, nothing happens but that it is told of. -/
theorem perform_late {m : Mutation} (h : m.isLate c.frame.time = true) :
    ∃ journal, c.perform m = (.error ⟨⟩, { c with journal }) := by
  cases m with
  | signal name entities delay =>
    have hnone := Option.isNone_iff_eq_none.mp h
    simp only [perform, delaySignal, NamedSignals.schedule, NamedSignals.delay, raising, hnone]
    exact ⟨_, rfl⟩
  | _ => cases h

/-- Mutations are applied up to the first that is late. -/
theorem applyAll_late {ps : List Pending} {p : Pending} (qs : List Pending) (report : FlushReport)
    (h : c.core = d.core) (hps : ∀ p ∈ ps, p.mutation.InTime c.frame.time)
    (hp : p.mutation.isLate c.frame.time = true) :
    ∃ report' c', applyAll (ps ++ p :: qs) report c = (.error ⟨⟩, c') ∧
      Applies ps report c d report' c' := by
  obtain ⟨report', c', heq, happlies⟩ := applies_applyAll ps report h hps
  have hframe : c'.frame = c.frame := by
    have hrest := congrArg Rest.frame (rest_applyAll ps report c)
    rwa [heq] at hrest
  obtain ⟨journal, hlate⟩ := perform_late (c := c') (hframe ▸ hp)
  refine ⟨report', { c' with journal }, ?_, happlies.core, happlies.report, happlies.incidents⟩
  rw [applyAll_append, heq]
  dsimp only
  rw [applyAll, hlate]

/-- The mutations that a flush comes to : those that wait before the first that is late. -/
def reached (c : Coordinator ο σ) : List Mutation :=
  c.waiting.takeWhile fun m => !m.isLate c.frame.time

/-- What a flush does in a frame that was not flushed, whether or not it stops. -/
structure FlushesReached (c : Coordinator ο σ) : Prop where
  /-- It completes exactly if no signal that waits is late, -/
  completes : (∃ report, c.flush.1 = .ok (.ok report)) ↔
    ¬∃ name entities delay, .signal name entities (some delay) ∈ c.waiting ∧
      Duration.limit ≤ c.frame.time.nanos + delay.nanos
  /-- and stops without an answer otherwise. -/
  stops : c.flush.1 = .error ⟨⟩ ↔
    ∃ name entities delay, .signal name entities (some delay) ∈ c.waiting ∧
      Duration.limit ≤ c.frame.time.nanos + delay.nanos
  /-- What it comes to has the effect of the direct calls, one after another. -/
  core : c.flush.2.core = (c.run (.reap :: c.reached.map Mutation.direct)).core
  /-- Nothing is left in the queue even if it stops. -/
  rest : c.flush.2.rest = { c.rest with
    queue := { c.queue with pending := #[], next := c.queue.sequence }
    frame := c.flushing.frame }
  /-- The report tells what the direct calls are refused for, if there is one, -/
  report : ∀ report, c.flush.1 = .ok (.ok report) →
    report = FlushReport.tally { reaped := c.reap.1 } (refusals c.waiting c.reap.2)
  /-- and so do the incidents in any case, as far as it came. -/
  incidents : ∃ is, c.flush.2.incidents = c.incidents.map (· ++ is) ∧
    is.toList.filter (fun i => !i.isMaterialization) =
      incidentsOf c.queue.pending.toList (refusals c.reached c.reap.2)

/-- Among the mutations that wait there is one that is late, or there is none. -/
theorem exists_late_iff (c : Coordinator ο σ) : (∃ m ∈ c.waiting, m.isLate c.frame.time = true) ↔
    ∃ name entities delay, .signal name entities (some delay) ∈ c.waiting ∧
      Duration.limit ≤ c.frame.time.nanos + delay.nanos := by
  simp only [Mutation.isLate_iff]
  constructor
  · rintro ⟨_, hm, name, entities, delay, rfl, hlate⟩
    exact ⟨name, entities, delay, hm, hlate⟩
  · rintro ⟨name, entities, delay, hm, hlate⟩
    exact ⟨_, hm, name, entities, delay, rfl, hlate⟩

theorem flushesReached_of_inTime (hq : c.queue.Unbroken) (hf : c.frame.flushed = false)
    (hm : ¬∃ m ∈ c.waiting, m.isLate c.frame.time = true) : c.FlushesReached := by
  have hin : ∀ m ∈ c.waiting, m.isLate c.frame.time = false := fun m hmem => by
    rw [← Bool.not_eq_true]
    exact fun hlate => hm ⟨m, hmem, hlate⟩
  have hreached : c.reached = c.waiting := by
    rw [reached, List.takeWhile_eq_self_iff]
    exact fun m hmem => by simp [hin m hmem]
  obtain ⟨report, hreport, hflushes⟩ :=
    flushes_flush (rfl : c.core = c.core) hq hf fun m hmem => Mutation.inTime_iff.mpr (hin m hmem)
  constructor
  case completes =>
    rw [← exists_late_iff]
    exact ⟨fun _ => hm, fun _ => ⟨report, hreport⟩⟩
  case stops =>
    rw [← exists_late_iff, hreport]
    exact ⟨by rintro ⟨⟩, fun h => absurd h hm⟩
  case core => exact hreached ▸ hflushes.core
  case rest => exact hflushes.rest
  case report =>
    intro report' hreport'
    rw [hreport] at hreport'
    cases hreport'
    exact hflushes.report
  case incidents => exact hreached ▸ hflushes.incidents

/-- The first late mutation parts what waits. -/
theorem pending_of_late (hm : ∃ m ∈ c.waiting, m.isLate c.frame.time = true) :
    ∃ ps p qs, c.queue.pending.toList = ps ++ p :: qs ∧ c.reached = ps.map Pending.mutation ∧
      (∀ p ∈ ps, p.mutation.isLate c.frame.time = false) ∧
      p.mutation.isLate c.frame.time = true := by
  obtain ⟨_, hmem, hlate⟩ := hm
  obtain ⟨q, hq, rfl⟩ := List.mem_map.mp hmem
  generalize hps : c.queue.pending.toList.takeWhile (fun p => !p.mutation.isLate c.frame.time) = ps
  have hreached : c.reached = ps.map Pending.mutation := by
    rw [reached, waiting, List.takeWhile_map, ← hps]
    rfl
  have happend := List.takeWhile_append_dropWhile
    (p := fun p : Pending => !p.mutation.isLate c.frame.time) (l := c.queue.pending.toList)
  rw [hps] at happend
  have hin : ∀ p ∈ ps, p.mutation.isLate c.frame.time = false := fun p hp => by
    rw [← hps] at hp
    simpa using List.mem_takeWhile_imp hp
  cases hrest : c.queue.pending.toList.dropWhile (fun p => !p.mutation.isLate c.frame.time) with
  | nil =>
    rw [hrest, List.append_nil] at happend
    rw [← happend] at hq
    exact absurd hlate (by simp [hin q hq])
  | cons p qs =>
    have hhead := List.head?_dropWhile_not
      (fun p : Pending => !p.mutation.isLate c.frame.time) c.queue.pending.toList
    rw [hrest] at hhead happend
    exact ⟨ps, p, qs, happend.symm, hreached, hin, by simpa using hhead⟩

/-- Incidents of what is applied come behind those of what is reaped. -/
theorem Applies.incidents_append {ps : List Pending} {report report' : FlushReport}
    {c c' d : Coordinator ο σ} {is : Array Incident} (h : Applies ps report c d report' c')
    {before : Option (Array Incident)} (hc : c.incidents = before.map (· ++ is))
    (his : ∀ i ∈ is, i.isMaterialization = true) :
    ∃ js, c'.incidents = before.map (· ++ js) ∧ js.toList.filter (fun i => !i.isMaterialization) =
      incidentsOf ps (refusals (ps.map Pending.mutation) d) := by
  obtain ⟨js, hjs, hown⟩ := h.incidents
  refine ⟨is ++ js, ?_, ?_⟩
  · rw [hjs, hc]
    cases before <;> simp
  · have hnone : is.toList.filter (fun i => !i.isMaterialization) = [] := by simpa using his
    rw [Array.toList_append, List.filter_append, hnone, List.nil_append, hown]

/-- Incidents are told of the mutations that were tried. -/
theorem incidentsOf_append_left {ps qs : List Pending} {rs : List (Option Error)}
    (h : rs.length = ps.length) : incidentsOf (ps ++ qs) rs = incidentsOf ps rs := by
  have hzip : (ps ++ qs).zip (rs ++ []) = ps.zip rs ++ qs.zip [] := List.zip_append h.symm
  rw [List.append_nil, List.zip_nil_right, List.append_nil] at hzip
  rw [incidentsOf, hzip, incidentsOf]

theorem flushesReached_of_late (hq : c.queue.Unbroken) (hf : c.frame.flushed = false)
    (hm : ∃ m ∈ c.waiting, m.isLate c.frame.time = true) : c.FlushesReached := by
  obtain ⟨ps, p, qs, hsplit, hreached, hin, hlate⟩ := pending_of_late hm
  obtain ⟨-, hcore, is, hsends, -⟩ := tandem_reap (show c.flushing.core = c.core from rfl)
  have htime : c.drained.frame.time = c.frame.time := by rw [frame_drained]; rfl
  obtain ⟨report, c', heq, happlies⟩ := applyAll_late qs { reaped := c.flushing.reap.1 }
    (c.core_drained.trans hcore)
    (fun p hp => Mutation.inTime_iff.mpr (htime ▸ hin p hp)) (htime ▸ hlate)
  have hflush : c.flush = (.error ⟨⟩, c') := by
    rw [flush_eq hf, due_of_unbroken hq, hsplit, heq]
  have hrest := rest_flush hf
  constructor
  case completes =>
    rw [← exists_late_iff, hflush]
    exact ⟨by rintro ⟨_, ⟨⟩⟩, fun hnone => absurd hm hnone⟩
  case stops => exact ⟨fun _ => (exists_late_iff c).mp hm, fun _ => by rw [hflush]⟩
  case core =>
    rw [hflush, run_cons, hreached, List.map_map]
    exact happlies.core
  case rest => rw [hrest, show c.queue.drain = _ from hq.drain_eq]
  case report =>
    rw [hflush]
    rintro report ⟨⟩
  case incidents =>
    have hlength : (refusals c.reached c.reap.2).length = ps.length := by
      rw [length_refusals, hreached, List.length_map]
    rw [hflush, hsplit, incidentsOf_append_left hlength, hreached]
    exact happlies.incidents_append (c.incidents_drained.trans hsends.incidents)
      hsends.materialization

/-- What every flush does, after any run : it applies the mutations that wait, in order of
submission, up to the first that is late. -/
theorem flush_run_reached (table : Table) (settings : Settings)
    (surroundings : Surroundings ο σ) (journal : Journal) (as : List (Action ο σ))
    (hf : ((withTable table settings surroundings journal).run as).frame.flushed = false) :
    ((withTable table settings surroundings journal).run as).FlushesReached := by
  have hq := unbroken_run table settings surroundings journal as
  by_cases hm : ∃ m ∈ ((withTable table settings surroundings journal).run as).waiting,
      m.isLate ((withTable table settings surroundings journal).run as).frame.time = true
  · exact flushesReached_of_late hq hf hm
  · exact flushesReached_of_inTime hq hf hm

theorem waiting_enqueues (ms : List Mutation) (c : Coordinator ο σ) :
    (c.run (ms.map .enqueue)).waiting = c.waiting ++ ms := by
  induction ms generalizing c with
  | nil => simp
  | cons m ms ih =>
    have hone : (c.act (.enqueue m)).waiting = c.waiting ++ [m] := by
      simp [act, enqueue, waiting, MutationQueue.enqueue, MutationQueue.claim, MutationQueue.push]
    rw [List.map_cons, run_cons, ih, hone, List.append_assoc, List.singleton_append]

/-- A run in which the clock moves on before mutations are submitted. -/
def hurried (ms : List Mutation) : List (Action PropertyBag Unit) :=
  .step .second :: ms.map .enqueue

theorem waiting_hurried (ms : List Mutation) : (sample.run (hurried ms)).waiting = ms := by
  have hstep : (sample.act (.step .second)).waiting = [] :=
    List.length_eq_zero_iff.mp (by decide +kernel)
  rw [hurried, run_cons, waiting_enqueues, hstep, List.nil_append]

/-- A signal that is late parts the queue. -/
theorem flush_run_reached_parted :
    let c := sample.run (hurried [.create ⟨⟨7⟩, 0⟩, .signal "late" [] (some .longest),
      .destroy (.host ⟨7⟩)])
    c.frame.flushed = false ∧ c.flush.1 = .error ⟨⟩ ∧
      c.flush.2.core = (c.run [.reap, .bind ⟨⟨7⟩, 0⟩]).core := by
  intro c
  have hf : c.frame.flushed = false := by decide +kernel
  have h : c.FlushesReached := flush_run_reached sample.table sample.settings
    sample.surroundings sample.journal _ hf
  have hwaiting : c.waiting = _ := waiting_hurried _
  have hlate : (Mutation.signal "late" [] (some .longest)).isLate c.frame.time = true := by
    decide +kernel
  have hexists : ∃ m ∈ c.waiting, m.isLate c.frame.time = true :=
    ⟨_, hwaiting ▸ List.mem_cons_of_mem _ List.mem_cons_self, hlate⟩
  have hreached : c.reached = [.create ⟨⟨7⟩, 0⟩] := by
    rw [reached, hwaiting, List.takeWhile_cons_of_pos (by simp [Mutation.isLate]),
      List.takeWhile_cons_of_neg (by simp [hlate])]
  have hcore := h.core
  rw [hreached] at hcore
  exact ⟨hf, h.stops.mpr ((exists_late_iff c).mp hexists), hcore⟩

/-- A late signal that waits in front of a mutation makes the flush stop and lose the mutation. Its
direct call would have bound the host object. -/
theorem flush_stops :
    let c := sample.run (hurried [.signal "late" [] (some .longest), .create ⟨⟨7⟩, 0⟩])
    c.frame.flushed = false ∧ c.flush.1 = .error ⟨⟩ ∧ c.flush.2.queue.pending = #[] ∧
      c.flush.2.registry.handleOf? ⟨7⟩ = none ∧
      (c.run [.reap, .bind ⟨⟨7⟩, 0⟩]).registry.handleOf? ⟨7⟩ = some ⟨0, 0⟩ := by
  intro c
  have hf : c.frame.flushed = false := by decide +kernel
  have hq : c.queue.Unbroken := unbroken_run sample.table sample.settings sample.surroundings
    sample.journal _
  have hwaiting : c.waiting = _ := waiting_hurried _
  have hlate : (Mutation.signal "late" [] (some .longest)).isLate c.frame.time = true := by
    decide +kernel
  have hexists : ∃ m ∈ c.waiting, m.isLate c.frame.time = true :=
    ⟨_, hwaiting ▸ List.mem_cons_self, hlate⟩
  have h : c.FlushesReached := flushesReached_of_late hq hf hexists
  have hreached : c.reached = [] := by
    rw [reached, hwaiting, List.takeWhile_cons_of_neg (by simp [hlate])]
  have hregistry := congrArg Core.registry h.core
  rw [hreached] at hregistry
  refine ⟨hf, h.stops.mpr ((exists_late_iff c).mp hexists), ?_, ?_, ?_⟩
  · exact congrArg (fun r => r.queue.pending) h.rest
  · rw [show c.flush.2.registry = _ from hregistry]
    decide +kernel
  · decide +kernel

end Coordinator

end Tether
