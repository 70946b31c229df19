import Tether.Proofs.Structure

/-!
# Handles of entities that are gone

Tearing down an entity moves its slot on to the next generation, so its handle is behind from
then on (`Population.Retired`). Generations never go back as long as they do not wrap round,
and that takes as many teardowns as there are generations (`Population.Bounded`). So a handle
that is behind stays behind, and is not issued again (`Population.Trace.retired`).

Every operation compares the generation of the handle that it is given with that of the entry
or the row which it finds. A handle that is behind therefore finds nothing : it cannot be
looked up, what is asked for it is refused as stale, whoever else lives in its slot by now, and
what is left to be delivered for it is delivered without it (`Coordinator.Inert`).
-/

set_option linter.unusedSectionVars false

namespace Tether

/-- How many of the signals tell of the end of an entity. -/
def teardowns (ss : List Signal) : Nat := ss.countP fun s => s.kind = .entityDestroying

@[simp] theorem teardowns_append (ss ts : List Signal) :
    teardowns (ss ++ ts) = teardowns ss + teardowns ts :=
  List.countP_append

/-! ## Generations -/

namespace Population

/-- The slot of a handle has moved on to a later generation. -/
def Retired (p : Population) (h : Handle) : Prop :=
  ∃ g, p.registry.allocator.current? h.index = some g ∧ h.generation.toNat < g.toNat

/-- No slot was given back more than `n` times. -/
def Bounded (p : Population) (n : Nat) : Prop :=
  ∀ i g, p.registry.allocator.current? i = some g → g.toNat ≤ n

theorem Bounded.mono {p : Population} {m n : Nat} (h : p.Bounded m) (hmn : m ≤ n) :
    p.Bounded n :=
  fun i g hg => Nat.le_trans (h i g hg) hmn

theorem bounded_empty : Bounded ⟨{}, {}⟩ 0 := by
  intro i g hg
  simp [Allocator.current?] at hg

theorem Retired.of_allocator {p q : Population} {h : Handle} (hr : p.Retired h)
    (ha : q.registry.allocator = p.registry.allocator) : q.Retired h := by
  rw [Retired, ha]
  exact hr

theorem toNat_next_le (g : UInt32) : (g + 1).toNat ≤ g.toNat + 1 := by
  rw [UInt32.toNat_add]
  exact Nat.mod_le _ _

theorem toNat_next {g : UInt32} (hg : g.toNat + 1 < 2 ^ 32) : (g + 1).toNat = g.toNat + 1 := by
  rw [UInt32.toNat_add]
  exact Nat.mod_eq_of_lt hg

section Changes

variable {p q : Population} {n : Nat} {h : Handle}

theorem Attached.bounded {h' host cells row degraded}
    (ha : Attached p h' host cells row degraded q) (hcap : q.capacity ≤ 2 ^ 32)
    (hp : p.Consistent) (hn : p.Bounded n) : q.Bounded n := by
  have hi := ha.allocator_issued hp hcap
  intro i g hg
  by_cases hih : i = h'.index
  · rw [hih, hi.current] at hg
    rw [← Option.some.inj hg]
    cases hold : p.registry.allocator.current? h'.index with
    | some g' => exact hi.kept g' hold ▸ hn _ g' hold
    | none =>
      rw [hi.fresh hold]
      exact Nat.zero_le n
  · rw [hi.others i hih] at hg
    exact hn i g hg

theorem Detached.bounded {e row} (hd : Detached p e row q) (hp : p.Consistent)
    (hn : p.Bounded n) : q.Bounded (n + 1) := by
  have hcur := hd.current hp
  intro i g hg
  rw [hd.allocator, Allocator.current?_free hcur] at hg
  split at hg
  · rw [← Option.some.inj hg]
    exact Nat.le_trans (toNat_next_le _) (Nat.add_le_add_right (hn _ _ hcur) 1)
  · exact Nat.le_trans (hn i g hg) (Nat.le_add_right n 1)

/-- A generation is reached only by that many teardowns. -/
theorem Change.bounded {ss : List Signal} (hc : Change p ss q) (hcap : q.capacity ≤ 2 ^ 32)
    (hp : p.Consistent) (hn : p.Bounded n) : q.Bounded (n + teardowns ss) := by
  cases hc with
  | quiet ha =>
    rw [Bounded, ha.allocator]
    exact hn.mono (Nat.le_add_right _ _)
  | attach ha => exact (ha.bounded hcap hp hn).mono (Nat.le_add_right _ _)
  | detach hd => exact hd.bounded hp hn
  | add hs _ =>
    rw [Bounded, hs.registry]
    exact hn.mono (Nat.le_add_right _ _)
  | remove hs _ =>
    rw [Bounded, hs.registry]
    exact hn.mono (Nat.le_add_right _ _)

/-- A handle that is behind is not the one that is issued. -/
theorem Attached.retired {h' host cells row degraded}
    (ha : Attached p h' host cells row degraded q) (hcap : q.capacity ≤ 2 ^ 32)
    (hp : p.Consistent) (hr : p.Retired h) : q.Retired h ∧ h' ≠ h := by
  have hi := ha.allocator_issued hp hcap
  obtain ⟨g, hg, hlater⟩ := hr
  constructor
  · refine ⟨g, ?_, hlater⟩
    by_cases hih : h.index = h'.index
    · rw [hih] at hg ⊢
      rw [hi.current, hi.kept g hg]
    · rw [hi.others _ hih]
      exact hg
  · rintro rfl
    rw [hi.kept g hg] at hlater
    exact Nat.lt_irrefl _ hlater

theorem Detached.retired {e row} (hd : Detached p e row q) (hp : p.Consistent)
    (hn : p.Bounded n) (hlt : n + 1 < 2 ^ 32) (hr : p.Retired h) : q.Retired h := by
  have hcur := hd.current hp
  have hle := hn _ _ hcur
  obtain ⟨g, hg, hlater⟩ := hr
  rw [Retired, hd.allocator, Allocator.current?_free hcur]
  by_cases hih : h.index = e.handle.index
  · rw [hih, hcur] at hg
    rw [if_pos hih]
    refine ⟨_, rfl, ?_⟩
    rw [toNat_next (by omega), Option.some.inj hg]
    omega
  · rw [if_neg hih]
    exact ⟨g, hg, hlater⟩

/-- The end of an entity leaves its handle behind. -/
theorem Detached.retires {e row} (hd : Detached p e row q) (hp : p.Consistent)
    (hn : p.Bounded n) (hlt : n + 1 < 2 ^ 32) : q.Retired e.handle := by
  have hcur := hd.current hp
  have hle := hn _ _ hcur
  rw [Retired, hd.allocator, Allocator.current?_free hcur, if_pos rfl]
  refine ⟨_, rfl, ?_⟩
  rw [toNat_next (by omega)]
  omega

/-- A handle that is behind stays behind, and is not issued. -/
theorem Change.retired {ss : List Signal} (hc : Change p ss q) (hcap : q.capacity ≤ 2 ^ 32)
    (hp : p.Consistent) (hn : p.Bounded n) (hlt : n + teardowns ss < 2 ^ 32)
    (hr : p.Retired h) : q.Retired h ∧ ∀ id, Signal.entityCreated h id ∉ ss := by
  cases hc with
  | quiet ha => exact ⟨hr.of_allocator ha.allocator, by simp⟩
  | attach ha =>
    obtain ⟨hq, hne⟩ := ha.retired hcap hp hr
    exact ⟨hq, fun id => by simp [Ne.symm hne]⟩
  | detach hd => exact ⟨hd.retired hp hn hlt hr, by simp⟩
  | add hs _ => exact ⟨hr.of_allocator (by rw [hs.registry]), by simp⟩
  | remove hs _ => exact ⟨hr.of_allocator (by rw [hs.registry]), by simp⟩

/-- The end of an entity retires its handle, and is all that the change tells of. -/
theorem Change.retires {ss : List Signal} (hc : Change p ss q) (hp : p.Consistent)
    (hn : p.Bounded n) (hlt : n + teardowns ss < 2 ^ 32) {id : HostId}
    {components : List (ComponentId × Value)}
    (hin : Signal.entityDestroying h id components ∈ ss) :
    q.Retired h ∧ ss = [.entityDestroying h id components] := by
  cases hc with
  | quiet ha => simp at hin
  | attach ha => simp at hin
  | detach hd =>
    have heq := List.mem_singleton.mp hin
    obtain ⟨rfl, -, -⟩ := Signal.entityDestroying.inj heq
    exact ⟨hd.retires hp hn hlt, by rw [heq]⟩
  | add hs _ => simp at hin
  | remove hs _ => simp at hin

end Changes

/-! ## Along a series of changes -/

section Series

variable {p q : Population} {es : List Raised} {n : Nat} {h : Handle}

/-- A handle that is behind stays behind along a series of changes, and is not issued in it. -/
theorem Trace.retired (ht : Trace p es q) (hcap : q.capacity ≤ 2 ^ 32) (hp : p.Consistent)
    (hn : p.Bounded n) (hlt : n + teardowns (es.map Raised.signal) < 2 ^ 32)
    (hr : p.Retired h) :
    q.Retired h ∧ ∀ id, Signal.entityCreated h id ∉ es.map Raised.signal := by
  induction ht generalizing n with
  | nil => exact ⟨hr, by simp⟩
  | cons hc ht ih =>
    simp only [List.map_append, map_signal_raised, teardowns_append] at hlt ⊢
    have hmid := Nat.le_trans ht.capacity_le hcap
    obtain ⟨hr, hss⟩ := hc.retired hmid hp hn (by omega) hr
    obtain ⟨hr, hes⟩ := ih hcap (hc.consistent hmid hp) (hc.bounded hmid hp hn) (by omega) hr
    refine ⟨hr, fun id hin => ?_⟩
    rcases List.mem_append.mp hin with hin | hin
    · exact hss id hin
    · exact hes id hin

/-- A handle whose entity was torn down along a series of changes is behind at the end, and was
not issued since. -/
theorem Trace.retires (ht : Trace p es q) (hcap : q.capacity ≤ 2 ^ 32) (hp : p.Consistent)
    (hn : p.Bounded n) (hlt : n + teardowns (es.map Raised.signal) < 2 ^ 32)
    {before after : List Signal} {id : HostId} {components : List (ComponentId × Value)}
    (hes : es.map Raised.signal = before ++ .entityDestroying h id components :: after) :
    q.Retired h ∧ ∀ id', Signal.entityCreated h id' ∉ after := by
  induction ht generalizing n before with
  | nil => simp at hes
  | cons hc ht ih =>
    simp only [List.map_append, map_signal_raised, teardowns_append] at hlt hes
    have hmid := Nat.le_trans ht.capacity_le hcap
    have hp' := hc.consistent hmid hp
    have hn' := hc.bounded hmid hp hn
    -- the teardown is told of later, or by this very change
    rcases List.append_eq_append_iff.mp hes with ⟨more, -, hmore⟩ | ⟨rest, hss, hrest⟩
    · exact ih hcap hp' hn' (by omega) hmore
    · cases rest with
      | nil => exact ih hcap hp' hn' (by omega) (show _ = [] ++ _ from hrest.symm)
      | cons s rest =>
        obtain ⟨rfl, hafter⟩ := List.cons.inj hrest
        have hin : Signal.entityDestroying h id components ∈
            before ++ .entityDestroying h id components :: rest := by simp
        rw [← hss] at hin
        obtain ⟨hr, hone⟩ := hc.retires hp hn (by omega) hin
        rw [hone] at hss
        have hnil : before = [] ∧ rest = [] := by
          have hlen := congrArg List.length hss
          simp only [List.length_append, List.length_cons, List.length_nil] at hlen
          exact ⟨List.length_eq_zero_iff.mp (by omega), List.length_eq_zero_iff.mp (by omega)⟩
        rw [hafter, hnil.2]
        exact ht.retired hcap hp' hn' (by omega) hr

end Series

end Population

/-! ## Inert handles -/

/-- The handle that a mutation of an existing entity names. -/
def Mutation.handle? : Mutation → Option Handle
  | .destroy (.handle h) => some h
  | .addComponent h _ _ => some h
  | .removeComponent h _ => some h
  | _ => none

/-- The waiting signal without an entity. -/
def Delayed.without (d : Delayed) (h : Handle) : Delayed :=
  { d with entities := d.entities.filter (· ≠ h) }

namespace Coordinator

variable {ο σ : Type} [HostObject ο]

/-- Nothing is found under a handle, and nothing that is asked for it has any effect. -/
structure Inert (c : Coordinator ο σ) (h : Handle) : Prop where
  /-- It is not issued next. -/
  unissued : ∀ host, (c.bind host).2.registry.allocator.capacity ≤ 2 ^ 32 →
    (c.bind host).1 ≠ .ok h
  lookup : ∀ id, c.registry.lookup? id ≠ some h
  resolve : c.registry.resolve? h = none
  component : ∀ id, c.component? h id = none
  write : ∀ id value, c.writeComponent h id value = (false, c)
  unbind : c.unbind h = (.error (.staleHandle h), c)
  add : ∀ id value, c.addComponent h id value = (.error (.staleHandle h), c)
  remove : ∀ id, c.removeComponent h id = (.error (.staleHandle h), c)
  synchronize : ∀ direction, c.synchronize h direction = (.error (.staleHandle h), c)
  /-- A mutation of it is refused, -/
  perform : ∀ m : Mutation, m.handle? = some h →
    c.perform m = (.ok (.error (.staleHandle h)), c)
  /-- and counted as stale, which leaves the population as it is. -/
  record : ∀ p report, (record p report (.error (.staleHandle h)) c).1 =
      { report with stale := report.stale + 1 } ∧
    (record p report (.error (.staleHandle h)) c).2.population = c.population
  /-- A named signal for it is the same as one without it, -/
  signal : ∀ name entities,
    c.signal name entities = c.signal name (entities.filter (· ≠ h)) ∧
    (c.signal name entities).2.population = c.population
  /-- and so are signals that become due. -/
  release : ∀ (due : List Delayed) (state : Nat × NamedSignals.Raising (Surroundings ο σ)),
    due.foldl (NamedSignals.release c.registry.isBound) state =
      (due.map (Delayed.without · h)).foldl (NamedSignals.release c.registry.isBound) state
  /-- Among the failures of listeners those on it flag nobody. -/
  contain : ∀ fs : List ListenerFailure,
    (fs.foldl Coordinator.contain c).population =
      ((fs.filter (·.handle ≠ h)).foldl Coordinator.contain c).population

theorem registry_contain (c : Coordinator ο σ) (f : ListenerFailure) :
    (c.contain f).registry = c.registry.markDegraded f.handle := rfl

/-- Of the failures of listeners the population keeps the flags. -/
theorem population_foldl_contain (fs : List ListenerFailure) (c : Coordinator ο σ) :
    (fs.foldl contain c).population =
      ⟨fs.foldl (fun r f => r.markDegraded f.handle) c.registry, c.world⟩ := by
  induction fs generalizing c with
  | nil => rfl
  | cons f fs ih => exact ih (c.contain f)

section Retired

variable {c : Coordinator ο σ} {h : Handle} (hp : c.population.Consistent)
  (hr : c.population.Retired h)
include hp hr

theorem find?_of_retired : c.registry.find? h = none := by
  cases hf : c.registry.find? h with
  | none => rfl
  | some e =>
    obtain ⟨g, hg, hlater⟩ := hr
    obtain ⟨he, rfl⟩ := Registry.find?_eq_some_iff.mp hf
    have hcur := (hp.current he).symm.trans hg
    rw [Option.some.inj hcur] at hlater
    exact absurd hlater (Nat.lt_irrefl _)

theorem bound_of_retired : c.registry.bound h = .error (.staleHandle h) := by
  obtain ⟨g, hg, hlater⟩ := hr
  refine Registry.bound_of_moved (find?_of_retired hp ⟨g, hg, hlater⟩) hg ?_
  rintro rfl
  exact Nat.lt_irrefl _ hlater

theorem isBound_of_retired : c.registry.isBound h = false := by
  simp [Registry.isBound, bound_of_retired hp hr, Except.toBool]

theorem bind_ne_of_retired {host : HostRef}
    (hcap : (c.bind host).2.registry.allocator.capacity ≤ 2 ^ 32) :
    (c.bind host).1 ≠ .ok h := by
  intro hbind
  obtain ⟨rfl, object, hattach⟩ := attached_of_bind hbind
  have hle := (c.moves_bind_of_attach host).evolves.capacity_le
  rw [hattach, capacity_attached] at hle
  have hi := Allocator.issued_alloc hp.nodup (fun i hi => ((hp.pooled i).mp hi).1)
    (Nat.le_trans hle hcap)
  obtain ⟨g, hg, hlater⟩ := hr
  rw [hi.kept g hg] at hlater
  exact Nat.lt_irrefl _ hlater

/-- Filtering by who is bound drops the handle anyway. -/
theorem filter_isBound_of_retired (entities : List Handle) :
    (entities.filter (· ≠ h)).filter c.registry.isBound =
      entities.filter c.registry.isBound := by
  rw [List.filter_filter]
  refine List.filter_congr fun x _ => ?_
  by_cases hx : x = h
  · simp [hx, isBound_of_retired hp hr]
  · simp [hx]

theorem markDegraded_of_retired : c.registry.markDegraded h = c.registry := by
  simp [Registry.markDegraded, Registry.modify, find?_of_retired hp hr]

theorem inert_of_retired : c.Inert h where
  unissued host hcap := bind_ne_of_retired hp hr hcap
  lookup id hid := by
    obtain ⟨h', -, e, he, hh⟩ := Registry.lookup?_eq_some_iff.mp hid
    have hf := (bound_iff_find? hp).mp he
    rw [Registry.handle_of_find? hf] at hh
    rw [hh, bound_of_retired hp hr] at he
    cases he
  resolve := by simp [Registry.resolve?, bound_of_retired hp hr, Except.toOption]
  component id := by simp [component?, isBound_of_retired hp hr]
  write id value := by simp [writeComponent, component?, isBound_of_retired hp hr]
  unbind := unbind_of_error (bound_of_retired hp hr)
  add id value := by simp [addComponent, bound_of_retired hp hr]
  remove id := by simp [removeComponent, bound_of_retired hp hr]
  synchronize direction := by simp [Coordinator.synchronize, bound_of_retired hp hr]
  perform m hm := by
    have hb := bound_of_retired hp hr
    cases m with
    | destroy target =>
      cases target with
      | handle h' =>
        cases hm
        simp [Coordinator.perform, unbind_of_error hb]
      | host id => cases hm
    | addComponent h' id value =>
      cases hm
      simp [Coordinator.perform, addComponent, hb, Except.map]
    | removeComponent h' id =>
      cases hm
      simp [Coordinator.perform, removeComponent, hb, Except.map]
    | create host => cases hm
    | signal name entities delay => cases hm
  record p report := ⟨rfl, rfl⟩
  signal name entities := by
    refine ⟨?_, rfl⟩
    unfold Coordinator.signal
    rw [filter_isBound_of_retired hp hr]
  release due state := by
    induction due generalizing state with
    | nil => rfl
    | cons d due ih =>
      have hd : NamedSignals.release c.registry.isBound state (d.without h) =
          NamedSignals.release c.registry.isBound state d := by
        unfold NamedSignals.release Delayed.without
        rw [filter_isBound_of_retired hp hr]
      rw [List.map_cons, List.foldl_cons, List.foldl_cons, hd, ih]
  contain fs := by
    induction fs generalizing c with
    | nil => rfl
    | cons f fs ih =>
      have hcalm := c.calm_contain f
      rw [List.foldl_cons, ih (hcalm.alike.consistent hp) (hr.of_allocator hcalm.alike.allocator)]
      by_cases hf : f.handle = h
      · rw [List.filter_cons_of_neg (by simpa using hf), population_foldl_contain,
          population_foldl_contain, registry_contain, hf, markDegraded_of_retired hp hr]
        rfl
      · rw [List.filter_cons_of_pos (by simpa using hf), List.foldl_cons]

end Retired

end Coordinator

/-! ## Handles in the queue -/

/-- Whether a mutation was found to come too late. -/
def Applied.isStale (a : Applied) : Bool :=
  match a.outcome with
  | .error error => error.isStale
  | .ok _ => false

namespace Coordinator

variable {ο σ : Type} [HostObject ο]

theorem stale_record (p : Pending) (report : FlushReport) (outcome : Except Error Unit)
    (raised : List Raised) (c : Coordinator ο σ) :
    (record p report outcome c).1.stale =
      report.stale + (Applied.isStale ⟨p, outcome, raised⟩).toNat := by
  unfold record Applied.isStale
  cases outcome with
  | ok _ => rfl
  | error error => cases hs : error.isStale <;> simp [hs]

theorem stale_applyAll (ps : List Pending) (report : FlushReport) (c : Coordinator ο σ)
    {report' : FlushReport} (h : (applyAll ps report c).1 = .ok report') :
    report'.stale = report.stale + (applications ps c).countP Applied.isStale := by
  induction ps generalizing report c with
  | nil =>
    cases h
    rfl
  | cons p ps ih =>
    unfold applyAll at h
    unfold applications
    cases hperform : c.perform p.mutation with
    | mk result d =>
      rw [hperform] at h
      cases result with
      | error overflow => cases h
      | ok outcome =>
        have hrest := ih (record p report outcome d).1 (record p report outcome d).2 h
        dsimp only
        rw [hrest, record_snd, stale_record p report outcome (c.raisedByPerform p.mutation),
          List.countP_cons]
        cases Applied.isStale ⟨p, outcome, c.raisedByPerform p.mutation⟩ with
        | false => simp
        | true =>
          simp only [Bool.toNat_true, ↓reduceIte]
          omega

/-- A flush counts the mutations that came too late. -/
theorem stale_flush {c : Coordinator ο σ} {report : FlushReport}
    (h : c.flush.1 = .ok (.ok report)) : report.stale = c.flushed.countP Applied.isStale := by
  cases hf : c.frame.flushed with
  | true =>
    simp only [flush, hf, ↓reduceIte] at h
    cases h
  | false =>
    simp only [flushed, hf, Bool.false_eq_true, ↓reduceIte]
    rw [flush_eq hf] at h
    cases happly : applyAll c.due { reaped := c.flushing.reap.1 } c.drained with
    | mk result d =>
      rw [happly] at h
      cases result with
      | error overflow => cases h
      | ok report' =>
        cases h
        simpa using stale_applyAll c.due { reaped := c.flushing.reap.1 } c.drained
          (congrArg Prod.fst happly)

/-- The state in which a mutation is applied, and what was raised on the way there. -/
theorem applications_split {ps : List Pending} {c : Coordinator ο σ} {l₁ l₂ : List Applied}
    {a : Applied} (h : applications ps c = l₁ ++ a :: l₂) :
    ∃ d, c.Moves (l₁.flatMap Applied.raised) d ∧
      (d.perform a.pending.mutation).1 = .ok a.outcome ∧
      ∀ report, d.population.capacity ≤ (applyAll ps report c).2.population.capacity := by
  induction ps generalizing c l₁ with
  | nil => simp [applications] at h
  | cons p ps ih =>
    unfold applications at h
    have hm := c.moves_perform p.mutation
    unfold applyAll
    cases hperform : c.perform p.mutation with
    | mk result d =>
      rw [hperform] at h hm
      cases result with
      | error overflow => simp at h
      | ok outcome =>
        dsimp only at h ⊢
        cases l₁ with
        | nil =>
          obtain ⟨rfl, -⟩ := List.cons.inj h
          refine ⟨c, .refl c, by rw [hperform], fun report => ?_⟩
          have hrec := calm_record p report outcome d
          have hrest := moves_applyAll ps (record p report outcome d).1
            (record p report outcome d).2
          exact Nat.le_trans (hm.append hrec.moves).evolves.capacity_le
            hrest.evolves.capacity_le
        | cons x l₁ =>
          obtain ⟨rfl, hrest⟩ := List.cons.inj h
          obtain ⟨e, hmoves, hout, hle⟩ := ih hrest
          refine ⟨e, ?_, hout, fun report => ?_⟩
          · rw [List.flatMap_cons]
            simpa using hm.append ((calm_record p {} outcome d).moves.append hmoves)
          · rw [← record_snd p report] at hle
            exact hle _

/-- Where the handle of an entity is behind after what was raised so far. -/
theorem inert_of_evolves {c : Coordinator ο σ} {es : List Raised}
    (he : Population.Evolves ⟨{}, {}⟩ es c.population) (hcap : c.population.capacity ≤ 2 ^ 32)
    (hcount : teardowns (es.map Raised.signal) < 2 ^ 32) {before after : List Signal}
    {h : Handle} {id : HostId} {components : List (ComponentId × Value)}
    (hes : es.map Raised.signal = before ++ .entityDestroying h id components :: after) :
    (∀ id', Signal.entityCreated h id' ∉ after) ∧
      ∀ d : Coordinator ο σ, c.population.Alike d.population → d.Inert h := by
  have ht := he.trace hcap Population.consistent_empty
  have hp := ht.consistent hcap Population.consistent_empty
  obtain ⟨hr, hafter⟩ := ht.retires hcap Population.consistent_empty Population.bounded_empty
    (by omega) hes
  exact ⟨hafter, fun d ha =>
    inert_of_retired (ha.consistent hp) (hr.of_allocator ha.allocator)⟩

/-- What is asked in the queue for a handle whose entity is gone by then is refused as stale. -/
theorem outcome_of_flushed {c : Coordinator ο σ} {es : List Raised}
    (he : Population.Evolves ⟨{}, {}⟩ es c.population)
    (hcap : c.flush.2.population.capacity ≤ 2 ^ 32)
    (hcount : teardowns ((es ++ c.raisedByFlush).map Raised.signal) < 2 ^ 32)
    {l₁ l₂ : List Applied} {a : Applied} (hsplit : c.flushed = l₁ ++ a :: l₂)
    {h : Handle} {id : HostId} {components : List (ComponentId × Value)}
    (hgone : Signal.entityDestroying h id components ∈
      (es ++ (c.flushing.raisedByReap ++ l₁.flatMap Applied.raised)).map Raised.signal)
    (hm : a.pending.mutation.handle? = some h) : a.outcome = .error (.staleHandle h) := by
  cases hf : c.frame.flushed with
  | true => simp [flushed, hf] at hsplit
  | false =>
    have hflushed : c.raisedByFlush =
        c.flushing.raisedByReap ++ (l₁ ++ a :: l₂).flatMap Applied.raised := by
      rw [← hsplit]
      simp [raisedByFlush, hf]
    simp only [flushed, hf, Bool.false_eq_true, ↓reduceIte] at hsplit
    obtain ⟨d, hmoves, hout, hle⟩ := applications_split hsplit
    have hreap := c.flushing.moves_reap
    have hdrain : c.flushing.reap.2.Calm c.drained := by
      unfold drained
      exact .of_eq rfl rfl rfl
    have hall := he.append ((hreap.append hdrain.moves).append hmoves).evolves
    rw [List.append_nil] at hall
    have hcap' : d.population.capacity ≤ 2 ^ 32 := by
      refine Nat.le_trans (hle { reaped := c.flushing.reap.1 }) ?_
      rw [flush_eq hf] at hcap
      generalize applyAll c.due { reaped := c.flushing.reap.1 } c.drained = r at hcap ⊢
      obtain ⟨result, e⟩ := r
      cases result <;> exact hcap
    have hcount' : teardowns ((es ++ (c.flushing.raisedByReap ++
        l₁.flatMap Applied.raised)).map Raised.signal) < 2 ^ 32 := by
      refine Nat.lt_of_le_of_lt ?_ hcount
      rw [hflushed]
      simp only [List.map_append, List.flatMap_append, teardowns_append]
      omega
    obtain ⟨before, after, hes⟩ := List.append_of_mem hgone
    obtain ⟨-, hinert⟩ := inert_of_evolves hall hcap' hcount' hes
    have hstale := (hinert d (.refl _)).perform _ hm
    rw [hstale] at hout
    exact (Except.ok.inj hout).symm

/-! ## Runs -/

/-- Once an entity was torn down, in whatever way, its handle is never issued again and is inert
from then on : between operations, and while a pass over entities or a dispatch is under way,
which leaves the population alike. In the queue it is inert as soon as the entity is gone, be it
by the very flush that applies the queue.

As in `sound_run` slot numbers have to last, and generations as well : fewer than `2 ^ 32`
entities were torn down. -/
theorem inert_run (table : Table) (settings : Settings) (surroundings : Surroundings ο σ)
    (journal : Journal) (as : List (Action ο σ))
    (hcap : ((withTable table settings surroundings journal).run
      as).registry.allocator.capacity ≤ 2 ^ 32)
    (hcount : teardowns (((withTable table settings surroundings journal).history as).map
      Raised.signal) < 2 ^ 32) :
    let start := withTable table settings surroundings journal
    (∀ {before after h id components},
      (start.history as).map Raised.signal =
        before ++ .entityDestroying h id components :: after →
      (∀ id', .entityCreated h id' ∉ after) ∧
        ∀ d : Coordinator ο σ, (start.run as).population.Alike d.population → d.Inert h) ∧
    ∀ bs cs, as = bs ++ .flush :: cs →
      ∀ {l₁ a l₂ h id components}, (start.run bs).flushed = l₁ ++ a :: l₂ →
        .entityDestroying h id components ∈
          (start.history bs ++ ((start.run bs).flushing.raisedByReap ++
            l₁.flatMap Applied.raised)).map Raised.signal →
        a.pending.mutation.handle? = some h →
        a.outcome = .error (.staleHandle h) ∧
          ∀ report, (start.run bs).flush.1 = .ok (.ok report) →
            report.stale = (start.run bs).flushed.countP Applied.isStale := by
  intro start
  refine ⟨fun hes => ?_, ?_⟩
  · exact inert_of_evolves (evolves_run start as) hcap hcount hes
  · rintro bs cs rfl l₁ a l₂ h id components hsplit hgone hm
    refine ⟨?_, fun report hreport => stale_flush hreport⟩
    have hflush : (start.run bs).flush.2.population.capacity ≤ 2 ^ 32 := by
      rw [run_append] at hcap
      exact Nat.le_trans (evolves_run (start.run bs).flush.2 cs).capacity_le hcap
    have hteardowns : teardowns ((start.history bs ++ (start.run bs).raisedByFlush).map
        Raised.signal) < 2 ^ 32 := by
      refine Nat.lt_of_le_of_lt ?_ hcount
      rw [history_append]
      simp only [history, List.map_append, teardowns_append]
      exact Nat.add_le_add_left (Nat.le_add_right _ _) _
    exact outcome_of_flushed (evolves_run start bs) hflush hteardowns hsplit hgone hm

/-- The entity of a host object is torn down, its slot is used again, and its handle is asked
for once more in the queue. -/
theorem inert_run_rebinding :
    let as : List (Action PropertyBag Unit) := [.bind ⟨⟨7⟩, 0⟩, .unbind ⟨0, 0⟩, .bind ⟨⟨7⟩, 0⟩,
      .enqueue (.destroy (.handle ⟨0, 0⟩)), .flush]
    (sample.run as).registry.allocator.capacity ≤ 2 ^ 32 ∧
      teardowns ((sample.history as).map Raised.signal) < 2 ^ 32 ∧
      (sample.run as).registry.lookup? ⟨7⟩ = some ⟨0, 1⟩ ∧ (sample.run as).Inert ⟨0, 0⟩ := by
  refine ⟨by decide +kernel, by decide +kernel, by decide +kernel, ?_⟩
  have hall := inert_run sample.table sample.settings sample.surroundings sample.journal
    [.bind ⟨⟨7⟩, 0⟩, .unbind ⟨0, 0⟩, .bind ⟨⟨7⟩, 0⟩, .enqueue (.destroy (.handle ⟨0, 0⟩)), .flush]
    (by decide +kernel) (by decide +kernel)
  have hraised : (sample.history [.bind ⟨⟨7⟩, 0⟩, .unbind ⟨0, 0⟩, .bind ⟨⟨7⟩, 0⟩,
      .enqueue (.destroy (.handle ⟨0, 0⟩)), .flush]).map Raised.signal =
      [.entityCreated ⟨0, 0⟩ ⟨7⟩, .componentAdded ⟨0, 0⟩ ⟨0⟩ (.int 3)] ++
        .entityDestroying ⟨0, 0⟩ ⟨7⟩ [(⟨0⟩, .int 3)] ::
          [.entityCreated ⟨0, 1⟩ ⟨7⟩, .componentAdded ⟨0, 1⟩ ⟨0⟩ (.int 3)] := by decide +kernel
  exact (hall.1 hraised).2 _ (.refl _)

end Coordinator

end Tether
