import Tether.Proofs.Exchanges
import Tether.Proofs.Gathering

/-!
# Concord

Where the two sides of a binding agree, a pass has nothing to settle : it reads, notes the host's
value as the new base, and neither writes nor reports (`Pass.noted_visit`). A pass over bindings
that are all in concord, or idle, moves nothing (`Pass.unmoved_foldl`). Conversely every
disagreement that a pass meets shows in its report, as a conflict, a written value or a failure,
so a pass with nothing to report has met none (`Pass.agrees_of_silent`).

Where a component holds the very value that the host object gives, the two sides agree, unless the
value holds something that is not a number. `Table.identical_synchronize` says of each such
binding that it is only noted, whatever the host object answers to the others. A binding against
the direction of the pass is not visited at all, and keeps its base.
-/

namespace Tether

variable {ο : Type} [HostObject ο]

/-- The two sides of a binding agree. -/
structure Binding.Concords (s : Readings ο) (b : Binding) (x : Value) (cell : Cell) (object : ο)
    (row : Row) : Prop where
  property : s.get? object b.capability = some x
  agrees : x.agrees cell.value = true
  cell : row.cell? b.component = some cell

namespace Pass

/-- What a visit does that finds nothing to settle : the capability is read if the binding and the
pass flow the same way, and its value is noted as the base. -/
structure Noted (direction : Direction) (b : Binding) (x : Value) (cell : Cell)
    (p q : Pass (Watched ο)) : Prop where
  object : q.object =
    p.object.after (if b.direction.restrict direction = none then [] else [.read b.capability])
  cell : ∀ j, q.row.cell? j =
    if j = b.component then
      some { cell with synced := if b.direction.restrict direction = none then cell.synced else x }
    else p.row.cell? j
  report : q.report = p.report

theorem noted_visit {s : Readings ο} {b : Binding} {x : Value} {cell : Cell} {p : Pass (Watched ο)}
    (ho : s.holds p.object.object) (h : b.Concords s x cell p.object.object p.row)
    (direction : Direction) (handle : Handle) :
    Noted direction b x cell p (visit direction handle p b) := by
  by_cases hopposes : b.direction.restrict direction = none
  · rw [visit_of_idle (.inl (Binding.opposes_iff.mpr hopposes))]
    refine ⟨by rw [if_pos hopposes, p.object.after_nil], fun j => ?_, rfl⟩
    rw [if_pos hopposes]
    exact Row.cell?_eq_ite h.cell j
  · have hidle : ¬b.Idle direction p := by
      rw [Binding.Idle, Binding.opposes_iff]
      have hexposes : HostObject.exposes p.object b.capability = true :=
        s.exposes ho h.property
      simp [hopposes, hexposes, Row.contains, h.cell]
    obtain ⟨flow, cell', -, hcell, hvisit⟩ := exchanges_visit hidle handle
    obtain rfl : cell = cell' := Option.some.inj (h.cell.symm.trans hcell)
    have hanswer : p.object.answer b = .ok x := s.answer ho h.property
    rw [hanswer, Binding.exchange] at hvisit
    simp only [h.agrees, ↓reduceIte] at hvisit
    refine ⟨by rw [if_neg hopposes]; exact hvisit.object, fun j => ?_, ?_⟩
    · rw [if_neg hopposes]
      exact hvisit.cell j
    · exact hvisit.report.trans p.report.merge_empty

/-! ## Nothing moves -/

/-- A base that is as before, or that agrees with the value. -/
def Rebased (c d : Cell) : Prop :=
  d.value = c.value ∧ (d.synced = c.synced ∨ d.synced.agrees c.value = true)

/-- Nothing was written, and no value has changed. -/
structure Unmoved (p q : Pass (Watched ο)) : Prop where
  object : ∃ as, q.object = p.object.after as ∧ ∀ a ∈ as, a.isWrite = false
  cell : ∀ id, Option.Rel Rebased (p.row.cell? id) (q.row.cell? id)
  report : q.report = p.report

section Unmoved

variable {direction : Direction} {s : Readings ο} {b : Binding} {x : Value} {cell : Cell}
  {p q r : Pass (Watched ο)}

theorem rel_rebased_refl (o : Option Cell) : Option.Rel Rebased o o := by
  cases o with
  | none => exact .none
  | some cell => exact .some ⟨rfl, .inl rfl⟩

theorem Unmoved.refl (p : Pass (Watched ο)) : Unmoved p p :=
  ⟨⟨[], p.object.after_nil.symm, by simp⟩, fun _ => rel_rebased_refl _, rfl⟩

theorem Unmoved.trans (h : Unmoved p q) (h' : Unmoved q r) : Unmoved p r := by
  obtain ⟨as, has, hreads⟩ := h.object
  obtain ⟨as', has', hreads'⟩ := h'.object
  refine ⟨⟨as ++ as', by rw [has', has, Watched.after_append], fun a ha => ?_⟩, fun id => ?_,
    h'.report.trans h.report⟩
  · exact (List.mem_append.mp ha).elim (hreads a) (hreads' a)
  · have hpq := h.cell id
    have hqr := h'.cell id
    generalize p.row.cell? id = c at hpq ⊢
    generalize q.row.cell? id = d at hpq hqr
    generalize r.row.cell? id = e at hqr ⊢
    cases hpq with
    | none => exact hqr
    | some hcd =>
      cases hqr with
      | some hde =>
        refine .some ⟨hde.1.trans hcd.1, ?_⟩
        rcases hde.2 with heq | hagrees
        · rw [heq]
          exact hcd.2
        · exact .inr (hcd.1 ▸ hagrees)

theorem Unmoved.value? (h : Unmoved p q) (id : ComponentId) :
    q.row.value? id = p.row.value? id := by
  have hcell := h.cell id
  unfold Row.value?
  generalize p.row.cell? id = c at hcell ⊢
  generalize q.row.cell? id = d at hcell ⊢
  cases hcell with
  | none => rfl
  | some hcd => exact congrArg some hcd.1

/-- Where nothing was written, the host object says what it said. -/
theorem Unmoved.kept (h : Unmoved p q) (ho : s.holds p.object.object) :
    s.holds q.object.object ∧ ∀ c, Readings.Kept s.get? c p.object.object q.object.object := by
  obtain ⟨as, has, hreads⟩ := h.object
  obtain ⟨hholds, hkept⟩ := s.after ho
  rw [has]
  exact ⟨hholds, fun c => hkept c fun v hv => by cases hreads _ hv⟩

theorem Noted.unmoved (h : Noted direction b x cell p q)
    (hc : b.Concords s x cell p.object.object p.row) : Unmoved p q := by
  refine ⟨⟨_, h.object, fun a ha => ?_⟩, fun id => ?_, h.report⟩
  · split at ha
    · cases ha
    · rw [List.mem_singleton.mp ha]
      rfl
  · rw [h.cell]
    split
    · rename_i hid
      rw [hid, hc.cell]
      refine .some ⟨rfl, ?_⟩
      split
      · exact .inl rfl
      · exact .inr hc.agrees
    · exact rel_rebased_refl _

/-- Two sides that agree still do where nothing moves. -/
theorem Unmoved.concords (h : Unmoved p q) (ho : s.holds p.object.object)
    (hc : b.Concords s x cell p.object.object p.row) :
    ∃ cell', b.Concords s x cell' q.object.object q.row := by
  have hvalue := h.value? b.component
  rw [Row.value?, Row.value?, hc.cell] at hvalue
  obtain ⟨cell', hcell, heq⟩ := Option.map_eq_some_iff.mp hvalue
  exact ⟨cell', ((h.kept ho).2 _).property.trans hc.property, heq ▸ hc.agrees, hcell⟩

/-- A binding that is idle still is where nothing moves. -/
theorem Unmoved.idle (h : Unmoved p q) (ho : s.holds p.object.object) :
    b.Idle direction q ↔ b.Idle direction p := by
  have hvalue := congrArg Option.isSome (h.value? b.component)
  simp only [Row.value?, Option.isSome_map] at hvalue
  have hexposes : HostObject.exposes q.object b.capability =
      HostObject.exposes p.object b.capability := ((h.kept ho).2 _).exposes
  unfold Binding.Idle
  rw [hexposes, Row.contains, Row.contains, hvalue]

end Unmoved

/-- A pass over bindings that are in concord or idle. -/
theorem unmoved_foldl {s : Readings ο} (direction : Direction) (handle : Handle)
    {bs : List Binding} {p : Pass (Watched ο)} (ho : s.holds p.object.object)
    (h : ∀ b ∈ bs, b.Idle direction p ∨ ∃ x cell, b.Concords s x cell p.object.object p.row) :
    Unmoved p (bs.foldl (visit direction handle) p) := by
  induction bs generalizing p with
  | nil => exact .refl p
  | cons b bs ih =>
    have hone : Unmoved p (visit direction handle p b) := by
      rcases h b List.mem_cons_self with hidle | ⟨x, cell, hb⟩
      · rw [visit_of_idle hidle]
        exact .refl p
      · exact (noted_visit ho hb direction handle).unmoved hb
    refine hone.trans (ih (hone.kept ho).1 fun c hc => ?_)
    rcases h c (List.mem_cons_of_mem _ hc) with hidle | ⟨x, cell, hc'⟩
    · exact .inl ((hone.idle ho).mpr hidle)
    · exact .inr ⟨x, hone.concords ho hc'⟩

end Pass

/-! ## Nothing to report -/

theorem SyncReport.merge_eq_self_iff {r s : SyncReport} : r.merge s = r ↔ s = {} := by
  obtain ⟨e, c, h, n, f⟩ := r
  obtain ⟨e', c', h', n', f'⟩ := s
  simp [merge]

theorem SyncReport.merge_eq_empty_iff {r s : SyncReport} : r.merge s = {} ↔ r = {} ∧ s = {} := by
  obtain ⟨e, c, h, n, f⟩ := r
  obtain ⟨e', c', h', n', f'⟩ := s
  simp only [merge, SyncReport.mk.injEq, Nat.add_eq_zero_iff, List.append_eq_nil_iff]
  tauto

/-- An exchange has something to report, unless the two sides agree. -/
theorem Binding.agrees_of_exchange {b : Binding} {handle : Handle} {direction flow : Direction}
    (hflow : b.direction.restrict direction = some flow) {cell : Cell}
    {answer : Except AccessError Value} {accept : Value → Except AccessError Unit}
    (h : (b.exchange handle flow cell answer accept).report = {}) :
    ∃ x, answer = .ok x ∧ x.agrees cell.value = true := by
  cases answer with
  | error source => simp [exchange] at h
  | ok x =>
    refine ⟨x, rfl, ?_⟩
    cases hdiffers : x.agrees cell.value with
    | true => rfl
    | false =>
      have hdiffers' : cell.value.agrees x = false := (Value.agrees_comm _ _).trans hdiffers
      simp only [exchange, hdiffers, Bool.false_eq_true, ↓reduceIte, SyncReport.mk.injEq] at h
      obtain ⟨-, htoEcs, htoHost, hconflicts, hfailures⟩ := h
      -- what a binding in one direction flows to is written, or the write is refused
      cases hd : b.direction with
      | bidirectional => simp [hd] at hconflicts
      | hostToEcs =>
        have hone : flow = .hostToEcs := by
          rw [hd] at hflow
          cases direction <;> simp_all [Direction.restrict]
        simp [Pass.target, hd, hone, hdiffers', Direction.readsHost] at htoEcs
      | ecsToHost =>
        have hone : flow = .ecsToHost := by
          rw [hd] at hflow
          cases direction <;> simp_all [Direction.restrict]
        cases hrefusal : AccessError.of? (accept cell.value) <;>
          simp [Pass.target, hd, hone, hdiffers, hrefusal, Direction.writesHost]
            at htoHost hfailures

namespace Pass

/-- A visit with nothing to report moves nothing. -/
theorem unmoved_of_silent {direction : Direction} {handle : Handle} {p : Pass (Watched ο)}
    {b : Binding} (h : (visit direction handle p b).report = p.report) :
    Unmoved p (visit direction handle p b) := by
  by_cases hidle : b.Idle direction p
  · rw [visit_of_idle hidle]
    exact .refl p
  · obtain ⟨flow, cell, hflow, hcell, hvisit⟩ := exchanges_visit hidle handle
    have hsilent := SyncReport.merge_eq_self_iff.mp (hvisit.report.symm.trans h)
    obtain ⟨x, hanswer, hagrees⟩ := Binding.agrees_of_exchange hflow hsilent
    have hexchange : b.exchange handle flow cell (p.object.answer b) (p.object.accept b) =
        { accesses := [.read b.capability], cell := { cell with synced := x } } := by
      rw [hanswer, Binding.exchange, if_pos hagrees]
    rw [hexchange] at hvisit
    refine ⟨⟨_, hvisit.object, by simp [Access.isWrite]⟩, fun id => ?_, h⟩
    rw [hvisit.cell]
    split
    · rename_i hid
      rw [hid, hcell]
      exact .some ⟨rfl, .inr hagrees⟩
    · exact rel_rebased_refl _

/-- A pass with nothing to report has found both sides of every binding that it visits in
agreement. -/
theorem agrees_of_silent (s : Readings ο) (direction : Direction) (handle : Handle)
    {bs : List Binding} {p : Pass (Watched ο)} (ho : s.holds p.object.object)
    (h : (bs.foldl (visit direction handle) p).report = p.report) :
    ∀ b ∈ bs, ∀ x cell, b.direction.restrict direction ≠ none →
      s.get? p.object.object b.capability = some x → p.row.cell? b.component = some cell →
        x.agrees cell.value = true := by
  induction bs generalizing p with
  | nil => simp
  | cons b bs ih =>
    obtain ⟨as, r, hone⟩ := adds_visit direction handle p b
    obtain ⟨as', r', hrest⟩ := adds_foldl direction handle bs (visit direction handle p b)
    rw [List.foldl_cons, hrest.report, hone.report, SyncReport.merge_assoc,
      SyncReport.merge_eq_self_iff, SyncReport.merge_eq_empty_iff] at h
    obtain ⟨rfl, rfl⟩ := h
    have hfirst : (visit direction handle p b).report = p.report :=
      hone.report.trans p.report.merge_empty
    have hlater := hrest.report.trans (SyncReport.merge_empty _)
    have hunmoved := unmoved_of_silent hfirst
    obtain ⟨hq, hkept⟩ := hunmoved.kept ho
    intro c hc x cell hdirection hx hcell
    rcases List.mem_cons.mp hc with rfl | hc
    · have hidle : ¬c.Idle direction p := by
        have hexposes : HostObject.exposes p.object c.capability = true := s.exposes ho hx
        rw [Binding.Idle, Binding.opposes_iff]
        simp [hdirection, hexposes, Row.contains, hcell]
      obtain ⟨flow, cell', hflow, hcell', hvisit⟩ := exchanges_visit hidle handle
      obtain rfl : cell = cell' := Option.some.inj (hcell.symm.trans hcell')
      have hsilent := SyncReport.merge_eq_self_iff.mp (hvisit.report.symm.trans hfirst)
      obtain ⟨y, hanswer, hagrees⟩ := Binding.agrees_of_exchange hflow hsilent
      have hy : p.object.answer c = .ok x := s.answer ho hx
      obtain rfl : x = y := by
        rw [hanswer] at hy
        exact (Except.ok.inj hy).symm
      exact hagrees
    · have hvalue := hunmoved.value? c.component
      rw [Row.value?, Row.value?, hcell] at hvalue
      obtain ⟨cell', hcell', heq⟩ := Option.map_eq_some_iff.mp hvalue
      rw [← heq]
      exact ih hq hlater c hc x cell' hdirection ((hkept _).property.trans hx) hcell'

end Pass

/-! ## Identical values -/

/-- Both sides of a binding hold one value, and it holds nothing that is not a number. -/
structure Binding.Identical (s : Readings ο) (b : Binding) (v base : Value) (object : ο)
    (row : Row) : Prop where
  property : s.get? object b.capability = some v
  cell : row.cell? b.component = some ⟨v, base⟩
  number : v.hasNaN = false

theorem Binding.Identical.concords {s : Readings ο} {b : Binding} {v base : Value} {object : ο}
    {row : Row} (h : b.Identical s v base object row) : b.Concords s v ⟨v, base⟩ object row :=
  ⟨h.property, v.agrees_self_iff.mpr h.number, h.cell⟩

/-- Visits to bindings that are separate from it leave an identical binding as it is. -/
theorem Pass.identical_foldl {s : Readings ο} (direction : Direction) (handle : Handle)
    {b : Binding} {v base : Value} {bs : List Binding} (hbs : ∀ a ∈ bs, a.Separate b)
    {p : Pass (Watched ο)}
    (ho : s.holds p.object.object) (h : b.Identical s v base p.object.object p.row) :
    let q := bs.foldl (visit direction handle) p
    s.holds q.object.object ∧ b.Identical s v base q.object.object q.row ∧
      ∃ as, q.object = p.object.after as ∧ ∀ w, Access.write b.capability w ∉ as := by
  intro q
  obtain ⟨as, has, hwritten⟩ := asks_foldl direction handle bs p
  have hnone (w : Value) : Access.write b.capability w ∉ as := by
    intro hw
    obtain ⟨-, a, ha, hc, -⟩ := hwritten _ w hw
    exact (hbs a ha).1 hc
  obtain ⟨hholds, hkept⟩ := s.after ho
  have hobject : q.object.object = as.foldl Access.after p.object.object :=
    congrArg Watched.object has
  have hcell := cell?_foldl direction handle (fun a ha => (hbs a ha).2) p
  refine ⟨hobject ▸ hholds, ⟨?_, hcell.trans h.cell, h.number⟩, as, has, hnone⟩
  rw [hobject, (hkept _ hnone).property, h.property]

/-! ## Tables -/

/-- A pass finds nothing to settle at a binding whose two sides hold one value. -/
structure Table.Notes (s : Readings ο) (t : Table) (direction : Direction) (handle : Handle)
    (object : ο) (row : Row) (journal : Journal) (b : Binding) (v base : Value) : Prop where
  /-- Neither side is written. -/
  unwritten : ∀ w,
    Access.write b.capability w ∉ (t.watch direction handle object row journal).object.accesses
  host : s.get? (t.synchronize direction handle object row journal).object b.capability = some v
  /-- The base is the value, unless the binding is against the direction of the pass. -/
  cell : (t.synchronize direction handle object row journal).row.cell? b.component =
    some ⟨v, if b.direction.restrict direction = none then base else v⟩
  /-- The visit adds nothing to the report. -/
  report : ∀ before after, t.bindings = before ++ b :: after →
    ((t.withBindings (before ++ [b])).synchronize direction handle object row journal).report =
      ((t.withBindings before).synchronize direction handle object row journal).report

section Identical

variable (s : Readings ο) (t : Table) (direction : Direction) (handle : Handle) {object : ο}
  (row : Row) (journal : Journal) (ho : s.holds object)
include ho

/-- The visit to an identical binding in its place, and what the rest of the pass leaves of it. -/
theorem Table.noted_of_split {before after : List Binding} {b : Binding} {v base : Value}
    (hs : (before ++ b :: after).Pairwise Binding.Separate)
    (hsplit : t.bindings = before ++ b :: after)
    (h : b.Identical s v base object row) :
    let z := t.watch direction handle object row journal
    Pass.Noted direction b v ⟨v, base⟩
        ((t.withBindings before).watch direction handle object row journal)
        ((t.withBindings (before ++ [b])).watch direction handle object row journal) ∧
      b.Identical s v (if b.direction.restrict direction = none then base else v)
        z.object.object z.row ∧
      ∀ w, Access.write b.capability w ∉ z.object.accesses := by
  intro z
  have hseparate := Binding.separate_of_split hs
  obtain ⟨hvisit, hrest⟩ := t.watch_of_split direction handle object row journal hsplit
  have hbefore := Pass.identical_foldl
    (p := (t.withBindings []).watch direction handle object row journal) direction handle
    (fun a ha => hseparate a (List.mem_append_left _ ha)) ho h
  simp only [← watch_append, List.nil_append] at hbefore
  obtain ⟨hp, hidentical, as, has, hnone⟩ := hbefore
  have hnoted := Pass.noted_visit hp hidentical.concords direction handle
  rw [← hvisit] at hnoted
  obtain ⟨hq, hkept⟩ := (hnoted.unmoved hidentical.concords).kept hp
  obtain ⟨-, hidentical', as', has', hnone'⟩ := Pass.identical_foldl direction handle
    (fun a ha => hseparate a (List.mem_append_right _ ha)) hq
    ⟨(hkept _).property.trans hidentical.property, (hnoted.cell _).trans (if_pos rfl), h.number⟩
  rw [← hrest] at hidentical' has'
  refine ⟨hnoted, hidentical', fun w hw => ?_⟩
  have hstart : ((t.withBindings []).watch direction handle object row journal).object =
      ⟨object, []⟩ := rfl
  rw [show z.object = _ from has', hnoted.object, has, hstart] at hw
  simp only [Watched.after, List.nil_append, List.mem_append] at hw
  rcases hw with (hw | hw) | hw
  · exact hnone w hw
  · split at hw
    · cases hw
    · cases List.mem_singleton.mp hw
  · exact hnone' w hw

theorem Table.notes_of_identical (hs : t.bindings.Pairwise Binding.Separate) {b : Binding}
    (hb : b ∈ t.bindings) {v base : Value} (h : b.Identical s v base object row) :
    t.Notes s direction handle object row journal b v base := by
  have hvisit {before after : List Binding} (hsplit : t.bindings = before ++ b :: after) :=
    noted_of_split s t direction handle row journal ho (hsplit ▸ hs) hsplit h
  obtain ⟨before, after, hsplit⟩ := List.append_of_mem hb
  obtain ⟨-, hidentical, hunwritten⟩ := hvisit hsplit
  have hwatched := t.unwatched_watch direction handle object row journal
  refine ⟨hunwritten, ?_, ?_, fun before after hsplit => ?_⟩
  · rw [← hwatched]
    exact hidentical.property
  · rw [← hwatched]
    exact hidentical.cell
  · rw [← unwatched_watch, ← unwatched_watch]
    exact (hvisit hsplit).1.report

/-- Identical values never conflict. In a table whose bindings share neither capabilities nor
components, a binding whose two sides hold one value is only noted, whatever happens to the others.
If every binding is of this kind, nothing is written, no value changes and nothing is reported. -/
theorem Table.identical_synchronize (hs : t.bindings.Pairwise Binding.Separate) :
    (∀ b ∈ t.bindings, ∀ v base, b.Identical s v base object row →
      t.Notes s direction handle object row journal b v base) ∧
    ((∀ b ∈ t.bindings, ∃ v base, b.Identical s v base object row) →
      let p := t.synchronize direction handle object row journal
      p.report = { entities := 1 } ∧
        (∀ a ∈ (t.watch direction handle object row journal).object.accesses,
          a.isWrite = false) ∧
        (∀ c, s.get? p.object c = s.get? object c) ∧
        ∀ id, p.row.value? id = row.value? id) := by
  refine ⟨fun b hb v base h => t.notes_of_identical s direction handle row journal ho hs hb h,
    fun h => ?_⟩
  have hall : Pass.Unmoved _ (t.watch direction handle object row journal) :=
    Pass.unmoved_foldl (p := { object := ⟨object, []⟩, row, report := { entities := 1 }, journal })
      direction handle ho fun b hb => by
        obtain ⟨v, base, hb'⟩ := h b hb
        exact .inr ⟨v, _, hb'.concords⟩
  have hwatched := t.unwatched_watch direction handle object row journal
  obtain ⟨as, has, hreads⟩ := hall.object
  refine ⟨?_, fun a ha => ?_, fun c => ?_, fun id => ?_⟩
  · rw [← hwatched]
    exact hall.report
  · rw [has] at ha
    simp only [Watched.after, List.nil_append] at ha
    exact hreads a ha
  · rw [← hwatched]
    exact ((hall.kept (s := s) ho).2 c).property
  · rw [← hwatched]
    exact hall.value? id

end Identical

/-- A health that both sides agree on is noted, though the same object refuses a new title. -/
theorem Table.identical_synchronize_refused :
    let t : Table := { bindings := [
      ⟨"title", ⟨1⟩, "Title", .bidirectional, .ecsWins⟩,
      ⟨"health", ⟨0⟩, "Health", .bidirectional, .ecsWins⟩] }
    let object : ScriptedObject := { scripts := [
      ("title", { value := .text "old", write := .refuse (.rejected "frozen") }),
      ("health", { value := .float Binary64.zero })] }
    let row : Row := ⟨⟨0, 0⟩, [(⟨0⟩, ⟨.float Binary64.zero, .int 3⟩),
      (⟨1⟩, ⟨.text "new", .text "old"⟩)]⟩
    let p := t.synchronize .bidirectional row.handle object row {}
    t.bindings.Pairwise Binding.Separate ∧
      t.Notes ScriptedObject.readings .bidirectional row.handle object row {}
        ⟨"health", ⟨0⟩, "Health", .bidirectional, .ecsWins⟩ (.float Binary64.zero) (.int 3) ∧
      p.row.cell? ⟨0⟩ = some (Cell.agreed (.float Binary64.zero)) ∧
      p.report.failures =
        [.synchronization ⟨0, 0⟩ "title" (.rejected "title" "frozen")] := by
  intro t object row p
  have hs : t.bindings.Pairwise Binding.Separate := by simp [t, Binding.Separate]
  have hholds : ScriptedObject.readings.holds object := trivial
  have hboth :=
    identical_synchronize ScriptedObject.readings t .bidirectional row.handle row {} hholds hs
  exact ⟨hs, hboth.1 _ (by simp [t]) _ _ ⟨by decide, by decide, by decide⟩, by decide, by decide⟩

/-- Two ways in which identical values are not noted : a binding against the direction of the pass
keeps the base that it had, and something that is not a number is in conflict with itself. -/
theorem Table.identical_not_noted :
    let score : Binding := ⟨"score", ⟨0⟩, "Score", .ecsToHost, .hostWins⟩
    let health : Binding := ⟨"health", ⟨0⟩, "Health", .bidirectional, .hostWins⟩
    let object : PropertyBag := ⟨[("score", .int 5), ("health", .float Binary64.nan)]⟩
    let opposed : Row := ⟨⟨0, 0⟩, [(⟨0⟩, ⟨.int 5, .int 3⟩)]⟩
    let undefined : Row := ⟨⟨0, 0⟩, [(⟨0⟩, Cell.agreed (.float Binary64.nan))]⟩
    let p := ({ bindings := [score] } : Table).synchronize .hostToEcs ⟨0, 0⟩ object opposed {}
    let q :=
      ({ bindings := [health] } : Table).synchronize .bidirectional ⟨0, 0⟩ object undefined {}
    (object.get? score.capability = opposed.value? score.component ∧
        p.row.cell? score.component = some ⟨.int 5, .int 3⟩) ∧
      (object.get? health.capability = undefined.value? health.component ∧
        q.report = { entities := 1, toEcs := 1, toHost := 1, conflicts := 1 }) := by
  decide

end Tether
