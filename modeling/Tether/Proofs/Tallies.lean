import Tether.Proofs.Isolation

/-!
# What a report counts

A pass is one `Visit` after another, each to a binding and from the pass as it comes to it. A visit
adds to the report what it does (`Visit.report_after`) : the accesses that the host object refuses,
the writes that it accepts, and the value that is assigned to the component, if there is one. So the
report of a whole pass counts these (`Table.tallies_synchronize`).

The conflicts are counted otherwise. Each divergence of a binding that flows both ways counts when
it is found, whether or not the pass may do what the policy says and the host object accepts it. On
a host object that keeps what it accepts (`Faithful`), a counted divergence is settled exactly if
each side that has to move may be written and is (`Visit.settles_iff`); all of them are in a pass in
both directions in which nothing fails.
-/

set_option linter.unusedSectionVars false

namespace Tether

variable {ο : Type} [HostObject ο]

instance (v w : Value) : Decidable (v.Matches w) :=
  inferInstanceAs (Decidable (v.agrees w = true ∨ v = w))

instance (b : Binding) (direction : Direction) : Decidable (b.Opposes direction) :=
  decidable_of_iff _ Binding.opposes_iff.symm

instance (b : Binding) (direction : Direction) (p : Pass ο) : Decidable (b.Idle direction p) :=
  inferInstanceAs (Decidable (_ ∨ _ ∨ _))

/-- How many of accesses that are made one after another are writes that are accepted. -/
def Access.accepted : ο → List Access → Nat
  | _, [] => 0
  | object, a :: as =>
    (a.isWrite && (a.refusal? object).isNone).toNat + accepted (a.after object) as

/-- The error of an answer, if it is one, is missing where something was accepted. -/
theorem AccessError.of?_eq_none_iff {e : Except AccessError Unit} : of? e = none ↔ e = .ok () := by
  cases e <;> simp [of?]

/-- A value that is brought to a target matches it if it may be or did so before. -/
theorem Value.matches_brought_iff {may : Bool} {v target : Value} :
    (v.brought may target).Matches target ↔ may = true ∨ v.Matches target := by
  unfold brought
  split
  · exact iff_of_true (.inl ‹_›) (.inr (.inl ‹_›))
  · split
    · exact iff_of_true (.inr rfl) (.inl ‹_›)
    · simp [*]

/-- Host objects that say the same when a capability is read again, that have a value which they
accepted, and that keep the one they had when they refuse another. -/
structure Faithful (holds : ο → Prop) : Prop where
  reading : ∀ {o}, holds o → ∀ c, holds (HostObject.read o c).2 ∧
    (HostObject.read (HostObject.read o c).2 c).1 = (HostObject.read o c).1
  writing : ∀ {o}, holds o → ∀ c v, holds (HostObject.write o c v).2 ∧
    ∀ x, (HostObject.read o c).1 = .ok x →
      (HostObject.read (HostObject.write o c v).2 c).1 =
        .ok (if (HostObject.write o c v).1 = .ok () then v else x)

theorem Faithful.after {holds : ο → Prop} (hf : Faithful holds) (as : List Access) {o : ο}
    (ho : holds o) : holds (as.foldl Access.after o) := by
  induction as generalizing o with
  | nil => exact ho
  | cons a as ih =>
    cases a with
    | read c => exact ih (hf.reading ho c).1
    | write c v => exact ih (hf.writing ho c v).1

/-- A bag of properties keeps what is written. -/
theorem PropertyBag.faithful : Faithful fun _ : PropertyBag => True where
  reading {o} _ c := by
    cases hget : o.get? c <;> simp [HostObject.read, hget]
  writing {o} _ c v := by
    refine ⟨trivial, fun x hx => ?_⟩
    cases hget : o.get? c with
    | none => simp [HostObject.read, hget] at hx
    | some y => simp [HostObject.write, HostObject.read, hget, PropertyBag.get?_set]

/-- So does an object whose scripts accept or refuse what is written. -/
theorem ScriptedObject.faithful : Faithful fun o : ScriptedObject =>
    ∀ c script, o.script? c = some script →
      script.write = .accept ∨ ∃ refusal, script.write = .refuse refusal where
  reading {o} ho c :=
    ⟨fun d script hd => ho d script ((o.script?_read c d).symm.trans hd),
      show ((o.read c).2.read c).1 = (o.read c).1 by rw [fst_read, fst_read, script?_read]⟩
  writing {o} ho c v := by
    show (∀ d script, (o.write c v).2.script? d = some script → _) ∧
      ∀ x, (o.read c).1 = .ok x →
        ((o.write c v).2.read c).1 = .ok (if (o.write c v).1 = .ok () then v else x)
    cases hscript : o.script? c with
    | none =>
      have hwrite : o.write c v = (.error (.unsupported c), o) := by simp [write, hscript]
      rw [hwrite]
      exact ⟨ho, fun x hx => by simpa using hx⟩
    | some script =>
      rcases ho c script hscript with haccept | ⟨refusal, hrefuse⟩
      · have hwrite : o.write c v = (.ok (), o.setScript c { script with value := v }) := by
          simp [write, hscript, haccept]
        rw [hwrite]
        refine ⟨fun d other hd => ?_, fun x hx => ?_⟩
        · rw [script?_setScript] at hd
          split at hd
          · cases hd
            exact .inl haccept
          · exact ho d other hd
        · rw [fst_read, hscript] at hx
          rw [fst_read, script?_setScript, if_pos rfl]
          cases hread : script.read with
          | none => rfl
          | some refusal => simp [hread] at hx
      · have hwrite : o.write c v = (.error (refusal.toError c), o) := by
          simp [write, hscript, hrefuse]
        rw [hwrite]
        exact ⟨ho, fun x hx => by simpa using hx⟩

/-! ## Visits -/

/-- The visit to a binding from a pass. -/
structure Visit (ο : Type) where
  direction : Direction
  handle : Handle
  binding : Binding
  /-- The pass as it comes to the binding. -/
  before : Pass (Watched ο)

namespace Visit

variable (v : Visit ο)

/-- The pass as it goes on. -/
def after : Pass (Watched ο) := Pass.visit v.direction v.handle v.before v.binding

/-- What is asked of the host object. -/
def accesses : List Access := v.after.object.accesses.drop v.before.object.accesses.length

/-- The value of the host object and the cell of the component, if they are compared and differ. -/
def divergence? : Option (Value × Cell) :=
  if v.binding.Idle v.direction v.before then none
  else
    match v.before.object.answer v.binding, v.before.row.cell? v.binding.component with
    | .ok x, some cell => if x.agrees cell.value then none else some (x, cell)
    | _, _ => none

/-- The value that both sides should then hold. -/
def target? : Option Value := v.divergence?.map fun d => Pass.target v.binding d.1 d.2

/-- The value that the component is given : the target, if the component does not agree with it and
both directions let values flow from the host. -/
def assigned? : Option Value :=
  v.divergence?.bind fun d =>
    let target := Pass.target v.binding d.1 d.2
    if !d.2.value.agrees target && (v.binding.direction.readsHost && v.direction.readsHost) then
      some target
    else none

/-- Whether the two sides of a binding that flows both ways differ. -/
def isConflict : Bool := v.binding.direction = .bidirectional && v.divergence?.isSome

/-- Whether both sides hold the target when the pass goes on. -/
def settles : Bool :=
  match v.target?, v.after.row.value? v.binding.component, v.after.object.answer v.binding with
  | some target, some y, .ok x => y.Matches target && x.Matches target
  | _, _, _ => false

/-- What a visit adds to the report. -/
def report : SyncReport where
  toEcs := v.assigned?.isSome.toNat
  toHost := Access.accepted v.before.object.object v.accesses
  conflicts := v.isConflict.toNat
  failures := Access.failures v.handle v.before.object.object v.accesses

/-! ## One visit -/

theorem accesses_of_after {as : List Access} (h : v.after.object = v.before.object.after as) :
    v.accesses = as := by
  rw [accesses, h, Watched.after, List.drop_left]

variable {v}

theorem divergence?_of_idle (h : v.binding.Idle v.direction v.before) : v.divergence? = none :=
  if_pos h

theorem divergence?_of_not_idle (h : ¬v.binding.Idle v.direction v.before) {cell : Cell}
    (hcell : v.before.row.cell? v.binding.component = some cell) :
    v.divergence? = match v.before.object.answer v.binding with
      | .ok x => if x.agrees cell.value then none else some (x, cell)
      | .error _ => none := by
  rw [divergence?, if_neg h, hcell]
  cases v.before.object.answer v.binding <;> rfl

/-- The exchange that a visit comes to if it is not idle. -/
def exchange (v : Visit ο) (flow : Direction) (cell : Cell) : Binding.Exchange :=
  v.binding.exchange v.handle flow cell (v.before.object.answer v.binding)
    (v.before.object.accept v.binding)

theorem toHost_exchange (flow : Direction) (cell : Cell) :
    (v.exchange flow cell).report.toHost =
      Access.accepted v.before.object.object (v.exchange flow cell).accesses := by
  have hwrite (w : Value) : (Access.write v.binding.capability w).refusal?
      ((Access.read v.binding.capability).after v.before.object.object) =
        AccessError.of? (v.before.object.accept v.binding w) := rfl
  unfold exchange Binding.exchange
  cases v.before.object.answer v.binding with
  | error source => rfl
  | ok x =>
    dsimp only
    split
    · rfl
    · split <;> simp [Access.accepted, Access.isWrite, *]

section Exchange

variable {flow : Direction} {cell : Cell} (h : ¬v.binding.Idle v.direction v.before)
  (hflow : v.binding.direction.restrict v.direction = some flow)
  (hcell : v.before.row.cell? v.binding.component = some cell)

include h hflow hcell

theorem toEcs_exchange : (v.exchange flow cell).report.toEcs = v.assigned?.isSome.toNat := by
  obtain ⟨hreads, -, -⟩ := Direction.restrict_eq_some_iff.mp hflow
  unfold exchange Binding.exchange assigned?
  rw [divergence?_of_not_idle h hcell]
  cases v.before.object.answer v.binding with
  | error source => rfl
  | ok x =>
    dsimp only
    split
    · rfl
    · simp only [hreads, Option.bind_some]
      split <;> simp [*]

theorem conflicts_exchange : (v.exchange flow cell).report.conflicts = v.isConflict.toNat := by
  unfold exchange Binding.exchange isConflict
  rw [divergence?_of_not_idle h hcell]
  cases v.before.object.answer v.binding with
  | error source => simp
  | ok x =>
    dsimp only
    split
    · simp
    · by_cases hboth : v.binding.direction = .bidirectional <;> simp [hboth]

/-- What an exchange reports is what its visit adds to the report. -/
theorem report_exchange (haccesses : v.accesses = (v.exchange flow cell).accesses) :
    (v.exchange flow cell).report = v.report := by
  have hentities : (v.exchange flow cell).report.entities = 0 := by
    unfold exchange Binding.exchange
    cases v.before.object.answer v.binding with
    | error source => rfl
    | ok x =>
      dsimp only
      split <;> rfl
  have hfailures : (v.exchange flow cell).report.failures = v.report.failures :=
    (v.binding.failures_exchange v.handle flow cell v.before.object).trans
      (congrArg (Access.failures _ _) haccesses.symm)
  have htoHost : (v.exchange flow cell).report.toHost = v.report.toHost :=
    (toHost_exchange flow cell).trans (congrArg (Access.accepted _) haccesses.symm)
  have htoEcs : (v.exchange flow cell).report.toEcs = v.report.toEcs :=
    toEcs_exchange h hflow hcell
  have hconflicts : (v.exchange flow cell).report.conflicts = v.report.conflicts :=
    conflicts_exchange h hflow hcell
  cases hr : (v.exchange flow cell).report
  rw [hr] at hentities hfailures htoHost htoEcs hconflicts
  simp only at hentities hfailures htoHost htoEcs hconflicts
  subst hentities hfailures htoHost htoEcs hconflicts
  rfl

end Exchange

/-- A visit asks what it is said to ask, and adds to the report what it is said to add. -/
theorem report_after (v : Visit ο) :
    v.after.object = v.before.object.after v.accesses ∧
      v.after.report = v.before.report.merge v.report := by
  by_cases hidle : v.binding.Idle v.direction v.before
  · have hafter : v.after = v.before := Pass.visit_of_idle hidle v.handle
    have haccesses : v.accesses = [] :=
      v.accesses_of_after (hafter ▸ v.before.object.after_nil.symm)
    have hreport : v.report = {} := by
      simp only [report, haccesses, assigned?, isConflict, divergence?_of_idle hidle]
      simp [Access.accepted, Access.failures]
    rw [haccesses, hreport, hafter, Watched.after_nil, SyncReport.merge_empty]
    exact ⟨rfl, rfl⟩
  · obtain ⟨flow, cell, hflow, hcell, hvisit⟩ := Pass.exchanges_visit hidle v.handle
    have haccesses : v.accesses = (v.exchange flow cell).accesses :=
      v.accesses_of_after hvisit.object
    rw [haccesses, ← report_exchange hidle hflow hcell haccesses]
    exact ⟨hvisit.object, hvisit.report⟩

/-- A visit gives the component the value that is assigned, if there is one, and no other component
a value. -/
theorem value?_after (v : Visit ο) (j : ComponentId) :
    v.after.row.value? j =
      if j = v.binding.component then v.assigned?.or (v.before.row.value? j)
      else v.before.row.value? j := by
  by_cases hidle : v.binding.Idle v.direction v.before
  · rw [show v.after = v.before from Pass.visit_of_idle hidle v.handle, assigned?,
      divergence?_of_idle hidle]
    split <;> rfl
  · obtain ⟨flow, cell, hflow, hcell, hvisit⟩ := Pass.exchanges_visit hidle v.handle
    obtain ⟨hreads, -, -⟩ := Direction.restrict_eq_some_iff.mp hflow
    have hafter : v.after.row.cell? j =
        if j = v.binding.component then some (v.exchange flow cell).cell
        else v.before.row.cell? j :=
      hvisit.cell j
    rw [Row.value?, Row.value?, hafter]
    split
    · rename_i hj
      rw [hj, hcell, assigned?, divergence?_of_not_idle hidle hcell]
      unfold exchange Binding.exchange
      cases v.before.object.answer v.binding with
      | error source => rfl
      | ok x =>
        dsimp only
        split
        · rfl
        · simp only [hreads, Option.bind_some, Value.brought]
          cases cell.value.agrees _ <;>
            cases v.binding.direction.readsHost && v.direction.readsHost <;> rfl
    · rfl

/-- What it means that the two sides differ when they are compared. -/
theorem divergence?_eq_some {v : Visit ο} {x : Value} {cell : Cell}
    (h : v.divergence? = some (x, cell)) :
    ¬v.binding.Idle v.direction v.before ∧ v.before.object.answer v.binding = .ok x ∧
      v.before.row.cell? v.binding.component = some cell ∧ x.agrees cell.value = false := by
  unfold divergence? at h
  split at h
  · cases h
  · rename_i hidle
    refine ⟨hidle, ?_⟩
    split at h
    · rename_i hanswer hcell
      split at h
      · cases h
      · rename_i hdiffers
        cases h
        exact ⟨hanswer, hcell, Bool.eq_false_iff.mpr hdiffers⟩
    · cases h

theorem isConflict_iff {v : Visit ο} : v.isConflict = true ↔
    v.binding.direction = .bidirectional ∧ ∃ x cell, v.divergence? = some (x, cell) := by
  rw [isConflict, Bool.and_eq_true, decide_eq_true_eq, Option.isSome_iff_exists, Prod.exists]

/-- What is assigned is the target. -/
theorem target?_of_assigned? {v : Visit ο} {w : Value} (h : v.assigned? = some w) :
    v.target? = some w := by
  obtain ⟨d, hdivergence, hassigned⟩ := Option.bind_eq_some_iff.mp h
  rw [target?, hdivergence]
  dsimp only at hassigned
  split at hassigned
  · exact hassigned
  · cases hassigned

/-- A value is assigned only to a component that does not agree with it. -/
theorem differs_of_assigned? {v : Visit ο} {w : Value} (h : v.assigned? = some w) :
    ∃ y, v.before.row.value? v.binding.component = some y ∧ y.agrees w = false := by
  obtain ⟨⟨x, cell⟩, hdivergence, hassigned⟩ := Option.bind_eq_some_iff.mp h
  obtain ⟨-, -, hcell, -⟩ := divergence?_eq_some hdivergence
  refine ⟨cell.value, by rw [Row.value?, hcell]; rfl, ?_⟩
  dsimp only at hassigned
  split at hassigned
  · cases hassigned
    simp_all
  · cases hassigned

/-! ## Divergences that are settled -/

section Settles

variable {v : Visit ο} {x : Value} {cell : Cell} (h : v.divergence? = some (x, cell))

include h

theorem target?_eq : v.target? = some (Pass.target v.binding x cell) := by
  rw [target?, h]
  rfl

/-- The component is brought to the target if both directions let values flow from the host. -/
theorem value?_of_divergence? : v.after.row.value? v.binding.component =
    some (cell.value.brought (v.binding.direction.readsHost && v.direction.readsHost)
      (Pass.target v.binding x cell)) := by
  obtain ⟨-, -, hcell, -⟩ := divergence?_eq_some h
  rw [value?_after, if_pos rfl, assigned?, h, Row.value?, hcell, Option.bind_some, Value.brought]
  dsimp only
  cases cell.value.agrees _ <;>
    cases v.binding.direction.readsHost && v.direction.readsHost <;> rfl

/-- The host object is asked to hold the target if both directions let values flow to the host. -/
theorem accesses_of_divergence? : v.accesses = .read v.binding.capability ::
    if !x.agrees (Pass.target v.binding x cell) &&
        (v.binding.direction.writesHost && v.direction.writesHost) then
      [.write v.binding.capability (Pass.target v.binding x cell)] else [] := by
  obtain ⟨hidle, hanswer, hcell, hdiffers⟩ := divergence?_eq_some h
  obtain ⟨flow, cell', hflow, hcell', hvisit⟩ := Pass.exchanges_visit hidle v.handle
  obtain ⟨-, hwrites, -⟩ := Direction.restrict_eq_some_iff.mp hflow
  cases hcell.symm.trans hcell'
  rw [v.accesses_of_after hvisit.object, hanswer, Binding.exchange]
  simp only [hdiffers, Bool.false_eq_true, ↓reduceIte, hwrites]

/-- A faithful host object then holds the target if it accepts it. -/
theorem answer_of_divergence? {holds : ο → Prop} (hf : Faithful holds)
    (ho : holds v.before.object.object) : v.after.object.answer v.binding =
      .ok (x.brought (v.binding.direction.writesHost && v.direction.writesHost &&
        (AccessError.of? (v.before.object.accept v.binding (Pass.target v.binding x cell))).isNone)
        (Pass.target v.binding x cell)) := by
  obtain ⟨-, hanswer, -, -⟩ := divergence?_eq_some h
  obtain ⟨hheld, hagain⟩ := hf.reading ho v.binding.capability
  have hread := hagain.trans hanswer
  obtain ⟨-, hwritten⟩ := hf.writing hheld v.binding.capability (Pass.target v.binding x cell)
  rw [v.report_after.1, accesses_of_divergence? h, Value.brought]
  by_cases hagrees : x.agrees (Pass.target v.binding x cell) = true
  · simp only [hagrees, Bool.not_true, Bool.false_and, Bool.false_eq_true, ↓reduceIte]
    exact hread
  · cases hgives : v.binding.direction.writesHost && v.direction.writesHost with
    | false =>
      simp only [hagrees, Bool.and_false, Bool.false_and, Bool.false_eq_true, ↓reduceIte]
      exact hread
    | true =>
      simp only [hagrees, Bool.not_false, Bool.true_and, Bool.false_eq_true, ↓reduceIte,
        Option.isNone_iff_eq_none, AccessError.of?_eq_none_iff]
      exact hwritten x hread

theorem settles_iff {holds : ο → Prop} (hf : Faithful holds)
    (ho : holds v.before.object.object) : v.settles = true ↔
      ((v.binding.direction.readsHost && v.direction.readsHost) = true ∨
          cell.value.Matches (Pass.target v.binding x cell)) ∧
        ((v.binding.direction.writesHost && v.direction.writesHost) = true ∧
            v.before.object.accept v.binding (Pass.target v.binding x cell) = .ok () ∨
          x.Matches (Pass.target v.binding x cell)) := by
  rw [settles, target?_eq h, value?_of_divergence? h, answer_of_divergence? h hf ho]
  simp only [Bool.and_eq_true, decide_eq_true_eq, Value.matches_brought_iff,
    Option.isNone_iff_eq_none, AccessError.of?_eq_none_iff]

/-- Where values may flow both ways and nothing is refused, both sides get to the target. -/
theorem settles_of_clean {holds : ο → Prop} (hf : Faithful holds)
    (ho : holds v.before.object.object) (hbinding : v.binding.direction = .bidirectional)
    (hdirection : v.direction = .bidirectional)
    (hclean : Access.failures v.handle v.before.object.object v.accesses = []) :
    v.settles = true := by
  rw [settles_iff h hf ho, hbinding, hdirection]
  refine ⟨.inl rfl, ?_⟩
  by_cases hagrees : x.agrees (Pass.target v.binding x cell) = true
  · exact .inr (.inl hagrees)
  · refine .inl ⟨rfl, AccessError.of?_eq_none_iff.mp ?_⟩
    have hwrite : (Access.write v.binding.capability (Pass.target v.binding x cell)).refusal?
        ((Access.read v.binding.capability).after v.before.object.object) =
          AccessError.of? (v.before.object.accept v.binding (Pass.target v.binding x cell)) := rfl
    rw [accesses_of_divergence? h, hbinding, hdirection] at hclean
    exact And.right (show _ ∧ _ by
      simpa [hagrees, Direction.writesHost, Access.failures, hwrite] using hclean)

end Settles

end Visit

/-! ## A whole pass -/

/-- The visits of a pass, in order. -/
def Pass.visits (direction : Direction) (handle : Handle) :
    List Binding → Pass (Watched ο) → List (Visit ο)
  | [], _ => []
  | b :: bs, p =>
    ⟨direction, handle, b, p⟩ :: visits direction handle bs (visit direction handle p b)

section Visits

variable (direction : Direction) (handle : Handle)

theorem Pass.map_binding_visits (bs : List Binding) (p : Pass (Watched ο)) :
    (visits direction handle bs p).map Visit.binding = bs := by
  induction bs generalizing p with
  | nil => rfl
  | cons b bs ih => rw [visits, List.map_cons, ih]

/-- The visit to a binding is the one from where the bindings before it lead. -/
theorem Pass.visits_append (bs cs : List Binding) (p : Pass (Watched ο)) :
    visits direction handle (bs ++ cs) p =
      visits direction handle bs p ++
        visits direction handle cs (bs.foldl (visit direction handle) p) := by
  induction bs generalizing p with
  | nil => rfl
  | cons b bs ih => rw [List.cons_append, visits, visits, ih, List.cons_append, List.foldl_cons]

/-- What accesses do not take from a host object holds of it in each visit. -/
theorem Pass.forall_mem_visits {holds : ο → Prop}
    (hafter : ∀ (as : List Access) {o : ο}, holds o → holds (as.foldl Access.after o))
    (bs : List Binding) {p : Pass (Watched ο)} (hp : holds p.object.object) :
    ∀ v ∈ visits direction handle bs p,
      v.direction = direction ∧ v.handle = handle ∧ holds v.before.object.object := by
  induction bs generalizing p with
  | nil => simp [visits]
  | cons b bs ih =>
    obtain ⟨as, hobject, -⟩ := asks_own direction handle p b
    have hnext : holds (visit direction handle p b).object.object := by
      rw [hobject]
      exact hafter as hp
    intro v hv
    rcases List.mem_cons.mp hv with rfl | hv
    · exact ⟨rfl, rfl, hp⟩
    · exact ih hnext v hv

/-- The report of a pass is put together from what its visits add. -/
theorem Pass.report_visits (bs : List Binding) (p : Pass (Watched ο)) :
    (bs.foldl (visit direction handle) p).report =
      ((visits direction handle bs p).map Visit.report).foldl SyncReport.merge p.report := by
  induction bs generalizing p with
  | nil => rfl
  | cons b bs ih =>
    have hone : (visit direction handle p b).report =
        p.report.merge (Visit.report ⟨direction, handle, b, p⟩) :=
      (Visit.report_after ⟨direction, handle, b, p⟩).2
    rw [List.foldl_cons, ih, visits, List.map_cons, List.foldl_cons, hone]

end Visits

/-- Reports in one, part by part. -/
theorem SyncReport.foldl_merge (rs : List SyncReport) (r : SyncReport) :
    rs.foldl merge r =
      { entities := r.entities + (rs.map entities).sum
        toEcs := r.toEcs + (rs.map toEcs).sum
        toHost := r.toHost + (rs.map toHost).sum
        conflicts := r.conflicts + (rs.map conflicts).sum
        failures := r.failures ++ rs.flatMap failures } := by
  induction rs generalizing r with
  | nil => simp
  | cons s rs ih => simp [ih, merge, Nat.add_assoc]

/-- A count as a sum. -/
theorem sum_toNat {α : Type} (f : α → Bool) (l : List α) :
    (l.map fun a => (f a).toNat).sum = l.countP f := by
  induction l with
  | nil => rfl
  | cons a l ih => cases h : f a <;> simp [h, ih, Nat.add_comm]

namespace Table

variable (t : Table) (direction : Direction) (handle : Handle) (object : ο) (row : Row)
  (journal : Journal)

/-- The visits of a pass over a table, in order. -/
def visits : List (Visit ο) :=
  Pass.visits direction handle t.bindings
    ((t.withBindings []).watch direction handle object row journal)

/-- What the report of a pass counts. -/
structure Tallies : Prop where
  /-- Each binding is visited once, in its place. -/
  visited : (t.visits direction handle object row journal).map Visit.binding = t.bindings
  placed : ∀ before b after, t.bindings = before ++ b :: after →
    (t.visits direction handle object row journal)[before.length]? =
      some ⟨direction, handle, b, (t.withBindings before).watch direction handle object row journal⟩
  /-- A visit makes its accesses, which are to the capability of the binding. -/
  asks : ∀ v ∈ t.visits direction handle object row journal,
    v.after.object = v.before.object.after v.accesses ∧
      ∀ a ∈ v.accesses, a.capability = v.binding.capability
  /-- A visit assigns the target to a component that does not agree with it, and changes no value
  otherwise. -/
  assigns : ∀ v ∈ t.visits direction handle object row journal,
    (∀ j, v.after.row.value? j =
      if j = v.binding.component then v.assigned?.or (v.before.row.value? j)
      else v.before.row.value? j) ∧
    ∀ w, v.assigned? = some w → v.target? = some w ∧
      ∃ y, v.before.row.value? v.binding.component = some y ∧ y.agrees w = false
  entities : (t.synchronize direction handle object row journal).report.entities = 1
  toEcs : (t.synchronize direction handle object row journal).report.toEcs =
    (t.visits direction handle object row journal).countP fun v => v.assigned?.isSome
  toHost : (t.synchronize direction handle object row journal).report.toHost =
    ((t.visits direction handle object row journal).map fun v =>
      Access.accepted v.before.object.object v.accesses).sum
  failures : (t.synchronize direction handle object row journal).report.failures =
    (t.visits direction handle object row journal).flatMap fun v =>
      Access.failures handle v.before.object.object v.accesses
  /-- The conflicts are the divergences of bindings that flow both ways, settled or not. -/
  conflicts : (t.synchronize direction handle object row journal).report.conflicts =
    (t.visits direction handle object row journal).countP Visit.isConflict
  /-- On a faithful host object a conflict is settled exactly if the pass and the object let each
  side get to the target that is not there. -/
  settled : ∀ holds : ο → Prop, Faithful holds → holds object →
    ∀ v ∈ t.visits direction handle object row journal, v.isConflict = true →
      ∃ x cell, v.divergence? = some (x, cell) ∧
        (v.settles = true ↔
          (direction.readsHost = true ∨ cell.value.Matches (Pass.target v.binding x cell)) ∧
            (direction.writesHost = true ∧
                v.before.object.accept v.binding (Pass.target v.binding x cell) = .ok () ∨
              x.Matches (Pass.target v.binding x cell)))
  /-- All are in a pass in both directions without failures. -/
  clean : ∀ holds : ο → Prop, Faithful holds → holds object → direction = .bidirectional →
    (t.synchronize direction handle object row journal).report.failures = [] →
      (t.synchronize direction handle object row journal).report.conflicts =
        (t.visits direction handle object row journal).countP fun v => v.isConflict && v.settles

theorem visits_placed {before after : List Binding} {b : Binding}
    (hsplit : t.bindings = before ++ b :: after) :
    (t.visits direction handle object row journal)[before.length]? =
      some ⟨direction, handle, b,
        (t.withBindings before).watch direction handle object row journal⟩ := by
  have hlength (p : Pass (Watched ο)) :
      (Pass.visits direction handle before p).length = before.length := by
    rw [← List.length_map Visit.binding, Pass.map_binding_visits]
  rw [visits, hsplit, Pass.visits_append, List.getElem?_append_right (Nat.le_of_eq (hlength _)),
    hlength, Nat.sub_self, ← watch_append]
  rfl

theorem forall_mem_visits (holds : ο → Prop)
    (hafter : ∀ (as : List Access) {o : ο}, holds o → holds (as.foldl Access.after o))
    (ho : holds object) : ∀ v ∈ t.visits direction handle object row journal,
      v.direction = direction ∧ v.handle = handle ∧ holds v.before.object.object :=
  Pass.forall_mem_visits direction handle hafter t.bindings ho

/-- The report is what the visits add, part by part. -/
theorem report_synchronize :
    (t.synchronize direction handle object row journal).report =
      { entities := 1
        toEcs := (t.visits direction handle object row journal).countP fun v => v.assigned?.isSome
        toHost := ((t.visits direction handle object row journal).map fun v =>
          Access.accepted v.before.object.object v.accesses).sum
        conflicts := (t.visits direction handle object row journal).countP Visit.isConflict
        failures := (t.visits direction handle object row journal).flatMap fun v =>
          Access.failures v.handle v.before.object.object v.accesses } := by
  have hwatch : (t.synchronize direction handle object row journal).report =
      ((t.visits direction handle object row journal).map Visit.report).foldl SyncReport.merge
        { entities := 1 } :=
    (congrArg Pass.report (t.unwatched_watch direction handle object row journal)).symm.trans
      (Pass.report_visits direction handle t.bindings _)
  rw [hwatch, SyncReport.foldl_merge, ← sum_toNat, ← sum_toNat]
  simp [Function.comp_def, Visit.report, List.flatMap_map]

/-- The report of a pass counts the refused accesses, the accepted writes and the values that are
assigned. Of conflicts it counts those that are found. -/
theorem tallies_synchronize : t.Tallies direction handle object row journal := by
  have hreport := t.report_synchronize direction handle object row journal
  have hmembers := t.forall_mem_visits direction handle object row journal
  refine ⟨Pass.map_binding_visits direction handle t.bindings _,
    fun before b after hsplit => t.visits_placed direction handle object row journal hsplit,
    fun v hv => ⟨v.report_after.1, ?_⟩, fun v hv => ⟨v.value?_after, fun w hw => ?_⟩,
    by rw [hreport], by rw [hreport], by rw [hreport], ?_, by rw [hreport],
    fun holds hf ho v hv hconflict => ?_, fun holds hf ho hboth hclean => ?_⟩
  · obtain ⟨as, hobject, hown⟩ := Pass.asks_own v.direction v.handle v.before v.binding
    rw [v.accesses_of_after hobject]
    exact hown
  · exact ⟨Visit.target?_of_assigned? hw, Visit.differs_of_assigned? hw⟩
  · rw [hreport]
    refine List.flatMap_congr fun v hv => ?_
    rw [(hmembers (fun _ => True) (fun _ _ => id) trivial v hv).2.1]
  · obtain ⟨hbinding, x, cell, hd⟩ := Visit.isConflict_iff.mp hconflict
    obtain ⟨hdirection, -, hholds⟩ := hmembers holds hf.after ho v hv
    have hsettles := Visit.settles_iff hd hf hholds
    rw [hbinding, hdirection] at hsettles
    exact ⟨x, cell, hd, hsettles⟩
  · rw [hreport] at hclean ⊢
    refine List.countP_congr fun v hv => ?_
    obtain ⟨hdirection, -, hholds⟩ := hmembers holds hf.after ho v hv
    rw [Bool.and_eq_true, iff_self_and]
    intro hconflict
    obtain ⟨hbinding, x, cell, hd⟩ := Visit.isConflict_iff.mp hconflict
    exact Visit.settles_of_clean hd hf hholds hbinding (hdirection.trans hboth)
      (List.flatMap_eq_nil_iff.mp hclean v hv)

/-- The component wins. A bag takes its value, so the one conflict is settled; an object that
refuses it leaves the conflict as it is. -/
theorem tallies_synchronize_refused :
    let t : Table := { bindings := [⟨"health", ⟨0⟩, "Health", .bidirectional, .ecsWins⟩] }
    let row : Row := ⟨⟨0, 0⟩, [(⟨0⟩, ⟨.int 8, .int 0⟩)]⟩
    let bag : PropertyBag := ⟨[("health", .int 0)]⟩
    let refusing : ScriptedObject :=
      { scripts := [("health", { value := .int 0, write := .refuse .gone })] }
    (t.synchronize .bidirectional row.handle bag row {}).report.conflicts = 1 ∧
      ((t.visits .bidirectional row.handle bag row {}).countP fun v =>
        v.isConflict && v.settles) = 1 ∧
      ∀ v ∈ t.visits .bidirectional row.handle refusing row {},
        v.isConflict = true ∧ v.settles = false := by
  intro t row bag refusing
  have hbag := (t.tallies_synchronize .bidirectional row.handle bag row {}).clean _
    PropertyBag.faithful trivial rfl (by decide)
  refine ⟨by decide, hbag.symm.trans (by decide), fun v hv => ?_⟩
  have hrefuses : ∀ c script, refusing.script? c = some script →
      script.write = .accept ∨ ∃ refusal, script.write = .refuse refusal := by
    intro c script hscript
    obtain ⟨entry, hentry, rfl⟩ := Option.map_eq_some_iff.mp hscript
    obtain rfl := List.mem_singleton.mp (List.mem_of_find?_eq_some hentry)
    exact .inr ⟨.gone, rfl⟩
  have hvisits : ∀ v ∈ t.visits .bidirectional row.handle refusing row {}, v.isConflict = true ∧
      v.divergence? = some (.int 0, ⟨.int 8, .int 0⟩) ∧ Pass.target v.binding (.int 0)
        ⟨.int 8, .int 0⟩ = .int 8 ∧ v.before.object.accept v.binding (.int 8) ≠ .ok () := by decide
  obtain ⟨hconflict, hdivergence, htarget, hrefused⟩ := hvisits v hv
  obtain ⟨x, cell, hd, hsettles⟩ :=
    (t.tallies_synchronize .bidirectional row.handle refusing row {}).settled _
      ScriptedObject.faithful hrefuses v hv hconflict
  obtain ⟨rfl, rfl⟩ := Prod.mk.inj (Option.some.inj (hd.symm.trans hdivergence))
  rw [htarget] at hsettles
  refine ⟨hconflict, Bool.eq_false_iff.mpr fun h => ?_⟩
  obtain ⟨-, ⟨-, haccepts⟩ | hmatches⟩ := hsettles.mp h
  · exact hrefused haccepts
  · exact absurd hmatches (by decide)

/-- The component wins, but the pass flows from the host only : the divergence is counted, and
neither side is moved. -/
theorem unsettled_counted :
    let t : Table := { bindings := [⟨"health", ⟨0⟩, "Health", .bidirectional, .ecsWins⟩] }
    let object : PropertyBag := ⟨[("health", .int 0)]⟩
    let row : Row := ⟨⟨0, 0⟩, [(⟨0⟩, ⟨.int 8, .int 0⟩)]⟩
    let p := t.synchronize .hostToEcs row.handle object row {}
    p.report = { entities := 1, conflicts := 1 } ∧
      p.row.value? ⟨0⟩ = some (.int 8) ∧ p.object.get? "health" = some (.int 0) ∧
      (t.visits .hostToEcs row.handle object row {}).map Visit.target? = [some (.int 8)] ∧
      ((t.visits .hostToEcs row.handle object row {}).countP fun v =>
        v.isConflict && v.settles) = 0 := by
  decide

end Table

end Tether
