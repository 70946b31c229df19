import Tether.Proofs.Settlement
import Tether.Proofs.Workers

/-!
# What a pass asks of a host object

A host object knows of a pass only what is read from it and written to it. `Watched` is a host
object with the list of accesses that were made to it. It answers as the object does, so a pass
over it (`Table.watch`) is the pass over the object (`Table.unwatched_watch`), and what the list
has in the end is what the pass asked of the object.

A visit to a binding reads the capability of the binding at most once, and then writes it at most
once. It writes only where both the direction of the binding and that of the pass let values flow
to the host, and it changes the value of a component, the one of the binding, only where both let
values flow from the host (`Pass.confined_visit`). Where there is no flow at all, or one of the
two sides is missing, nothing happens. `Table.confined_synchronize` takes this to a whole pass.
-/

set_option linter.unusedSectionVars false

namespace Tether

variable {ο : Type} [HostObject ο]

/-! ## Watched host objects -/

/-- What is asked of a host object. -/
inductive Access
  | read (capability : Capability)
  | write (capability : Capability) (value : Value)
  deriving DecidableEq

/-- Whether an access writes. -/
def Access.isWrite : Access → Bool
  | .read _ => false
  | .write _ _ => true

/-- A host object after an access. -/
def Access.after (object : ο) : Access → ο
  | .read c => (HostObject.read object c).2
  | .write c v => (HostObject.write object c v).2

/-- A host object with the accesses that were made to it, oldest first. -/
structure Watched (ο : Type) where
  object : ο
  accesses : List Access := []

/-- A watched object after further accesses. -/
def Watched.after (w : Watched ο) (as : List Access) : Watched ο :=
  ⟨as.foldl Access.after w.object, w.accesses ++ as⟩

theorem Watched.after_nil (w : Watched ο) : w.after [] = w := by simp [after]

theorem Watched.after_append (w : Watched ο) (as bs : List Access) :
    w.after (as ++ bs) = (w.after as).after bs := by
  simp [after]

instance : HostObject (Watched ο) where
  exposes w c := HostObject.exposes w.object c
  read w c := ((HostObject.read w.object c).1, w.after [.read c])
  write w c v := ((HostObject.write w.object c v).1, w.after [.write c v])
  keepsItself w := HostObject.keepsItself w.object

namespace Pass

/-- The pass over the object itself. -/
def unwatched (p : Pass (Watched ο)) : Pass ο := { p with object := p.object.object }

/-! ## Watching changes nothing -/

theorem unwatched_agree (p : Pass (Watched ο)) (id : ComponentId) (base : Value) :
    (p.agree id base).unwatched = p.unwatched.agree id base := by
  simp only [agree, unwatched]
  cases p.row.cell? id <;> rfl

theorem unwatched_pull (p : Pass (Watched ο)) (flow : Direction) (id : ComponentId) (cell : Cell)
    (target : Value) :
    p.unwatched.pull flow id cell target =
      ((p.pull flow id cell target).1, (p.pull flow id cell target).2.unwatched) := by
  unfold pull
  split
  · rfl
  · split <;> rfl

theorem unwatched_send (p : Pass (Watched ο)) (flow : Direction) (handle : Handle)
    (c : Capability) (hostValue target : Value) :
    p.unwatched.send flow handle c hostValue target =
      ((p.send flow handle c hostValue target).1,
        (p.send flow handle c hostValue target).2.unwatched) := by
  unfold send
  split
  · rfl
  · split
    · have hwrite : HostObject.write p.object c target =
          ((HostObject.write p.unwatched.object c target).1, p.object.after [.write c target]) :=
        rfl
      have hafter : (p.object.after [.write c target]).object =
          (HostObject.write p.unwatched.object c target).2 := rfl
      rw [hwrite]
      generalize p.object.after [.write c target] = w at hafter ⊢
      generalize HostObject.write p.unwatched.object c target = x at hafter ⊢
      obtain ⟨result, object⟩ := x
      dsimp only at hafter
      subst hafter
      cases result <;> rfl
    · rfl

theorem unwatched_settle (p : Pass (Watched ο)) (flow : Direction) (handle : Handle) (b : Binding)
    (hostValue : Value) (cell : Cell) :
    (p.settle flow handle b hostValue cell).unwatched =
      p.unwatched.settle flow handle b hostValue cell := by
  rw [settle_eq, settle_eq, show p.unwatched.diverged handle b hostValue cell =
    (p.diverged handle b hostValue cell).unwatched from rfl]
  simp only [reached, unwatched_pull, unwatched_send]
  split
  · exact unwatched_agree _ _ _
  · rfl

theorem unwatched_visit (direction : Direction) (handle : Handle) (p : Pass (Watched ο))
    (b : Binding) :
    (visit direction handle p b).unwatched = visit direction handle p.unwatched b := by
  unfold visit
  rw [show p.unwatched.row = p.row from rfl,
    show HostObject.exposes p.unwatched.object b.capability =
      HostObject.exposes p.object b.capability from rfl]
  split
  · split
    · have hread : HostObject.read p.object b.capability =
          ((HostObject.read p.unwatched.object b.capability).1,
            p.object.after [.read b.capability]) := rfl
      have hafter : (p.object.after [.read b.capability]).object =
          (HostObject.read p.unwatched.object b.capability).2 := rfl
      rw [hread]
      generalize p.object.after [.read b.capability] = w at hafter ⊢
      generalize HostObject.read p.unwatched.object b.capability = x at hafter ⊢
      obtain ⟨result, object⟩ := x
      dsimp only at hafter
      subst hafter
      cases result with
      | error source => rfl
      | ok hostValue =>
        dsimp only
        split
        · exact unwatched_agree { p with object := w } _ _
        · exact unwatched_settle { p with object := w } _ _ _ _ _
    · rfl
  · rfl

theorem unwatched_foldl (direction : Direction) (handle : Handle) (bs : List Binding)
    (p : Pass (Watched ο)) :
    (bs.foldl (visit direction handle) p).unwatched =
      bs.foldl (visit direction handle) p.unwatched := by
  induction bs generalizing p with
  | nil => rfl
  | cons b bs ih =>
    rw [List.foldl_cons, List.foldl_cons, ih, unwatched_visit]

/-! ## What is asked -/

theorem object_pull (p : Pass ο) (flow : Direction) (id : ComponentId) (cell : Cell)
    (target : Value) : (p.pull flow id cell target).2.object = p.object := by
  unfold pull
  split
  · rfl
  · split <;> rfl

/-- Only a flow to the host writes. -/
theorem asks_send (p : Pass (Watched ο)) (flow : Direction) (handle : Handle) (c : Capability)
    (hostValue target : Value) :
    ∃ as, (p.send flow handle c hostValue target).2.object = p.object.after as ∧
      (as = [] ∨ flow.writesHost = true ∧ as = [.write c target]) := by
  unfold send
  split
  · exact ⟨[], p.object.after_nil.symm, .inl rfl⟩
  · split
    · rename_i hflow
      have hafter : (HostObject.write p.object c target).2 = p.object.after [.write c target] :=
        rfl
      refine ⟨[.write c target], ?_, .inr ⟨hflow, rfl⟩⟩
      generalize HostObject.write p.object c target = x at hafter ⊢
      obtain ⟨result, object⟩ := x
      cases result <;> exact hafter
    · exact ⟨[], p.object.after_nil.symm, .inl rfl⟩

theorem asks_settle (p : Pass (Watched ο)) (flow : Direction) (handle : Handle) (b : Binding)
    (hostValue : Value) (cell : Cell) :
    ∃ as, (p.settle flow handle b hostValue cell).object = p.object.after as ∧
      (as = [] ∨ flow.writesHost = true ∧ ∃ v, as = [.write b.capability v]) := by
  rw [settle_eq]
  generalize hp : p.diverged handle b hostValue cell = p'
  have hobject : p'.object = p.object := by rw [← hp]; rfl
  generalize target b hostValue cell = t
  obtain ⟨as, hsent, has⟩ :=
    (p'.pull flow b.component cell t).2.asks_send flow handle b.capability hostValue t
  rw [object_pull, hobject] at hsent
  refine ⟨as, ?_, has.imp_right fun h => ⟨h.1, t, h.2⟩⟩
  unfold reached
  dsimp only
  split
  · rw [(agree_object _ _ _).1]
    exact hsent
  · exact hsent

/-! ## What is changed -/

theorem cell?_agree_ne (p : Pass ο) {id j : ComponentId} (hj : j ≠ id) (base : Value) :
    (p.agree id base).row.cell? j = p.row.cell? j := by
  unfold agree
  split
  · rw [Row.cell?_put, if_neg hj]
  · rfl

/-- The base is no value of a component. -/
theorem value?_agree (p : Pass ο) (id : ComponentId) (base : Value) (j : ComponentId) :
    (p.agree id base).row.value? j = p.row.value? j := by
  unfold Row.value?
  cases hc : p.row.cell? id with
  | none => simp only [agree, hc]
  | some cell =>
    rw [cell?_agree p hc]
    by_cases hj : j = id
    · rw [if_pos hj, hj, hc]
      rfl
    · rw [if_neg hj]

/-- A component is changed by a flow from the host, and no other component is. -/
theorem row_pull (p : Pass ο) (flow : Direction) (id : ComponentId) (cell : Cell)
    (target : Value) :
    (flow.readsHost = false → (p.pull flow id cell target).2.row = p.row) ∧
      ∀ j, j ≠ id → (p.pull flow id cell target).2.row.cell? j = p.row.cell? j := by
  unfold pull
  split
  · exact ⟨fun _ => rfl, fun _ _ => rfl⟩
  · split
    · rename_i hflow
      refine ⟨fun hnone => ?_, fun j hj => ?_⟩
      · rw [hflow] at hnone
        cases hnone
      · rw [Row.cell?_put, if_neg hj]
    · exact ⟨fun _ => rfl, fun _ _ => rfl⟩

theorem row_settle (p : Pass ο) (flow : Direction) (handle : Handle) (b : Binding)
    (hostValue : Value) (cell : Cell) :
    (flow.readsHost = false → ∀ j,
        (p.settle flow handle b hostValue cell).row.value? j = p.row.value? j) ∧
      ∀ j, j ≠ b.component →
        (p.settle flow handle b hostValue cell).row.cell? j = p.row.cell? j := by
  rw [settle_eq]
  generalize hp : p.diverged handle b hostValue cell = p'
  have hrow : p'.row = p.row := by rw [← hp]; rfl
  generalize target b hostValue cell = t
  obtain ⟨hkept, hothers⟩ := p'.row_pull flow b.component cell t
  have hsent := (p'.pull flow b.component cell t).2.row_send flow handle b.capability hostValue t
  rw [hrow] at hkept hothers
  unfold reached
  dsimp only
  split
  · refine ⟨fun hflow j => ?_, fun j hj => ?_⟩
    · rw [value?_agree, hsent, hkept hflow]
    · rw [cell?_agree_ne _ hj, hsent, hothers j hj]
  · refine ⟨fun hflow j => ?_, fun j hj => ?_⟩
    · rw [hsent, hkept hflow]
    · rw [hsent, hothers j hj]

end Pass

/-! ## One visit -/

/-- A binding in one direction against a pass in the other. -/
def Binding.Opposes (b : Binding) (direction : Direction) : Prop :=
  b.direction = .hostToEcs ∧ direction = .ecsToHost ∨
    b.direction = .ecsToHost ∧ direction = .hostToEcs

/-- A binding has no part in a pass if it opposes the direction of the pass, the object does not
expose its capability, or the row lacks its component. -/
def Binding.Idle (b : Binding) (direction : Direction) (p : Pass ο) : Prop :=
  b.Opposes direction ∨ HostObject.exposes p.object b.capability = false ∨
    p.row.contains b.component = false

theorem Binding.opposes_iff {b : Binding} {direction : Direction} :
    b.Opposes direction ↔ b.direction.restrict direction = none := by
  unfold Opposes
  cases b.direction <;> cases direction <;> decide

namespace Pass

/-- How far the visit to a binding may go that leads from `p` to `q`. -/
structure Confined (direction : Direction) (b : Binding) (p q : Pass (Watched ο)) : Prop where
  /-- The capability of the binding may be read and then written, and it is not written if the
  binding or the pass flows from the host only. -/
  asks : ∃ as, q.object = p.object.after as ∧
    (as = [] ∨ as = [.read b.capability] ∨
      ∃ v, as = [.read b.capability, .write b.capability v]) ∧
    (direction = .hostToEcs ∨ b.direction = .hostToEcs → ∀ a ∈ as, a.isWrite = false)
  alike : p.row.Alike q.row
  others : ∀ id, id ≠ b.component → q.row.cell? id = p.row.cell? id
  /-- No value is changed if the binding or the pass flows to the host only. -/
  values : direction = .ecsToHost ∨ b.direction = .ecsToHost →
    ∀ id, q.row.value? id = p.row.value? id
  idle : b.Idle direction p → q = p

theorem visit_of_idle {direction : Direction} {p : Pass ο} {b : Binding}
    (h : b.Idle direction p) (handle : Handle) : visit direction handle p b = p := by
  unfold visit
  rcases h with h | h | h
  · rw [Binding.opposes_iff.mp h]
  · split
    · rw [if_neg (by rw [h]; decide)]
    · rfl
  · rw [show p.row.cell? b.component = none by simpa [Row.contains] using h]
    split
    · rename_i hcell
      cases hcell
    · rfl

/-- The pass once a capability was read. -/
def asked (p : Pass (Watched ο)) (c : Capability) : Pass (Watched ο) :=
  { p with object := p.object.after [.read c] }

/-- A visit that is not idle reads, and goes by the answer. -/
theorem visit_of_not_idle {direction : Direction} {p : Pass (Watched ο)} {b : Binding}
    (h : ¬b.Idle direction p) (handle : Handle) :
    ∃ flow cell, b.direction.restrict direction = some flow ∧
      p.row.cell? b.component = some cell ∧
      visit direction handle p b =
        match (HostObject.read p.object b.capability).1 with
        | .error source => (p.asked b.capability).fail handle b.capability source
        | .ok hostValue =>
          if hostValue.agrees cell.value then
            (p.asked b.capability).agree b.component hostValue
          else (p.asked b.capability).settle flow handle b hostValue cell := by
  unfold Binding.Idle at h
  rw [Binding.opposes_iff] at h
  simp only [not_or, Bool.not_eq_false] at h
  obtain ⟨hflow, hexposes, hcell⟩ := h
  obtain ⟨flow, hflow⟩ := Option.ne_none_iff_exists'.mp hflow
  obtain ⟨cell, hcell⟩ := Option.isSome_iff_exists.mp hcell
  refine ⟨flow, cell, hflow, hcell, ?_⟩
  have hafter : (HostObject.read p.object b.capability).2 = (p.asked b.capability).object := rfl
  unfold visit asked at *
  simp only [hflow, hcell, hexposes, ↓reduceIte]
  generalize HostObject.read p.object b.capability = x at hafter ⊢
  obtain ⟨result, object⟩ := x
  dsimp only at hafter
  subst hafter
  cases result <;> rfl

theorem confined_visit (direction : Direction) (handle : Handle) (p : Pass (Watched ο))
    (b : Binding) : Confined direction b p (visit direction handle p b) := by
  have halike := p.alike_visit direction handle b
  by_cases hidle : b.Idle direction p
  · rw [visit_of_idle hidle]
    exact ⟨⟨[], p.object.after_nil.symm, .inl rfl, by simp⟩, .refl _, fun _ _ => rfl,
      fun _ _ => rfl, fun _ => rfl⟩
  obtain ⟨flow, cell, hflow, hcell, hvisit⟩ := visit_of_not_idle hidle handle
  obtain ⟨hreads, hwrites, -⟩ := Direction.restrict_eq_some_iff.mp hflow
  rw [hvisit] at halike ⊢
  have hrow : (p.asked b.capability).row = p.row := rfl
  -- where nothing is written, the capability was read all the same
  have hread : ∃ as, (p.asked b.capability).object = p.object.after as ∧
      (as = [] ∨ as = [.read b.capability] ∨
        ∃ v, as = [.read b.capability, .write b.capability v]) ∧
      (direction = .hostToEcs ∨ b.direction = .hostToEcs → ∀ a ∈ as, a.isWrite = false) :=
    ⟨[.read b.capability], rfl, .inr (.inl rfl), by simp [Access.isWrite]⟩
  split at halike
  · exact ⟨hread, halike, fun _ _ => rfl, fun _ _ => rfl, fun h => absurd h hidle⟩
  · rename_i hostValue _
    split at halike
    · rename_i hagrees
      rw [if_pos hagrees]
      exact ⟨by rw [(agree_object _ _ _).1]; exact hread, halike,
        fun id hid => cell?_agree_ne _ hid _, fun _ id => value?_agree _ _ _ id,
        fun h => absurd h hidle⟩
    · rename_i hdiffer
      rw [if_neg hdiffer]
      obtain ⟨as, hobject, has⟩ :=
        (p.asked b.capability).asks_settle flow handle b hostValue cell
      obtain ⟨hkept, hothers⟩ := (p.asked b.capability).row_settle flow handle b hostValue cell
      refine ⟨?_, halike, hothers, fun h => hkept ?_, fun h => absurd h hidle⟩
      · rcases has with rfl | ⟨hflow', v, rfl⟩
        · rw [hobject, Watched.after_nil]
          exact hread
        · refine ⟨_, hobject.trans (Watched.after_append _ _ _).symm, .inr (.inr ⟨v, rfl⟩),
            fun h => ?_⟩
          rw [hwrites] at hflow'
          rcases h with h | h <;> simp [h, Direction.writesHost] at hflow'
      · rw [hreads]
        rcases h with h | h <;> simp [h, Direction.readsHost]

/-! ## A whole pass -/

/-- What is written is the capability of a binding that flows to the host, in a pass that flows
to the host. -/
theorem asks_foldl (direction : Direction) (handle : Handle) (bs : List Binding)
    (p : Pass (Watched ο)) :
    ∃ as, (bs.foldl (visit direction handle) p).object = p.object.after as ∧
      ∀ c v, Access.write c v ∈ as → direction ≠ .hostToEcs ∧
        ∃ b ∈ bs, b.capability = c ∧ b.direction ≠ .hostToEcs := by
  induction bs generalizing p with
  | nil => exact ⟨[], p.object.after_nil.symm, by simp⟩
  | cons b bs ih =>
    obtain ⟨as, hone, hshape, hquiet⟩ := (confined_visit direction handle p b).asks
    obtain ⟨as', hrest, hwritten⟩ := ih (visit direction handle p b)
    refine ⟨as ++ as', by rw [List.foldl_cons, hrest, hone, Watched.after_append],
      fun c v hin => ?_⟩
    rcases List.mem_append.mp hin with hin | hin
    · have hflow : ¬(direction = .hostToEcs ∨ b.direction = .hostToEcs) := fun h => by
        cases hquiet h _ hin
      rw [not_or] at hflow
      refine ⟨hflow.1, b, by simp, ?_, hflow.2⟩
      rcases hshape with rfl | rfl | ⟨w, rfl⟩
      · cases hin
      · simp at hin
      · obtain ⟨rfl, -⟩ : c = b.capability ∧ v = w := by simpa using hin
        rfl
    · obtain ⟨hdirection, b', hb', hc⟩ := hwritten c v hin
      exact ⟨hdirection, b', List.mem_cons_of_mem _ hb', hc⟩

/-- What is changed is the component of a binding that flows from the host, in a pass that flows
from the host. -/
theorem changed_foldl (direction : Direction) (handle : Handle) (bs : List Binding)
    (p : Pass (Watched ο)) {id : ComponentId}
    (hid : (bs.foldl (visit direction handle) p).row.value? id ≠ p.row.value? id) :
    direction ≠ .ecsToHost ∧ ∃ b ∈ bs, b.component = id ∧ b.direction ≠ .ecsToHost := by
  induction bs generalizing p with
  | nil => exact absurd rfl hid
  | cons b bs ih =>
    have hone := confined_visit direction handle p b
    by_cases hkept : (visit direction handle p b).row.value? id = p.row.value? id
    · obtain ⟨hdirection, b', hb', h⟩ := ih (visit direction handle p b) (hkept ▸ hid)
      exact ⟨hdirection, b', List.mem_cons_of_mem _ hb', h⟩
    · have hflow : ¬(direction = .ecsToHost ∨ b.direction = .ecsToHost) := fun h =>
        hkept (hone.values h id)
      rw [not_or] at hflow
      refine ⟨hflow.1, b, by simp, ?_, hflow.2⟩
      refine Classical.byContradiction fun hne => hkept ?_
      unfold Row.value?
      rw [hone.others id fun h => hne h.symm]

end Pass

namespace Table

/-- The table with other bindings. -/
def withBindings (t : Table) (bindings : List Binding) : Table := { t with bindings }

variable (t : Table) (direction : Direction) (handle : Handle) (object : ο) (row : Row)
  (journal : Journal)

/-- The pass over a host object that is watched from the start. -/
def watch : Pass (Watched ο) :=
  t.synchronize direction handle (⟨object, []⟩ : Watched ο) row journal

/-- Watching a pass changes nothing of it. -/
theorem unwatched_watch :
    (t.watch direction handle object row journal).unwatched =
      t.synchronize direction handle object row journal :=
  Pass.unwatched_foldl direction handle t.bindings _

/-- How far a pass may go. -/
structure Confined : Prop where
  /-- The pass is the one that is watched, and its host object is where the accesses lead. -/
  watched : (t.watch direction handle object row journal).unwatched =
    t.synchronize direction handle object row journal
  reached : (t.synchronize direction handle object row journal).object =
    (t.watch direction handle object row journal).object.accesses.foldl Access.after object
  /-- A pass that flows from the host only does not write. -/
  reads : direction = .hostToEcs →
    ∀ a ∈ (t.watch direction handle object row journal).object.accesses, a.isWrite = false
  /-- A pass that flows to the host only changes no value. -/
  values : direction = .ecsToHost →
    ∀ id, (t.synchronize direction handle object row journal).row.value? id = row.value? id
  /-- Whatever the pass, no component comes or goes. -/
  alike : row.Alike (t.synchronize direction handle object row journal).row
  /-- A capability that is written has a binding that flows to the host. -/
  written : ∀ c v, Access.write c v ∈
      (t.watch direction handle object row journal).object.accesses →
    ∃ b ∈ t.bindings, b.capability = c ∧ b.direction ≠ .hostToEcs
  /-- A component whose value is changed has a binding that flows from the host. -/
  changed : ∀ id,
    (t.synchronize direction handle object row journal).row.value? id ≠ row.value? id →
      ∃ b ∈ t.bindings, b.component = id ∧ b.direction ≠ .ecsToHost
  /-- Each binding is visited once in its place, and its visit is confined. -/
  visits : ∀ before b after, t.bindings = before ++ b :: after →
    Pass.Confined direction b
      ((t.withBindings before).watch direction handle object row journal)
      ((t.withBindings (before ++ [b])).watch direction handle object row journal)
  /-- A binding that is idle when it is visited could as well be missing. -/
  idle : ∀ before b after, t.bindings = before ++ b :: after →
    b.Idle direction
      ((t.withBindings before).synchronize direction handle object row journal) →
    t.watch direction handle object row journal =
      (t.withBindings (before ++ after)).watch direction handle object row journal

theorem confined_synchronize : t.Confined direction handle object row journal := by
  have hwatched := t.unwatched_watch direction handle object row journal
  have hrow : (t.watch direction handle object row journal).row =
      (t.synchronize direction handle object row journal).row := congrArg Pass.row hwatched
  obtain ⟨as, hobject, hwritten⟩ := Pass.asks_foldl direction handle t.bindings
    { object := (⟨object, []⟩ : Watched ο), row, report := { entities := 1 }, journal }
  have hwatch : (t.watch direction handle object row journal).object =
      Watched.after ⟨object, []⟩ as := hobject
  have haccesses : (t.watch direction handle object row journal).object.accesses = as := by
    rw [hwatch]
    rfl
  have hchanged {id : ComponentId}
      (h : (t.synchronize direction handle object row journal).row.value? id ≠ row.value? id) :
      direction ≠ .ecsToHost ∧ ∃ b ∈ t.bindings, b.component = id ∧ b.direction ≠ .ecsToHost :=
    Pass.changed_foldl direction handle t.bindings
      { object := (⟨object, []⟩ : Watched ο), row, report := { entities := 1 }, journal }
      fun heq => h (hrow ▸ heq)
  refine ⟨hwatched, ?_, fun hdirection a ha => ?_, fun hdirection id => ?_,
    t.alike_synchronize direction handle object row journal, fun c v hin => ?_,
    fun id hid => (hchanged hid).2, fun before b after hsplit => ?_,
    fun before b after hsplit hidle => ?_⟩
  · rw [← hwatched, haccesses]
    exact congrArg Watched.object hwatch
  · rw [haccesses] at ha
    cases a with
    | read c => rfl
    | write c v => exact absurd hdirection (hwritten c v ha).1
  · exact Classical.byContradiction fun hne => (hchanged hne).1 hdirection
  · exact (hwritten c v (haccesses ▸ hin)).2
  · unfold watch withBindings synchronize
    dsimp only
    rw [List.foldl_append]
    exact Pass.confined_visit direction handle _ b
  · have hvisit : Pass.visit direction handle
        ((t.withBindings before).watch direction handle object row journal) b =
        (t.withBindings before).watch direction handle object row journal := by
      refine Pass.visit_of_idle ?_ handle
      rw [← unwatched_watch] at hidle
      exact hidle
    unfold watch withBindings synchronize at *
    dsimp only at *
    rw [hsplit, List.foldl_append, List.foldl_append, List.foldl_cons, hvisit]

-- the component wins, but a pass from the host may not say so
example :
    let t : Table := { bindings := [⟨"health", ⟨0⟩, "Health", .bidirectional, .ecsWins⟩] }
    let bag : PropertyBag := ⟨[("health", .int 1)]⟩
    let row : Row := ⟨⟨0, 0⟩, [(⟨0⟩, ⟨.int 5, .int 1⟩)]⟩
    (t.watch .hostToEcs row.handle bag row {}).object.accesses = [.read "health"] ∧
      (t.watch .ecsToHost row.handle bag row {}).object.accesses =
        [.read "health", .write "health" (.int 5)] := by
  decide

end Table

/-! ## Bags of properties -/

namespace PropertyBag

/-- The names of the properties, in order. -/
def names (b : PropertyBag) : List Capability := b.properties.map Prod.fst

theorem names_set {b : PropertyBag} {c : Capability} (h : (b.get? c).isSome = true) (v : Value) :
    (b.set c v).names = b.names := by
  obtain ⟨ps⟩ := b
  unfold names set get? at *
  dsimp only at *
  induction ps with
  | nil => simp [lookup] at h
  | cons p ps ih =>
    obtain ⟨n, w⟩ := p
    by_cases hn : n = c
    · simp [assign, hn]
    · rw [lookup, if_neg hn] at h
      simp [assign, hn, ih h]

/-- No access adds or removes a property. -/
theorem names_after (b : PropertyBag) (a : Access) : (a.after b).names = b.names := by
  cases a with
  | read c =>
    show (HostObject.read b c).2.names = b.names
    simp only [HostObject.read]
    split <;> rfl
  | write c v =>
    show (HostObject.write b c v).2.names = b.names
    simp only [HostObject.write]
    split
    · rename_i hget
      exact names_set (by rw [hget]; rfl) v
    · rfl

theorem names_foldl_after (as : List Access) (b : PropertyBag) :
    (as.foldl Access.after b).names = b.names := by
  induction as generalizing b with
  | nil => rfl
  | cons a as ih => rw [List.foldl_cons, ih, names_after]

end PropertyBag

end Tether
