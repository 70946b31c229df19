import Mathlib.Data.List.Induction
import Tether.Proofs.Dispatches
import Tether.Proofs.Exchanges
import Tether.Proofs.Requests

/-!
# Materialization

A newly bound entity is filled from its host object, binding by binding. Which bindings are tried
can be read off the table and what the object says of each capability (`Binding.tried`) : those
whose capability is exposed, as long as no earlier binding has filled their component. So a
component has the value of the first of its bindings that can be read (`Binding.firstGift?`), and a
binding that could not be read before that is reported, even if a later one fills the component.

This holds of host objects that do not change what they say when they are read (`Steadfast`).
`Table.fills` says so of the row, and `Coordinator.materializes_run` of the entity that
binding gives : its row, its flag, what is announced of it and what is reported.
-/

set_option linter.unusedSectionVars false

namespace Tether

variable {ο σ : Type} [HostObject ο]

/-! ## Host objects that do not change when they are read -/

/-- However often a host object is read, it exposes the same capabilities and says the same of them.
-/
def Steadfast (object : ο) : Prop :=
  ∀ cs : List Capability, ∀ c,
    HostObject.exposes ((cs.map Access.read).foldl Access.after object) c =
        HostObject.exposes object c ∧
      (HostObject.read ((cs.map Access.read).foldl Access.after object) c).1 =
        (HostObject.read object c).1

/-- Reading leaves a bag as it is. -/
theorem PropertyBag.after_reads {as : List Access} (h : ∀ a ∈ as, a.isWrite = false)
    {bag : PropertyBag} : as.foldl Access.after bag = bag := by
  induction as with
  | nil => rfl
  | cons a as ih =>
    have hone : a.after bag = bag := by
      cases a with
      | read c =>
        show (HostObject.read bag c).2 = bag
        simp only [HostObject.read]
        split <;> rfl
      | write c v => cases h _ List.mem_cons_self
    rw [List.foldl_cons, hone]
    exact ih fun x hx => h x (List.mem_cons_of_mem _ hx)

/-- Reading leaves every property as it is. -/
theorem PropertyBag.steadfast (bag : PropertyBag) : Steadfast bag := by
  intro cs c
  have hreads : ∀ a ∈ cs.map Access.read, a.isWrite = false := by
    intro a ha
    obtain ⟨_, -, rfl⟩ := List.mem_map.mp ha
    rfl
  rw [PropertyBag.after_reads hreads]
  exact ⟨rfl, rfl⟩

theorem ScriptedObject.script?_foldl_read (cs : List Capability) (o : ScriptedObject)
    (c : Capability) :
    ((cs.map Access.read).foldl Access.after o).script? c = o.script? c := by
  induction cs generalizing o with
  | nil => rfl
  | cons d cs ih =>
    rw [List.map_cons, List.foldl_cons, ih]
    exact o.script?_read d c

/-- Reading leaves the scripts as they are, even if the object lets go of itself. -/
theorem ScriptedObject.steadfast (o : ScriptedObject) : Steadfast o := by
  intro cs c
  have hscript := script?_foldl_read cs o c
  refine ⟨?_, ?_⟩
  · simp only [HostObject.exposes, hscript]
  · show (ScriptedObject.read _ c).1 = (ScriptedObject.read o c).1
    rw [fst_read, fst_read, hscript]

/-! ## Bindings that are tried -/

namespace Binding

/-- What a host object says of the capability of a binding, if it exposes it. -/
def offer? (object : ο) (b : Binding) : Option (Except AccessError Value) :=
  if HostObject.exposes object b.capability then
    some (HostObject.read object b.capability).1
  else none

/-- The value that a host object gives a binding. -/
def gift? (object : ο) (b : Binding) : Option Value := (b.offer? object).bind Except.toOption

/-- What there is to report of a binding that cannot be read. -/
def refusal? (object : ο) (handle : Handle) (b : Binding) : Option Error :=
  (b.offer? object).bind fun answer =>
    match answer with
    | .ok _ => none
    | .error source => some (.materialization handle b.capability b.componentName source)

/-- The value of the first binding of a component that gets one. -/
def firstGift? (object : ο) (bs : List Binding) (id : ComponentId) : Option Value :=
  bs.findSome? fun b => if b.component = id then b.gift? object else none

/-- Whether a binding is read that stands behind others : its capability is exposed, and none of the
others gets a value for its component. -/
def isTried (object : ο) (before : List Binding) (b : Binding) : Bool :=
  HostObject.exposes object b.capability &&
    before.all fun a => a.component ≠ b.component || (a.gift? object).isNone

/-- The bindings that are read, in order. -/
def tried (object : ο) : List Binding → List Binding → List Binding
  | _, [] => []
  | before, b :: bs =>
    if b.isTried object before then b :: tried object (before ++ [b]) bs
    else tried object (before ++ [b]) bs

/-- The components that are filled, in order, with their values. -/
def fillings (object : ο) (bs : List Binding) : List (ComponentId × Value) :=
  (tried object [] bs).filterMap fun b => (b.gift? object).map fun v => (b.component, v)

/-- What a bag of properties gives a binding is the property. -/
theorem gift?_propertyBag (bag : PropertyBag) (b : Binding) :
    b.gift? bag = bag.get? b.capability := by
  cases hget : bag.get? b.capability <;>
    simp [gift?, offer?, HostObject.exposes, HostObject.read, hget, Except.toOption]

variable (object : ο)

theorem tried_concat (before bs : List Binding) (b : Binding) :
    tried object before (bs ++ [b]) =
      tried object before bs ++ if b.isTried object (before ++ bs) then [b] else [] := by
  induction bs generalizing before with
  | nil => simp [tried]
  | cons a bs ih =>
    rw [List.cons_append, tried, tried, ih, List.append_assoc, List.singleton_append]
    split <;> rfl

theorem firstGift?_concat (bs : List Binding) (b : Binding) (id : ComponentId) :
    firstGift? object (bs ++ [b]) id =
      (firstGift? object bs id).or (if b.component = id then b.gift? object else none) := by
  rw [firstGift?, List.findSome?_append, firstGift?, List.findSome?_singleton]

/-- A binding is tried if its capability is exposed and its component is not filled. -/
theorem isTried_eq (before : List Binding) (b : Binding) :
    b.isTried object before =
      (HostObject.exposes object b.capability &&
        (firstGift? object before b.component).isNone) := by
  rw [isTried, firstGift?]
  congr 1
  rw [Bool.eq_iff_iff, List.all_eq_true, Option.isNone_iff_eq_none, List.findSome?_eq_none_iff]
  refine forall_congr' fun a => forall_congr' fun _ => ?_
  by_cases ha : a.component = b.component <;> simp [ha]

theorem isTried_iff {before : List Binding} {b : Binding} :
    b.isTried object before = true ↔
      HostObject.exposes object b.capability = true ∧
        firstGift? object before b.component = none := by
  rw [isTried_eq, Bool.and_eq_true, Option.isNone_iff_eq_none]

/-- A binding that is tried is offered what is read. -/
theorem offer?_of_isTried {before : List Binding} {b : Binding}
    (h : b.isTried object before = true) :
    b.offer? object = some (HostObject.read object b.capability).1 :=
  if_pos ((isTried_iff object).mp h).1

/-- A binding that is not tried changes no first value. -/
theorem firstGift?_concat_of_not_tried {before : List Binding} {b : Binding}
    (h : b.isTried object before = false) (id : ComponentId) :
    firstGift? object (before ++ [b]) id = firstGift? object before id := by
  rw [firstGift?_concat]
  split
  · rename_i hid
    rw [isTried_eq, Bool.and_eq_false_iff] at h
    rcases h with hexposes | hfilled
    · simp [gift?, offer?, hexposes]
    · rw [hid] at hfilled
      obtain ⟨v, hv⟩ := Option.isSome_iff_exists.mp (Option.isNone_eq_false_iff.mp hfilled)
      rw [hv, Option.some_or]
  · exact Option.or_none

/-- A component is filled exactly if a binding of it gets a value. -/
theorem isSome_firstGift?_iff (bs : List Binding) (id : ComponentId) :
    (firstGift? object bs id).isSome = true ↔
      ∃ b ∈ bs, b.component = id ∧ ∃ v, b.gift? object = some v := by
  rw [firstGift?, List.findSome?_isSome_iff]
  refine exists_congr fun b => and_congr_right fun _ => ?_
  by_cases hb : b.component = id <;> simp [hb, Option.isSome_iff_exists]

theorem fillings_concat (bs : List Binding) (b : Binding) :
    fillings object (bs ++ [b]) = fillings object bs ++
      if b.isTried object bs then ((b.gift? object).map fun v => (b.component, v)).toList
      else [] := by
  rw [fillings, tried_concat, List.filterMap_append, List.nil_append]
  congr 1
  split
  · cases hgift : b.gift? object <;> simp [hgift]
  · rfl

theorem isTried_of_gift? {before : List Binding} {b : Binding} {v : Value}
    (hfirst : firstGift? object before b.component = none) (hgift : b.gift? object = some v) :
    b.isTried object before = true := by
  refine (isTried_iff object).mpr ⟨?_, hfirst⟩
  cases hexposes : HostObject.exposes object b.capability with
  | true => rfl
  | false => simp [gift?, offer?, hexposes] at hgift

/-- A component is filled with the value of the first of its bindings that gets one, and with no
other value. -/
theorem mem_fillings_iff {bs : List Binding} {x : ComponentId × Value} :
    x ∈ fillings object bs ↔ firstGift? object bs x.1 = some x.2 := by
  induction bs using List.reverseRecOn with
  | nil => simp [fillings, tried, firstGift?]
  | append_singleton bs b ih =>
    rw [fillings_concat, List.mem_append, firstGift?_concat, Option.or_eq_some_iff, ← ih]
    refine or_congr_right ?_
    constructor
    · intro h
      split at h
      · rename_i htried
        cases hgift : b.gift? object with
        | none => simp [hgift] at h
        | some v =>
          obtain rfl : x = (b.component, v) := by simpa [hgift] using h
          exact ⟨((isTried_iff object).mp htried).2, if_pos rfl⟩
      · cases h
    · rintro ⟨hfirst, hgift⟩
      split at hgift
      · rename_i hid
        rw [← hid] at hfirst
        rw [if_pos (isTried_of_gift? object hfirst hgift), hgift, hid]
        exact List.mem_singleton_self _
      · cases hgift

end Binding

/-! ## Filling a row -/

namespace Materialized

/-- The same filling of the object itself. -/
def unwatched (m : Materialized (Watched ο)) : Materialized ο :=
  { m with object := m.object.object }

theorem unwatched_visit (handle : Handle) (m : Materialized (Watched ο)) (b : Binding) :
    (m.visit handle b).unwatched = m.unwatched.visit handle b := by
  unfold visit
  rw [show HostObject.exposes m.unwatched.object b.capability =
      HostObject.exposes m.object b.capability from rfl,
    show m.unwatched.row = m.row from rfl]
  split
  · rfl
  · have hread : HostObject.read m.object b.capability =
        ((HostObject.read m.unwatched.object b.capability).1,
          m.object.after [.read b.capability]) := rfl
    have hafter : (m.object.after [.read b.capability]).object =
        (HostObject.read m.unwatched.object b.capability).2 := rfl
    rw [hread]
    generalize m.object.after [.read b.capability] = w at hafter ⊢
    generalize HostObject.read m.unwatched.object b.capability = x at hafter ⊢
    obtain ⟨answer, object⟩ := x
    dsimp only at hafter
    subst hafter
    cases answer <;> rfl

theorem unwatched_foldl (handle : Handle) (bs : List Binding) (m : Materialized (Watched ο)) :
    (bs.foldl (visit handle) m).unwatched = bs.foldl (visit handle) m.unwatched := by
  induction bs generalizing m with
  | nil => rfl
  | cons b bs ih => rw [List.foldl_cons, ih, unwatched_visit, List.foldl_cons]

/-- How far a row is filled from the bindings `before`, and what that asked of the object. -/
structure Reached (object : ο) (handle : Handle) (before : List Binding)
    (m : Materialized (Watched ο)) : Prop where
  accesses : m.object =
    Watched.after ⟨object, []⟩
      (((Binding.tried object [] before).map Binding.capability).map Access.read)
  cell : ∀ id, m.row.cell? id = (Binding.firstGift? object before id).map Cell.agreed
  components : m.components = (Binding.fillings object before).map Prod.fst
  failures : m.failures =
    (Binding.tried object [] before).filterMap (Binding.refusal? object handle)

section Reached

variable {object : ο} {handle : Handle} {before : List Binding} {m : Materialized (Watched ο)}
  {b : Binding}

/-- A binding that is not tried changes nothing. -/
theorem Reached.skip (h : m.Reached object handle before)
    (htried : b.isTried object before = false) : m.Reached object handle (before ++ [b]) := by
  refine ⟨?_, fun id => ?_, ?_, ?_⟩
  · simpa [Binding.tried_concat, htried] using h.accesses
  · rw [h.cell, Binding.firstGift?_concat_of_not_tried object htried]
  · simpa [Binding.fillings_concat, htried] using h.components
  · simpa [Binding.tried_concat, htried] using h.failures

/-- A binding that is tried is read, and fills its component or is reported. -/
theorem Reached.ask (h : m.Reached object handle before) (htried : b.isTried object before = true)
    (hread : (HostObject.read m.object b.capability).1 =
      (HostObject.read object b.capability).1)
    (hskip : (!HostObject.exposes m.object b.capability || m.row.contains b.component) = false) :
    (m.visit handle b).Reached object handle (before ++ [b]) := by
  have haccesses : m.object.after [.read b.capability] = Watched.after ⟨object, []⟩
      (((Binding.tried object [] (before ++ [b])).map Binding.capability).map Access.read) := by
    rw [h.accesses, ← Watched.after_append, Binding.tried_concat, List.nil_append, if_pos htried]
    simp
  have hoffer := Binding.offer?_of_isTried object htried
  have hfirst := ((Binding.isTried_iff object).mp htried).2
  unfold Materialized.visit
  rw [hskip, if_neg Bool.false_ne_true, show HostObject.read m.object b.capability =
    ((HostObject.read object b.capability).1, m.object.after [.read b.capability]) from
      Prod.ext hread rfl]
  cases hanswer : (HostObject.read object b.capability).1 with
  | ok v =>
    rw [hanswer] at hoffer
    have hgift : b.gift? object = some v := by rw [Binding.gift?, hoffer]; rfl
    have hrefusal : b.refusal? object handle = none := by rw [Binding.refusal?, hoffer]; rfl
    refine ⟨haccesses, fun id => ?_, ?_, ?_⟩
    · rw [Row.cell?_insert, Binding.firstGift?_concat, h.cell]
      by_cases hid : id = b.component
      · rw [if_pos hid, if_pos hid.symm, hid, hfirst, hgift]
        rfl
      · rw [if_neg hid, if_neg (Ne.symm hid), Option.or_none]
    · simp [h.components, Binding.fillings_concat, htried, hgift]
    · simp [h.failures, Binding.tried_concat, htried, hrefusal]
  | error source =>
    rw [hanswer] at hoffer
    have hgift : b.gift? object = none := by rw [Binding.gift?, hoffer]; rfl
    have hrefusal : b.refusal? object handle =
        some (.materialization handle b.capability b.componentName source) := by
      rw [Binding.refusal?, hoffer]
      rfl
    refine ⟨haccesses, fun id => ?_, ?_, ?_⟩
    · rw [Binding.firstGift?_concat, h.cell, hgift, ite_self, Option.or_none]
    · simp [h.components, Binding.fillings_concat, htried, hgift]
    · simp [h.failures, Binding.tried_concat, htried, hrefusal]

theorem Reached.visit (h : m.Reached object handle before) (hs : Steadfast object) (b : Binding) :
    (m.visit handle b).Reached object handle (before ++ [b]) := by
  have hobject := congrArg Watched.object h.accesses
  -- some capabilities have been read by now, but that is nothing to a steadfast object
  have hexposes : HostObject.exposes m.object b.capability =
      HostObject.exposes object b.capability := by
    show HostObject.exposes m.object.object b.capability = _
    rw [hobject]
    exact (hs _ b.capability).1
  have hread : (HostObject.read m.object b.capability).1 =
      (HostObject.read object b.capability).1 := by
    show (HostObject.read m.object.object b.capability).1 = _
    rw [hobject]
    exact (hs _ b.capability).2
  have hskip : (!HostObject.exposes m.object b.capability || m.row.contains b.component) =
      !b.isTried object before := by
    rw [Binding.isTried_eq, hexposes, Row.contains, h.cell, Option.isSome_map, Bool.not_and,
      Option.not_isNone]
  cases htried : b.isTried object before with
  | true => exact h.ask htried hread (by rw [hskip, htried]; rfl)
  | false =>
    rw [Materialized.visit, hskip, htried, if_pos (by rfl)]
    exact h.skip htried

theorem Reached.foldl (h : m.Reached object handle before) (hs : Steadfast object)
    (bs : List Binding) : (bs.foldl (Materialized.visit handle) m).Reached object handle
      (before ++ bs) := by
  induction bs generalizing before m with
  | nil => rwa [List.append_nil]
  | cons b bs ih =>
    rw [List.foldl_cons, List.append_cons]
    exact ih (h.visit hs b)

end Reached

end Materialized

namespace Table

variable (t : Table) (handle : Handle) (object : ο)

/-- The filling of a new row from a host object that is watched from the start. -/
def watchFilling : Materialized (Watched ο) :=
  t.materialize handle (⟨object, []⟩ : Watched ο) { handle }

/-- What filling a new row from a host object comes to. -/
structure Fills (m : Materialized ο) : Prop where
  /-- The filling is the one that is watched, and reads the bindings that are tried and no other. -/
  watched : (t.watchFilling handle object).unwatched = m
  asks : (t.watchFilling handle object).object.accesses =
    (Binding.tried object [] t.bindings).map fun b => .read b.capability
  /-- A component is there if a binding of it gets a value, and the first value is also the base. -/
  contains : ∀ id, m.row.contains id = true ↔
    ∃ b ∈ t.bindings, b.component = id ∧ ∃ v, b.gift? object = some v
  cell : ∀ id, m.row.cell? id = (Binding.firstGift? object t.bindings id).map Cell.agreed
  /-- The components that are there are listed in the order in which they were filled, each once. -/
  components : m.components = (Binding.fillings object t.bindings).map Prod.fst
  listed : ∀ id, id ∈ m.components ↔ m.row.contains id = true
  distinct : m.components.Nodup
  failures : m.failures =
    (Binding.tried object [] t.bindings).filterMap (Binding.refusal? object handle)

variable {object}

theorem fills (hs : Steadfast object) :
    t.Fills handle object (t.materialize handle object { handle }) := by
  have hreached : (t.watchFilling handle object).Reached object handle t.bindings :=
    (show Materialized.Reached object handle [] { object := ⟨object, []⟩, row := { handle } } from
      ⟨rfl, fun _ => rfl, rfl, rfl⟩).foldl hs t.bindings
  have hwatched : (t.watchFilling handle object).unwatched =
      t.materialize handle object { handle } := Materialized.unwatched_foldl handle t.bindings _
  rw [← hwatched]
  refine ⟨rfl, ?_, fun id => ?_, hreached.cell, hreached.components, fun id => ?_, ?_,
    hreached.failures⟩
  · rw [hreached.accesses, List.map_map]
    rfl
  · rw [← Binding.isSome_firstGift?_iff, Row.contains]
    show ((t.watchFilling handle object).row.cell? id).isSome = true ↔ _
    rw [hreached.cell, Option.isSome_map]
  · show id ∈ (t.watchFilling handle object).components ↔
      ((t.watchFilling handle object).row.cell? id).isSome = true
    rw [hreached.components, hreached.cell, Option.isSome_map, Option.isSome_iff_exists]
    simp [Binding.mem_fillings_iff]
  · rw [hwatched]
    obtain ⟨cells, hfilled⟩ := t.filled_materialize handle object
    rw [hfilled.components]
    exact hfilled.distinct

end Table

/-! ## Binding a host object -/

namespace Coordinator

variable (c : Coordinator ο σ) (host : HostRef)

theorem incidents_foldl_reportMaterialization (failures : List Error) (c : Coordinator ο σ) :
    (failures.foldl reportMaterialization c).incidents.map Array.toList =
      c.incidents.map fun is => is.toList ++ failures.map Incident.materialization := by
  induction failures generalizing c with
  | nil => simp
  | cons failure failures ih =>
    rw [List.foldl_cons, ih]
    simp [reportMaterialization, report, note, Option.map_map, Function.comp_def]

/-- Each failure is sent to whoever listens. -/
theorem incidents_complete (registry : Registry) (h : Handle) (components : List ComponentId)
    (failures : List Error) :
    (c.complete registry h host components failures).incidents.map Array.toList =
      c.incidents.map fun is => is.toList ++ failures.map Incident.materialization := by
  unfold complete
  dsimp only
  generalize hreported : failures.foldl reportMaterialization _ = d
  obtain ⟨o, ss, hannounced, -⟩ :=
    foldl_announceComponent h components (d.announce (.entityCreated h host.id))
  rw [hannounced]
  show d.incidents.map Array.toList = _
  rw [← hreported]
  exact incidents_foldl_reportMaterialization failures _

/-- What binding a host object that has no entity comes to, with the state `d` in which the entity
is complete. -/
structure Materializes (object : ο) (h : Handle) (d : Coordinator ο σ) : Prop where
  fills : c.table.Fills h object (c.table.materialize h object { handle := h })
  /-- The entity has the host object and the row that was filled from it. -/
  resolve? : d.registry.resolve? h = some host
  row? : d.world.row? h = some (c.table.materialize h object { handle := h }).row
  /-- It is flagged exactly if something could not be read. -/
  degraded : d.registry.isDegraded h = true ↔
    (c.table.materialize h object { handle := h }).failures ≠ []
  /-- It is announced, then each component that was filled, with its value. -/
  outbox : d.outbox.toList = c.outbox.toList ++ .entityCreated h host.id ::
    (Binding.fillings object c.table.bindings).map fun x => .componentAdded h x.1 x.2
  incidents : d.incidents.map Array.toList = c.incidents.map fun is => is.toList ++
    (c.table.materialize h object { handle := h }).failures.map Incident.materialization
  hosts : d.hosts = c.hosts.putBack host (c.table.materialize h object { handle := h }).object
  /-- If the host object is still there, this is what binding ends with. -/
  bound : d.hosts.alive host = true → c.bind host = (.ok h, d)
  /-- If reading made it go, the entity is torn down again. -/
  lost : d.hosts.alive host = false → ∃ e, c.bind host = (.ok h, e) ∧
    e.registry.resolve? h = none ∧ e.world.row? h = none ∧ e.incidents = d.incidents ∧
    e.outbox.toList = d.outbox.toList ++ [.entityDestroying h host.id
      (c.table.materialize h object { handle := h }).row.snapshot]

section Attached

variable {c host} {object : ο}

theorem resolve?_attached :
    (c.attached host object).registry.resolve? c.registry.allocator.alloc.1 = some host := by
  obtain ⟨fine, hr⟩ := c.registry_attached host object
  refine Registry.resolve?_eq_some_iff.mpr
    ⟨⟨c.registry.allocator.alloc.1, host, .bound, !fine⟩, ?_, rfl⟩
  rw [hr, Registry.bound_eq_ok_iff, Registry.find?_eq_some_iff, Registry.get?_entries_flagged]
  exact ⟨⟨if_pos rfl, rfl⟩, rfl⟩

variable (hp : c.population.Consistent)
  (hcap : c.registry.allocator.alloc.2.capacity ≤ 2 ^ 32)

include hp hcap

/-- A new entity is completed with what its row was filled with. -/
theorem attached_eq :
    let m := c.table.materialize c.registry.allocator.alloc.1 object
      { handle := c.registry.allocator.alloc.1 }
    c.attached host object =
      complete ({ c.opening host with world := (c.opening host).world.store m.row }.setHosts
        (c.hosts.putBack host m.object)) (c.registry.settled host)
        c.registry.allocator.alloc.1 host m.components m.failures := by
  intro m
  simp only [attached, fill_opening (slot_free hp hcap).2 object rfl]
  rfl

/-- The row of a new entity is filled from its host object. -/
theorem row?_attached :
    (c.attached host object).world.row? c.registry.allocator.alloc.1 =
      some (c.table.materialize c.registry.allocator.alloc.1 object
        { handle := c.registry.allocator.alloc.1 }).row := by
  obtain ⟨_, hfilled⟩ := c.table.filled_materialize c.registry.allocator.alloc.1 object
  rw [attached_eq hp hcap, world_complete, World.row?_eq_some_iff]
  exact ⟨(get?_rows_filled (slot_free hp hcap).2 hfilled.handle _).trans (if_pos rfl),
    hfilled.handle⟩

theorem hosts_attached : (c.attached host object).hosts = c.hosts.putBack host
    (c.table.materialize c.registry.allocator.alloc.1 object
      { handle := c.registry.allocator.alloc.1 }).object := by
  rw [attached_eq hp hcap, hosts_complete]
  rfl

theorem isDegraded_attached :
    (c.attached host object).registry.isDegraded c.registry.allocator.alloc.1 = true ↔
      (c.table.materialize c.registry.allocator.alloc.1 object
        { handle := c.registry.allocator.alloc.1 }).failures ≠ [] := by
  generalize hm : c.table.materialize c.registry.allocator.alloc.1 object
    { handle := c.registry.allocator.alloc.1 } = m
  have hregistry : (c.attached host object).registry =
      c.registry.flagged host m.failures.isEmpty := by
    rw [attached_eq hp hcap, registry_complete, hm]
    rfl
  have hfind : (c.registry.flagged host m.failures.isEmpty).find? c.registry.allocator.alloc.1 =
      some ⟨c.registry.allocator.alloc.1, host, .bound, !m.failures.isEmpty⟩ := by
    rw [Registry.find?_eq_some_iff, Registry.get?_entries_flagged]
    exact ⟨if_pos rfl, rfl⟩
  rw [hregistry, Registry.isDegraded_eq, hfind]
  simp

theorem incidents_attached :
    (c.attached host object).incidents.map Array.toList = c.incidents.map fun is => is.toList ++
      (c.table.materialize c.registry.allocator.alloc.1 object
        { handle := c.registry.allocator.alloc.1 }).failures.map Incident.materialization := by
  rw [attached_eq hp hcap, incidents_complete]
  rfl

theorem outbox_attached_of_steadfast (hs : Steadfast object) :
    (c.attached host object).outbox.toList = c.outbox.toList ++
      .entityCreated c.registry.allocator.alloc.1 host.id ::
        (Binding.fillings object c.table.bindings).map fun x =>
          .componentAdded c.registry.allocator.alloc.1 x.1 x.2 := by
  have hfills := c.table.fills c.registry.allocator.alloc.1 hs
  have hrow : (c.attached host object).world.row? c.registry.allocator.alloc.1 = _ :=
    row?_attached hp hcap
  rw [attached_eq hp hcap, world_complete] at hrow
  rw [attached_eq hp hcap, hfills.components]
  refine outbox_complete _ _ _ _ _ _ fun x hx => ?_
  rw [World.value?, hrow, Option.bind_some, Row.value?, hfills.cell,
    (Binding.mem_fillings_iff object).mp hx]
  rfl

end Attached

/-- If reading made the host object go, the entity that was just completed is torn down. -/
theorem clears_lost {c : Coordinator ο σ} {host : HostRef} {object : ο}
    (hp : c.population.Consistent) (hcap : c.registry.allocator.alloc.2.capacity ≤ 2 ^ 32)
    (ho : c.hosts.find? host = some object) (hfresh : c.registry.handleOf? host.id = none)
    (hgone : (c.attached host object).hosts.alive host = false) :
    ∃ e, c.bind host = (.ok c.registry.allocator.alloc.1, e) ∧
      (c.attached host object).Clears [c.registry.allocator.alloc.1] e := by
  have hcap' : (c.attached host object).population.capacity ≤ 2 ^ 32 := by
    rwa [capacity_attached]
  obtain ⟨cells, row, degraded, hchange, -⟩ := attached_change object hp hfresh hcap'
  have hbound : (c.attached host object).registry.isBound c.registry.allocator.alloc.1 = true := by
    obtain ⟨e, he⟩ := c.bound_attached host object
    rw [Registry.isBound, he]
    rfl
  have hnoted : ((c.attached host object).note
      (.droppedWhileBinding host.id c.registry.allocator.alloc.1)).population.Consistent :=
    hchange.consistent hp hcap'
  obtain ⟨hok, hclears⟩ := clears_unbind hnoted hbound
  simp only [bind, attach_of_fresh ho hfresh, hgone, Bool.false_eq_true, ↓reduceIte]
  generalize unbind _ _ = x at hok hclears
  obtain ⟨answer, e⟩ := x
  obtain rfl : answer = .ok () := hok
  exact ⟨e, rfl, ⟨hclears.sweeps.consistent, hclears.sweeps.found, hclears.sweeps.size,
    hclears.sweeps.capacity, hclears.sweeps.hosts, hclears.sweeps.outbox⟩, hclears.rows,
    hclears.farewells, hclears.incidents⟩

theorem materializes_attached {c : Coordinator ο σ} {host : HostRef} {object : ο}
    (hp : c.population.Consistent) (hcap : c.registry.allocator.alloc.2.capacity ≤ 2 ^ 32)
    (ho : c.hosts.find? host = some object) (hs : Steadfast object)
    (hfresh : c.registry.handleOf? host.id = none) :
    c.Materializes host object c.registry.allocator.alloc.1 (c.attached host object) := by
  refine ⟨c.table.fills _ hs, resolve?_attached, row?_attached hp hcap,
    isDegraded_attached hp hcap, outbox_attached_of_steadfast hp hcap hs,
    incidents_attached hp hcap, hosts_attached hp hcap, fun halive => ?_, fun hgone => ?_⟩
  · simp only [bind, attach_of_fresh ho hfresh, halive, ↓reduceIte]
  · obtain ⟨e, hbind, hclears⟩ := clears_lost hp hcap ho hfresh hgone
    obtain ⟨ss, hout, hss⟩ := hclears.farewells
    obtain ⟨s, _, ⟨host', row, hresolve, hrow, rfl⟩, hnil, rfl⟩ := List.forall₂_cons_left_iff.mp hss
    cases hnil
    obtain rfl := Option.some.inj (resolve?_attached.symm.trans hresolve)
    obtain rfl := Option.some.inj ((row?_attached hp hcap).symm.trans hrow)
    refine ⟨e, hbind, ?_, (hclears.rows _).trans (if_pos List.mem_cons_self), hclears.incidents,
      hout⟩
    rw [resolve?_eq hclears.sweeps.consistent, hclears.sweeps.found, if_pos List.mem_cons_self]
    rfl

/-- A host object that is there, has no entity and says the same however often it is read gets an
entity that is filled as `Table.Fills` says, under the handle that is next. -/
theorem materializes_run (table : Table) (settings : Settings) (surroundings : Surroundings ο σ)
    (journal : Journal) (as : List (Action ο σ)) {host : HostRef} {object : ο} :
    let c := (withTable table settings surroundings journal).run as
    c.registry.allocator.alloc.2.capacity ≤ 2 ^ 32 → c.hosts.find? host = some object →
      Steadfast object → c.registry.handleOf? host.id = none →
        ∃ d, c.Materializes host object c.registry.allocator.alloc.1 d := by
  intro c hcap ho hs hfresh
  exact ⟨_, materializes_attached (consistent_run table settings surroundings journal as
    (Nat.le_trans (Allocator.capacity_le_alloc _) hcap)) hcap ho hs hfresh⟩

/-- A coordinator with one host object, and two capabilities that feed one component. -/
def shielded (object : ScriptedObject) (owned : Bool) : Coordinator ScriptedObject Unit :=
  withTable
    ((({} : Table).register ⟨"shield", "Health", .hostToEcs, .hostWins⟩).2.register
      ⟨"health", "Health", .hostToEcs, .hostWins⟩).2
    {} ⟨(({} : Hosts ScriptedObject).create ⟨7⟩ object owned).2, ()⟩ {}

/-- The first binding cannot be read and the second one can : the component is there, and the entity
is flagged. -/
theorem materializes_run_shielded :
    let object : ScriptedObject := { scripts := [
      ("shield", { value := .int 0, read := some (.rejected "down") }),
      ("health", { value := .int 3 })] }
    let c := shielded object true
    c.registry.allocator.alloc.2.capacity ≤ 2 ^ 32 ∧
      c.hosts.find? ⟨⟨7⟩, 0⟩ = some object ∧ Steadfast object ∧
      c.registry.handleOf? ⟨7⟩ = none ∧
      ∃ d, c.bind ⟨⟨7⟩, 0⟩ = (.ok ⟨0, 0⟩, d) ∧
        d.world.row? ⟨0, 0⟩ = some ⟨⟨0, 0⟩, [(⟨0⟩, Cell.agreed (.int 3))]⟩ ∧
        d.registry.isDegraded ⟨0, 0⟩ = true ∧
        d.outbox.toList = [.entityCreated ⟨0, 0⟩ ⟨7⟩, .componentAdded ⟨0, 0⟩ ⟨0⟩ (.int 3)] := by
  intro object c
  have hcap : c.registry.allocator.alloc.2.capacity ≤ 2 ^ 32 := by decide
  have hfind : c.hosts.find? ⟨⟨7⟩, 0⟩ = some object := rfl
  have hfresh : c.registry.handleOf? ⟨7⟩ = none := by decide
  obtain ⟨d, hd⟩ := @materializes_run _ _ _ c.table {} ⟨c.hosts, ()⟩ {} [] ⟨⟨7⟩, 0⟩ object hcap
    hfind object.steadfast hfresh
  have halive : d.hosts.alive ⟨⟨7⟩, 0⟩ = true := by
    rw [hd.hosts]
    decide
  exact ⟨hcap, hfind, object.steadfast, hfresh, d, hd.bound halive, hd.row?.trans (by decide),
    hd.degraded.mpr (by decide), hd.outbox.trans (by decide)⟩

/-- An object that lets go of itself when it is read : the component was filled and announced, and
once binding is done there is neither an entity nor a row. -/
theorem shielded_lost :
    let object : ScriptedObject :=
      { scripts := [("health", { value := .int 3 })], hold := some { lastRead := 1 } }
    let c := shielded object false
    let d := (c.bind ⟨⟨7⟩, 0⟩).2
    c.hosts.find? ⟨⟨7⟩, 0⟩ = some object ∧ Steadfast object ∧
      c.registry.handleOf? ⟨7⟩ = none ∧ (c.bind ⟨⟨7⟩, 0⟩).1.toOption = some ⟨0, 0⟩ ∧
      Binding.firstGift? object c.table.bindings ⟨0⟩ = some (.int 3) ∧
      d.registry.isBound ⟨0, 0⟩ = false ∧ d.world.row? ⟨0, 0⟩ = none ∧
      d.outbox.toList = [.entityCreated ⟨0, 0⟩ ⟨7⟩, .componentAdded ⟨0, 0⟩ ⟨0⟩ (.int 3),
        .entityDestroying ⟨0, 0⟩ ⟨7⟩ [(⟨0⟩, .int 3)]] := by
  intro object c d
  exact ⟨by decide, object.steadfast, by decide, by decide, by decide, by decide, by decide,
    by decide⟩

end Coordinator

end Tether
