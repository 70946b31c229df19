import Tether.Proofs.Exchanges

/-!
# Refused accesses

A host object may refuse to be read or to be written. A pass reports the refusal and goes on. The
base of the component stays, so a later pass merges from the same base
(`Binding.synced_leftover`). The value of the component stays as well, but for one case : where a
policy asks for a value that neither side has, in a pass and at a binding that flow both ways, the
component gets it before the host object is asked, and keeps it when the host object refuses
(`Binding.leftover`).

What a refusal does not do is reach other bindings. Where each has a component of its own, it is
visited with the cell that was there before the pass. And next to a host object that answers
otherwise to one capability, and to everything else alike (`AlikeBut`), the two passes ask for the
same things, report the same and leave the same, the binding of that capability apart
(`Pass.Beside.foldl`). `Table.isolates_synchronize` puts this together.
-/

namespace Tether

/-! ## One refusal -/

namespace Binding

/-- What is left of a cell when an access is refused. A target that neither side has is in the
component by the time the host object refuses it. -/
def leftover (b : Binding) (flow : Direction) (cell : Cell) (answer : Except AccessError Value) :
    Cell :=
  match answer with
  | .error _ => cell
  | .ok x =>
    if flow = .bidirectional ∧ cell.value.agrees (Pass.target b x cell) = false then
      { cell with value := Pass.target b x cell }
    else cell

/-- Whatever is left, the base is. -/
theorem synced_leftover (b : Binding) (flow : Direction) (cell : Cell)
    (answer : Except AccessError Value) : (b.leftover flow cell answer).synced = cell.synced := by
  unfold leftover
  split
  · rfl
  · split <;> rfl

/-- An exchange in which an access is refused has that one failure. -/
theorem exchange_of_refused {b : Binding} {handle : Handle} {flow : Direction} {cell : Cell}
    {answer : Except AccessError Value} {accept : Value → Except AccessError Unit}
    (h : (b.exchange handle flow cell answer accept).report.failures ≠ []) :
    (∃ source, (b.exchange handle flow cell answer accept).report.failures =
        [.synchronization handle b.capability source]) ∧
      (b.exchange handle flow cell answer accept).cell = b.leftover flow cell answer := by
  unfold exchange leftover at *
  cases answer with
  | error source => exact ⟨⟨source, rfl⟩, rfl⟩
  | ok x =>
    dsimp only at h ⊢
    split at h
    · exact absurd rfl h
    · rename_i hdiffers
      rw [if_neg hdiffers]
      generalize Pass.target b x cell = t at h ⊢
      -- only what is sent is refused, and it is sent where the flow lets it
      cases hsends : !x.agrees t && flow.writesHost with
      | false => simp [hsends] at h
      | true =>
        obtain ⟨hhost, hwrites⟩ : x.agrees t = false ∧ flow.writesHost = true := by
          simpa using hsends
        cases hrefusal : AccessError.of? (accept t) with
        | none => simp [hsends, hrefusal] at h
        | some source =>
          simp only [↓reduceIte, hhost, Option.isNone_some, Bool.and_false, Bool.or_false,
            Bool.false_eq_true, Option.map_some, Option.toList_some]
          refine ⟨⟨source, rfl⟩, ?_⟩
          unfold Value.brought
          cases flow with
          | hostToEcs => simp [Direction.writesHost] at hwrites
          | ecsToHost => simp [Direction.readsHost]
          | bidirectional => cases cell.value.agrees t <;> simp [Direction.readsHost]

end Binding

/-! ## Host objects that answer alike -/

variable {ο ο' : Type} [HostObject ο] [HostObject ο']

/-- Related host objects answer alike to whatever does not concern a capability, and stay related
whatever is asked of that capability. -/
structure AlikeBut (c : Capability) (R : ο → ο' → Prop) : Prop where
  exposes : ∀ {o o'}, R o o' → ∀ {d}, d ≠ c → HostObject.exposes o d = HostObject.exposes o' d
  read : ∀ {o o'}, R o o' → ∀ {d}, d ≠ c →
    (HostObject.read o d).1 = (HostObject.read o' d).1 ∧
      R (HostObject.read o d).2 (HostObject.read o' d).2
  write : ∀ {o o'}, R o o' → ∀ {d}, d ≠ c → ∀ v,
    (HostObject.write o d v).1 = (HostObject.write o' d v).1 ∧
      R (HostObject.write o d v).2 (HostObject.write o' d v).2
  left : ∀ {o o'}, R o o' → ∀ {a : Access}, a.capability = c → R (a.after o) o'
  right : ∀ {o o'}, R o o' → ∀ {a : Access}, a.capability = c → R o (a.after o')

namespace AlikeBut

variable {c : Capability} {R : ο → ο' → Prop} (h : AlikeBut c R) {as bs : List Access} {o : ο}
  {o' : ο'}
include h

/-- The same accesses on both sides, none of them to the capability. -/
theorem after (hR : R o o') (has : ∀ a ∈ as, a.capability ≠ c) :
    R (as.foldl Access.after o) (as.foldl Access.after o') := by
  induction as generalizing o o' with
  | nil => exact hR
  | cons a as ih =>
    refine ih ?_ fun x hx => has x (List.mem_cons_of_mem _ hx)
    have hne := has a List.mem_cons_self
    cases a with
    | read d => exact (h.read hR hne).2
    | write d v => exact (h.write hR hne v).2

/-- Any accesses to the capability on either side. -/
theorem after_apart (hR : R o o') (has : ∀ a ∈ as, a.capability = c)
    (hbs : ∀ a ∈ bs, a.capability = c) :
    R (as.foldl Access.after o) (bs.foldl Access.after o') := by
  have hleft : R (as.foldl Access.after o) o' := by
    clear hbs
    induction as generalizing o with
    | nil => exact hR
    | cons a as ih =>
      exact ih (h.left hR (has a List.mem_cons_self)) fun x hx =>
        has x (List.mem_cons_of_mem _ hx)
  clear hR has
  generalize as.foldl Access.after o = p at hleft
  induction bs generalizing o' with
  | nil => exact hleft
  | cons a bs ih =>
    exact ih (fun x hx => hbs x (List.mem_cons_of_mem _ hx))
      (h.right hleft (hbs a List.mem_cons_self))

end AlikeBut

/-- What is asked of one capability leaves the scripts of others alone. -/
theorem ScriptedObject.script?_after (o : ScriptedObject) {a : Access} {d : Capability}
    (hd : d ≠ a.capability) : (a.after o).script? d = o.script? d := by
  cases a with
  | read e => exact o.script?_read e d
  | write e v => exact script?_write hd v

/-- Scripts that are the same but for one capability. -/
theorem ScriptedObject.alikeBut (c : Capability) :
    AlikeBut c fun o o' : ScriptedObject => ∀ d, d ≠ c → o.script? d = o'.script? d where
  exposes h d hd := by simp only [HostObject.exposes, h d hd]
  read {o o'} h d hd := by
    refine ⟨?_, fun e he => ?_⟩
    · have hcounted : ScriptedObject.script? { o with hold := o.hold.map SelfHold.afterRead } d =
          ScriptedObject.script? { o' with hold := o'.hold.map SelfHold.afterRead } d := h d hd
      simp only [HostObject.read, ScriptedObject.read, hcounted]
      split
      · rfl
      · split <;> rfl
    · show (o.read d).2.script? e = (o'.read d).2.script? e
      rw [script?_read, script?_read, h e he]
  write {o o'} h d hd v := by
    simp only [HostObject.write, ScriptedObject.write, h d hd]
    cases o'.script? d with
    | none => exact ⟨rfl, h⟩
    | some script =>
      dsimp only
      split
      · exact ⟨rfl, fun e he => by rw [script?_setScript, script?_setScript, h e he]⟩
      · exact ⟨rfl, h⟩
      · exact ⟨rfl, fun e he => by rw [script?_setScript, script?_setScript, h e he]⟩
      · exact ⟨rfl, h⟩
  left {o o'} h a ha d hd := (o.script?_after (ha ▸ hd)).trans (h d hd)
  right {o o'} h a ha d hd := (h d hd).trans (o'.script?_after (ha ▸ hd)).symm

/-- What is asked in an exchange concerns the capability of the binding. -/
theorem Binding.capability_exchange {b : Binding} {handle : Handle} {flow : Direction} {cell : Cell}
    {answer : Except AccessError Value} {accept : Value → Except AccessError Unit} :
    ∀ a ∈ (b.exchange handle flow cell answer accept).accesses, a.capability = b.capability := by
  unfold exchange
  cases answer with
  | error source => simp [Access.capability]
  | ok x =>
    dsimp only
    split
    · simp [Access.capability]
    · split <;> simp [Access.capability]

namespace Pass

/-- What is asked in a visit concerns the capability of the binding. -/
theorem asks_own (direction : Direction) (handle : Handle) (p : Pass (Watched ο)) (b : Binding) :
    ∃ as, (visit direction handle p b).object = p.object.after as ∧
      ∀ a ∈ as, a.capability = b.capability := by
  obtain ⟨as, hobject, hshape, -⟩ := (confined_visit direction handle p b).asks
  refine ⟨as, hobject, ?_⟩
  rcases hshape with rfl | rfl | ⟨v, rfl⟩ <;> simp [Access.capability]

/-- Two passes over host objects that are related, with rows that differ in one component only. -/
structure Beside (R : ο → ο' → Prop) (id : ComponentId) (p : Pass (Watched ο))
    (p' : Pass (Watched ο')) : Prop where
  object : R p.object.object p'.object.object
  cell : ∀ j, j ≠ id → p'.row.cell? j = p.row.cell? j

/-- The same is asked and reported on the way from `p` to `q` as on the way from `p'` to `q'`. -/
structure Alongside (p q : Pass (Watched ο)) (p' q' : Pass (Watched ο')) : Prop where
  asks : ∃ as, q.object = p.object.after as ∧ q'.object = p'.object.after as
  report : ∃ r, q.report = p.report.merge r ∧ q'.report = p'.report.merge r

theorem Alongside.refl (p : Pass (Watched ο)) (p' : Pass (Watched ο')) : Alongside p p p' p' :=
  ⟨⟨[], p.object.after_nil.symm, p'.object.after_nil.symm⟩,
    ⟨{}, p.report.merge_empty.symm, p'.report.merge_empty.symm⟩⟩

theorem Alongside.trans {p q z : Pass (Watched ο)} {p' q' z' : Pass (Watched ο')}
    (h : Alongside p q p' q') (h' : Alongside q z q' z') : Alongside p z p' z' := by
  obtain ⟨as, hq, hq'⟩ := h.asks
  obtain ⟨bs, hz, hz'⟩ := h'.asks
  obtain ⟨r, hr, hr'⟩ := h.report
  obtain ⟨s, hs, hs'⟩ := h'.report
  exact ⟨⟨as ++ bs, by rw [hz, hq, Watched.after_append], by rw [hz', hq', Watched.after_append]⟩,
    ⟨r.merge s, by rw [hs, hr, SyncReport.merge_assoc], by rw [hs', hr', SyncReport.merge_assoc]⟩⟩

section Beside

variable {c : Capability} {R : ο → ο' → Prop} (halike : AlikeBut c R) {id : ComponentId}
  {p : Pass (Watched ο)} {p' : Pass (Watched ο')} (direction : Direction) (handle : Handle)
include halike

/-- Another binding is visited alike in both. -/
theorem Beside.visit (h : Beside R id p p') {a : Binding} (hcapability : a.capability ≠ c)
    (hcomponent : a.component ≠ id) :
    Beside R id (Pass.visit direction handle p a) (Pass.visit direction handle p' a) ∧
      Alongside p (Pass.visit direction handle p a) p' (Pass.visit direction handle p' a) := by
  have hexposes : HostObject.exposes p.object a.capability =
      HostObject.exposes p'.object a.capability := halike.exposes h.object hcapability
  have hcell := h.cell a.component hcomponent
  have hidle : a.Idle direction p' ↔ a.Idle direction p := by
    unfold Binding.Idle
    rw [hexposes, Row.contains, Row.contains, hcell]
  by_cases hi : a.Idle direction p
  · rw [visit_of_idle hi, visit_of_idle (hidle.mpr hi)]
    exact ⟨h, .refl p p'⟩
  · obtain ⟨flow, cell, hflow, hc, hvisit⟩ := exchanges_visit hi handle
    obtain ⟨flow', cell', hflow', hc', hvisit'⟩ := exchanges_visit (hi ∘ hidle.mp) handle
    obtain rfl : flow = flow' := Option.some.inj (hflow.symm.trans hflow')
    obtain rfl : cell = cell' := Option.some.inj (hc.symm.trans (hcell.symm.trans hc'))
    obtain ⟨hread, hR⟩ := halike.read h.object hcapability
    have hanswer : p'.object.answer a = p.object.answer a := hread.symm
    have haccept : p'.object.accept a = p.object.accept a := by
      funext v
      exact ((halike.write hR hcapability v).1).symm
    rw [hanswer, haccept] at hvisit'
    refine ⟨⟨?_, fun j hj => ?_⟩, ⟨_, hvisit.object, hvisit'.object⟩,
      ⟨_, hvisit.report, hvisit'.report⟩⟩
    · rw [hvisit.object, hvisit'.object]
      exact halike.after h.object fun x hx => by
        rw [Binding.capability_exchange x hx]
        exact hcapability
    · rw [hvisit.cell, hvisit'.cell, h.cell j hj]

theorem Beside.foldl (h : Beside R id p p') {bs : List Binding}
    (hbs : ∀ a ∈ bs, a.capability ≠ c ∧ a.component ≠ id) :
    Beside R id (bs.foldl (Pass.visit direction handle) p)
        (bs.foldl (Pass.visit direction handle) p') ∧
      Alongside p (bs.foldl (Pass.visit direction handle) p) p'
        (bs.foldl (Pass.visit direction handle) p') := by
  induction bs generalizing p p' with
  | nil => exact ⟨h, .refl p p'⟩
  | cons a bs ih =>
    obtain ⟨hcapability, hcomponent⟩ := hbs a List.mem_cons_self
    obtain ⟨hbeside, halong⟩ := h.visit halike direction handle hcapability hcomponent
    obtain ⟨hrest, halong'⟩ := ih hbeside fun x hx => hbs x (List.mem_cons_of_mem _ hx)
    exact ⟨hrest, halong.trans halong'⟩

/-- The binding of the capability itself may be visited otherwise, but in its place only. -/
theorem Beside.visit_apart (h : Beside R id p p') {b : Binding} (hcapability : b.capability = c)
    (hcomponent : b.component = id) :
    Beside R id (Pass.visit direction handle p b) (Pass.visit direction handle p' b) := by
  obtain ⟨as, hq, has⟩ := asks_own direction handle p b
  obtain ⟨bs, hq', hbs⟩ := asks_own direction handle p' b
  refine ⟨?_, fun j hj => ?_⟩
  · rw [hq, hq']
    exact halike.after_apart h.object (fun a ha => (has a ha).trans hcapability)
      fun a ha => (hbs a ha).trans hcapability
  · have hne : j ≠ b.component := hcomponent ▸ hj
    rw [(confined_visit direction handle p b).others j hne,
      (confined_visit direction handle p' b).others j hne, h.cell j hj]

end Beside

/-- What becomes of a binding in a pass that starts with a row, visits it on the way from `p` to `q`
and ends in `z`. -/
structure Met (direction : Direction) (handle : Handle) (row : Row) (b : Binding)
    (p q z : Pass (Watched ο)) : Prop where
  idle : b.Idle direction p → q = p ∧ z.row.cell? b.component = row.cell? b.component
  /-- It is visited with the cell of before the pass, and what its exchange comes to stays. -/
  exchange : ¬b.Idle direction p → ∃ flow cell,
    b.direction.restrict direction = some flow ∧ row.cell? b.component = some cell ∧
      Exchanges b (b.exchange handle flow cell (p.object.answer b) (p.object.accept b)) p q ∧
      z.row.cell? b.component =
        some (b.exchange handle flow cell (p.object.answer b) (p.object.accept b)).cell
  /-- If it is refused an access, there is one failure to report, and the cell is what a refusal
  leaves of it, with the base of before. -/
  refused : ∀ as, q.object = p.object.after as → Access.failures handle p.object.object as ≠ [] →
    ∃ flow cell source,
      b.direction.restrict direction = some flow ∧ row.cell? b.component = some cell ∧
      Access.failures handle p.object.object as =
        [.synchronization handle b.capability source] ∧
      q.report.failures = p.report.failures ++ [.synchronization handle b.capability source] ∧
      z.row.cell? b.component = some (b.leftover flow cell (p.object.answer b)) ∧
      (b.leftover flow cell (p.object.answer b)).synced = cell.synced
  /-- Later visits only add to the report. -/
  later : ∃ r, z.report = q.report.merge r

theorem met_foldl (direction : Direction) (handle : Handle) {row : Row} {b : Binding}
    {p : Pass (Watched ο)} (hp : p.row.cell? b.component = row.cell? b.component)
    {after : List Binding} (hafter : ∀ a ∈ after, a.component ≠ b.component) :
    Met direction handle row b p (visit direction handle p b)
      (after.foldl (visit direction handle) (visit direction handle p b)) := by
  have hlast := cell?_foldl direction handle hafter (visit direction handle p b)
  obtain ⟨as, r, hadds⟩ := adds_foldl direction handle after (visit direction handle p b)
  generalize after.foldl _ _ = z at hlast hadds ⊢
  by_cases hidle : b.Idle direction p
  · rw [visit_of_idle hidle] at hlast hadds ⊢
    refine ⟨fun _ => ⟨rfl, hlast.trans hp⟩, fun h => absurd hidle h, fun as has hfailures => ?_,
      ⟨r, hadds.report⟩⟩
    -- nothing is asked
    have hnone : as = [] := by
      have haccesses := congrArg Watched.accesses has
      exact List.self_eq_append_right.mp haccesses
    rw [hnone] at hfailures
    exact absurd rfl hfailures
  · obtain ⟨flow, cell, hflow, hcell, hvisit⟩ := exchanges_visit hidle handle
    have hkept := hlast.trans ((hvisit.cell _).trans (if_pos rfl))
    rw [hp] at hcell
    refine ⟨fun h => absurd h hidle, fun _ => ⟨flow, cell, hflow, hcell, hvisit, hkept⟩,
      fun as has hfailures => ?_, ⟨r, hadds.report⟩⟩
    obtain rfl : _ = as := by
      have haccesses := congrArg Watched.accesses (hvisit.object.symm.trans has)
      exact List.append_cancel_left haccesses
    have hasked := b.failures_exchange handle flow cell p.object
    rw [← hasked] at hfailures
    obtain ⟨⟨source, hone⟩, hleft⟩ := Binding.exchange_of_refused hfailures
    refine ⟨flow, cell, source, hflow, hcell, hasked.symm.trans hone, ?_, ?_,
      b.synced_leftover flow cell _⟩
    · rw [hvisit.report, SyncReport.merge, hone]
    · rw [hkept, hleft]

end Pass

/-! ## Tables -/

/-- How a pass deals with accesses that are refused. -/
structure Table.Isolates (t : Table) (direction : Direction) (handle : Handle) (object : ο)
    (row : Row) (journal : Journal) : Prop where
  /-- The failures are the refused accesses, in the order in which they were made. -/
  failures : (t.synchronize direction handle object row journal).report.failures =
    Access.failures handle object (t.watch direction handle object row journal).object.accesses
  /-- Each binding is dealt with in its place. -/
  met : ∀ before b after, t.bindings = before ++ b :: after →
    Pass.Met direction handle row b
      ((t.withBindings before).watch direction handle object row journal)
      ((t.withBindings (before ++ [b])).watch direction handle object row journal)
      (t.watch direction handle object row journal)
  /-- With a host object that answers otherwise to a binding, the others are dealt with alike. -/
  others : ∀ before b after, t.bindings = before ++ b :: after →
    (∀ a ∈ before ++ after, a.capability ≠ b.capability) →
    ∀ {ο' : Type} [HostObject ο'] {R : ο → ο' → Prop}, AlikeBut b.capability R →
      ∀ object', R object object' →
        Pass.Beside R b.component (t.watch direction handle object row journal)
            (t.watch direction handle object' row journal) ∧
          Pass.Alongside ((t.withBindings []).watch direction handle object row journal)
            ((t.withBindings before).watch direction handle object row journal)
            ((t.withBindings []).watch direction handle object' row journal)
            ((t.withBindings before).watch direction handle object' row journal) ∧
          Pass.Alongside
            ((t.withBindings (before ++ [b])).watch direction handle object row journal)
            (t.watch direction handle object row journal)
            ((t.withBindings (before ++ [b])).watch direction handle object' row journal)
            (t.watch direction handle object' row journal)

/-- In a table whose bindings have a component each, a refused access is reported once, costs its
binding nothing but what `Binding.leftover` says, and reaches no other binding. -/
theorem Table.isolates_synchronize (t : Table)
    (hs : t.bindings.Pairwise fun a b => a.component ≠ b.component) (direction : Direction)
    (handle : Handle) (object : ο) (row : Row) (journal : Journal) :
    t.Isolates direction handle object row journal := by
  have hapart {before after : List Binding} {b : Binding}
      (hsplit : t.bindings = before ++ b :: after) :
      ∀ a ∈ before ++ after, a.component ≠ b.component := by
    rw [hsplit, List.pairwise_middle Ne.symm, List.pairwise_cons] at hs
    exact fun a ha => (hs.1 a ha).symm
  refine ⟨t.failures_synchronize direction handle object row journal,
    fun before b after hsplit => ?_, fun before b after hsplit hcapability => ?_⟩
  · obtain ⟨hvisit, hrest⟩ := t.watch_of_split direction handle object row journal hsplit
    have hbefore := Pass.cell?_foldl direction handle
      (fun a ha => hapart hsplit a (List.mem_append_left _ ha))
      ((t.withBindings []).watch direction handle object row journal)
    rw [← watch_append, List.nil_append] at hbefore
    rw [hrest, hvisit]
    exact Pass.met_foldl direction handle hbefore fun a ha =>
      hapart hsplit a (List.mem_append_right _ ha)
  · intro ο' _ R halike object' hR
    have hothers : ∀ a ∈ before ++ after,
        a.capability ≠ b.capability ∧ a.component ≠ b.component := fun a ha =>
      ⟨hcapability a ha, hapart hsplit a ha⟩
    obtain ⟨hvisit, hrest⟩ := t.watch_of_split direction handle object row journal hsplit
    obtain ⟨hvisit', hrest'⟩ := t.watch_of_split direction handle object' row journal hsplit
    have hstart : Pass.Beside R b.component
        ((t.withBindings []).watch direction handle object row journal)
        ((t.withBindings []).watch direction handle object' row journal) :=
      ⟨hR, fun _ _ => rfl⟩
    have hbefore := hstart.foldl halike direction handle fun a ha =>
      hothers a (List.mem_append_left _ ha)
    rw [← watch_append, ← watch_append, List.nil_append] at hbefore
    have hown := hbefore.1.visit_apart halike direction handle (b := b) rfl rfl
    rw [← hvisit, ← hvisit'] at hown
    have hafter := hown.foldl halike direction handle fun a ha =>
      hothers a (List.mem_append_right _ ha)
    rw [← hrest, ← hrest'] at hafter
    exact ⟨hafter.1, hbefore.2, hafter.2⟩

/-- A health that is frozen costs the title nothing : next to one that is not frozen, all but the
health is the same. -/
theorem Table.isolates_synchronize_frozen :
    let t : Table := { bindings := [
      ⟨"health", ⟨0⟩, "Health", .bidirectional, .ecsWins⟩,
      ⟨"title", ⟨1⟩, "Title", .bidirectional, .ecsWins⟩] }
    let frozen : ScriptedObject := { scripts := [
      ("health", { value := .int 0, write := .refuse (.rejected "frozen") }),
      ("title", { value := .text "old" })] }
    let free : ScriptedObject := { scripts := [
      ("health", { value := .int 0 }), ("title", { value := .text "old" })] }
    let row : Row := ⟨⟨0, 0⟩, [(⟨0⟩, ⟨.int 8, .int 0⟩), (⟨1⟩, ⟨.text "new", .text "old"⟩)]⟩
    let p := t.synchronize .bidirectional row.handle frozen row {}
    (t.bindings.Pairwise fun a b => a.component ≠ b.component) ∧
      t.Isolates .bidirectional row.handle frozen row {} ∧
      (∀ j, j ≠ ⟨0⟩ → (t.synchronize .bidirectional row.handle free row {}).row.cell? j =
        p.row.cell? j) ∧
      p.row.cell? ⟨0⟩ = some ⟨.int 8, .int 0⟩ ∧
      p.row.cell? ⟨1⟩ = some (Cell.agreed (.text "new")) ∧
      p.report.failures = [.synchronization ⟨0, 0⟩ "health" (.rejected "health" "frozen")] := by
  intro t frozen free row p
  have hs : t.bindings.Pairwise fun a b => a.component ≠ b.component := by simp [t]
  have hisolates := t.isolates_synchronize hs .bidirectional row.handle frozen row {}
  have hscripts : ∀ d, d ≠ "health" → frozen.script? d = free.script? d := by
    intro d hd
    simp [ScriptedObject.script?, frozen, free, Ne.symm hd]
  have hbeside := (hisolates.others [] ⟨"health", ⟨0⟩, "Health", .bidirectional, .ecsWins⟩ _ rfl
    (by simp) (ScriptedObject.alikeBut "health") free hscripts).1
  refine ⟨hs, hisolates, fun j hj => ?_, by decide, by decide, by decide⟩
  have hcell := hbeside.cell j hj
  rw [← unwatched_watch, ← show _ = p from unwatched_watch _ _ _ _ _ _]
  exact hcell

/-- A health that is to become the mean of both sides is the mean in the component, though the host
object refuses it. -/
theorem Table.refused_mean_stays :
    let t : Table := { bindings := [
      ⟨"health", ⟨0⟩, "Health", .bidirectional, .merge "average" Resolver.average⟩] }
    let object : ScriptedObject := { scripts := [
      ("health", { value := .int 0, write := .refuse (.rejected "frozen") })] }
    let row : Row := ⟨⟨0, 0⟩, [(⟨0⟩, ⟨.int 8, .int 0⟩)]⟩
    let p := t.synchronize .bidirectional row.handle object row {}
    (t.bindings.Pairwise fun a b => a.component ≠ b.component) ∧
      p.report.failures = [.synchronization ⟨0, 0⟩ "health" (.rejected "health" "frozen")] ∧
      p.row.cell? ⟨0⟩ = some ⟨.int 4, .int 0⟩ ∧ p.row.cell? ⟨0⟩ ≠ row.cell? ⟨0⟩ := by
  intro t object row p
  exact ⟨by simp [t], by decide, by decide, by decide⟩

end Tether
