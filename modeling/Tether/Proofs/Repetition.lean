import Tether.Proofs.Exchanges
import Tether.Proofs.Gathering

/-!
# Repetition

A pass in one direction may reach only one side of a binding that flows both ways. Where a policy
asks for one of the two sides, nothing is left to do for a second pass. A merge may ask for a value
that neither side has : it is given to the side that the pass may change, and a second pass asks the
policy again, with that side moved and with the base of before. So a second pass changes nothing
exactly if the policy then asks for the same value (`Binding.Steady`), and
`Table.repeated_synchronize` says so of each binding and of all. The policies that pick a side are
steady (`Binding.steady_of_picks`). The mean of the two sides is not.
-/

namespace Tether

/-! ## Asking a policy again -/

/-- A policy that asks for one of the two sides. -/
def Policy.Picks (p : Policy) : Prop := ∀ m, p.resolve m = m.host ∨ p.resolve m = m.ecs

theorem Policy.picks_hostWins : Policy.hostWins.Picks := fun _ => .inl rfl

theorem Policy.picks_ecsWins : Policy.ecsWins.Picks := fun _ => .inr rfl

theorem Policy.picks_changedSide (name : String) :
    (Policy.merge name Resolver.changedSide).Picks := by
  intro m
  show Resolver.changedSide m = m.host ∨ Resolver.changedSide m = m.ecs
  unfold Resolver.changedSide
  split
  · exact .inr rfl
  · exact .inl rfl

/-- In a direction that is not both, what both allow is the direction itself. -/
theorem Direction.restrict_one {d direction flow : Direction} (h : direction ≠ .bidirectional)
    (hflow : d.restrict direction = some flow) :
    flow = direction ∧ (d = .bidirectional ∨ d = direction) := by
  cases d <;> cases direction <;> cases flow <;> simp_all [Direction.restrict]

theorem Value.Matches.refl (v : Value) : v.Matches v := .inr rfl

theorem Value.rel_matches_refl (o : Option Value) : Option.Rel Value.Matches o o := by
  cases o with
  | none => exact .none
  | some v => exact .some (.refl v)

theorem Value.brought_matches_iff {v target : Value} :
    (v.brought true target).Matches v ↔ v.Matches target := by
  unfold brought
  split
  · rename_i hagrees
    exact ⟨fun _ => .inl hagrees, fun _ => .refl v⟩
  · exact ⟨.symm, .symm⟩

theorem Value.brought_false (v target : Value) : v.brought false target = v := by simp [brought]

namespace Binding

/-- The two sides differ, and the target is neither of them. -/
structure Departs (b : Binding) (x : Value) (cell : Cell) : Prop where
  sides : x.agrees cell.value = false
  host : x.agrees (Pass.target b x cell) = false
  entity : cell.value.agrees (Pass.target b x cell) = false

/-- The target of a second pass in a direction, if the first one gave the target to the one side
that it may change. -/
def targetAgain (b : Binding) (direction : Direction) (x : Value) (cell : Cell) : Value :=
  if direction = .hostToEcs then Pass.target b x { cell with value := Pass.target b x cell }
  else Pass.target b (Pass.target b x cell) cell

/-- Where a policy asks for a value that neither side has, it asks for it again. -/
def Steady (b : Binding) (direction : Direction) (x : Value) (cell : Cell) : Prop :=
  b.direction = .bidirectional → b.Departs x cell →
    (Pass.target b x cell).Matches (b.targetAgain direction x cell)

/-- A policy that picks a side asks for the same value again. -/
theorem steady_of_picks {b : Binding} (h : b.direction = .bidirectional → b.policy.Picks)
    (direction : Direction) (x : Value) (cell : Cell) : b.Steady direction x cell := by
  intro hboth _
  have htarget (y : Value) (d : Cell) :
      Pass.target b y d = y ∨ Pass.target b y d = d.value := by
    rw [Pass.target, hboth]
    exact h hboth ⟨y, d.value, d.synced⟩
  -- a target that departs from the side that is picked is not a number, but it stays the same
  unfold targetAgain
  generalize ht : Pass.target b x cell = t
  split
  · rcases htarget x { cell with value := t } with hagain | hagain
    · rcases htarget x cell with hpick | hpick
      · exact .inr (by rw [hagain, ← ht, hpick])
      · rw [ht] at hpick
        exact .inr (by rw [hpick, ht, hpick])
    · exact .inr hagain.symm
  · rcases htarget t cell with hagain | hagain
    · exact .inr hagain.symm
    · rcases htarget x cell with hpick | hpick
      · rw [ht] at hpick
        exact .inr (by rw [hpick, ht, hpick])
      · exact .inr (by rw [hagain, ← ht, hpick])

/-! ## Two passes over one binding -/

section Twice

variable {b : Binding} {flow : Direction} {x : Value} {cell : Cell}

theorem reconciled_of_agrees (h : x.agrees cell.value = true) :
    b.reconciled flow x cell = (x, { cell with synced := x }) := by
  rw [reconciled, if_pos h]

/-- A pass from the host leaves the host's value alone. -/
theorem reconciled_hostToEcs (h : x.agrees cell.value = false) :
    b.reconciled .hostToEcs x cell =
      (x, { value := cell.value.brought true (Pass.target b x cell)
            synced := if x.agrees (Pass.target b x cell) then Pass.target b x cell
              else cell.synced }) := by
  simp [reconciled, h, Direction.readsHost, Direction.writesHost, Value.brought_false]

/-- A pass to the host leaves the component's value alone. -/
theorem reconciled_ecsToHost (h : x.agrees cell.value = false) :
    b.reconciled .ecsToHost x cell =
      (x.brought true (Pass.target b x cell),
        { value := cell.value
          synced := if cell.value.agrees (Pass.target b x cell) then Pass.target b x cell
            else cell.synced }) := by
  simp [reconciled, h, Direction.readsHost, Direction.writesHost, Value.brought_false]

/-- Where the target is one of the two sides, a pass in one direction either changes nothing or
brings both sides together. -/
theorem rests_of_not_departs (hflow : flow ≠ .bidirectional) (h : ¬b.Departs x cell) :
    b.reconciled flow x cell = (x, cell) ∨
      (b.reconciled flow x cell).1.agrees (b.reconciled flow x cell).2.value = true := by
  cases hsides : x.agrees cell.value with
  | true =>
    rw [reconciled_of_agrees hsides]
    exact .inr hsides
  | false =>
    have hapart : ¬(x.agrees (Pass.target b x cell) = true ∧
        cell.value.agrees (Pass.target b x cell) = true) := fun ⟨hhost, hentity⟩ => by
      rw [Value.agrees_trans hhost ((Value.agrees_comm _ _).trans hentity)] at hsides
      cases hsides
    have hone : ¬(x.agrees (Pass.target b x cell) = false ∧
        cell.value.agrees (Pass.target b x cell) = false) := fun ⟨hhost, hentity⟩ =>
      h ⟨hsides, hhost, hentity⟩
    cases flow with
    | bidirectional => exact absurd rfl hflow
    | hostToEcs =>
      rw [reconciled_hostToEcs hsides]
      generalize Pass.target b x cell = t at hapart hone
      cases hhost : x.agrees t <;> cases hentity : cell.value.agrees t <;>
        simp_all [Value.brought]
    | ecsToHost =>
      rw [reconciled_ecsToHost hsides]
      generalize Pass.target b x cell = t at hapart hone
      cases hhost : x.agrees t <;> cases hentity : cell.value.agrees t <;>
        simp_all [Value.brought, Value.agrees_comm t]

/-- From there on a pass changes no value. -/
theorem reconciled_again
    (h : b.reconciled flow x cell = (x, cell) ∨
      (b.reconciled flow x cell).1.agrees (b.reconciled flow x cell).2.value = true) :
    let y := b.reconciled flow x cell
    (b.reconciled flow y.1 y.2).1 = y.1 ∧ (b.reconciled flow y.1 y.2).2.value = y.2.value := by
  intro y
  rcases h with h | h
  · have hy : y = (x, cell) := h
    rw [hy, h]
    exact ⟨rfl, rfl⟩
  · rw [reconciled_of_agrees h]
    exact ⟨rfl, rfl⟩

/-- A target that neither side has goes to the side that the pass may change. -/
theorem reconciled_of_departs (h : b.Departs x cell) :
    b.reconciled .hostToEcs x cell = (x, { cell with value := Pass.target b x cell }) ∧
      b.reconciled .ecsToHost x cell = (Pass.target b x cell, cell) := by
  rw [reconciled_hostToEcs h.sides, reconciled_ecsToHost h.sides]
  simp [Value.brought, h.host, h.entity]

/-- Then a second pass changes no value exactly if it has the same target. -/
theorem again_of_departs (hflow : flow ≠ .bidirectional) (h : b.Departs x cell) :
    let y := b.reconciled flow x cell
    let z := b.reconciled flow y.1 y.2
    z.1.Matches y.1 ∧ z.2.value.Matches y.2.value ↔
      (Pass.target b x cell).Matches (b.targetAgain flow x cell) := by
  intro y z
  have hz : z = b.reconciled flow y.1 y.2 := rfl
  obtain ⟨hpull, hpush⟩ := reconciled_of_departs h
  cases flow with
  | bidirectional => exact absurd rfl hflow
  | hostToEcs =>
    have hy : y = (x, { cell with value := Pass.target b x cell }) := hpull
    have hsides : x.agrees { cell with value := Pass.target b x cell }.value = false := h.host
    have hagain : b.targetAgain .hostToEcs x cell =
        Pass.target b x { cell with value := Pass.target b x cell } := rfl
    rw [hz, hy, reconciled_hostToEcs hsides, hagain]
    exact (and_iff_right (Value.Matches.refl x)).trans Value.brought_matches_iff
  | ecsToHost =>
    have hy : y = (Pass.target b x cell, cell) := hpush
    have hsides : (Pass.target b x cell).agrees cell.value = false :=
      (Value.agrees_comm _ _).trans h.entity
    have hagain : b.targetAgain .ecsToHost x cell = Pass.target b (Pass.target b x cell) cell := rfl
    rw [hz, hy, reconciled_ecsToHost hsides, hagain]
    exact (and_iff_left (Value.Matches.refl cell.value)).trans Value.brought_matches_iff

/-- A second pass in one direction changes no value of a binding exactly if its policy is steady. -/
theorem steady_iff (hflow : flow ≠ .bidirectional)
    (hd : b.direction = .bidirectional ∨ b.direction = flow) :
    let y := b.reconciled flow x cell
    let z := b.reconciled flow y.1 y.2
    z.1.Matches y.1 ∧ z.2.value.Matches y.2.value ↔ b.Steady flow x cell := by
  by_cases hdeparts : b.Departs x cell
  · refine (again_of_departs hflow hdeparts).trans ⟨fun h _ _ => h, fun h => ?_⟩
    rcases hd with hd | hd
    · exact h hd hdeparts
    · -- in one direction the source is asked again
      refine .inr ?_
      rw [targetAgain]
      cases flow <;> simp_all [Pass.target]
  · obtain ⟨hproperty, hvalue⟩ := reconciled_again (rests_of_not_departs hflow hdeparts)
    exact ⟨fun _ _ h => absurd h hdeparts, fun _ => ⟨.inr hproperty, .inr hvalue⟩⟩

end Twice

end Binding

/-! ## What no binding ties -/

namespace Table

variable (t : Table) (direction : Direction) (handle : Handle) (object : PropertyBag) (row : Row)
  (journal : Journal)

/-- A property that no binding ties is left alone. -/
theorem property_synchronize {c : Capability} (hc : ∀ b ∈ t.bindings, b.capability ≠ c) :
    (t.synchronize direction handle object row journal).object.get? c = object.get? c := by
  have hall := t.confined_synchronize direction handle object row journal
  rw [hall.reached]
  have hnone (v : Value) : Access.write c v ∉
      (t.watch direction handle object row journal).object.accesses := by
    intro hin
    obtain ⟨b, hb, hcapability, -⟩ := hall.written c v hin
    exact hc b hb hcapability
  exact ((PropertyBag.readings.after trivial).2 c hnone).property

/-- A component that no binding ties keeps its value. -/
theorem value_synchronize {id : ComponentId} (hid : ∀ b ∈ t.bindings, b.component ≠ id) :
    (t.synchronize direction handle object row journal).row.value? id = row.value? id := by
  have hall := t.confined_synchronize direction handle object row journal
  refine Classical.byContradiction fun hne => ?_
  obtain ⟨b, hb, hcomponent, -⟩ := hall.changed id hne
  exact hid b hb hcomponent

/-- A binding against the direction of the pass, or without one of its sides, is passed over. -/
theorem spares_of_idle {b : Binding} (halone : b.Alone t.bindings)
    (hidle : b.Idle direction ({ object, row } : Pass PropertyBag)) :
    Pass.Spares b { object, row } (t.synchronize direction handle object row journal) := by
  rcases hidle with hopposes | hmissing
  · obtain ⟨before, after, hsplit, hseparate⟩ := halone
    unfold synchronize
    rw [hsplit, List.foldl_append, List.foldl_cons, Pass.visit_of_idle (.inl hopposes)]
    have hbefore := Pass.spares_foldl direction handle
      (fun a ha => hseparate a (List.mem_append_left _ ha))
      { object, row, report := { entities := 1 }, journal }
    have hall := hbefore.trans (Pass.spares_foldl direction handle
      (fun a ha => hseparate a (List.mem_append_right _ ha)) _)
    exact ⟨hall.property, hall.cell⟩
  · have hnone {α : Type} {o : Option α} (h : o.isSome = false) : o = none :=
      Option.not_isSome_iff_eq_none.mp (Bool.eq_false_iff.mp h)
    exact spares_synchronize halone (hmissing.imp (fun h => hnone h) fun h => hnone h) direction
      handle journal

end Table

/-! ## Two passes over a table -/

namespace Pass

/-- Both sides of a binding match those of before. -/
def Matched (b : Binding) (p q : Pass PropertyBag) : Prop :=
  Option.Rel Value.Matches (p.object.get? b.capability) (q.object.get? b.capability) ∧
    Option.Rel Value.Matches (p.row.value? b.component) (q.row.value? b.component)

theorem matched_of_spares {b : Binding} {p q : Pass PropertyBag} (h : Spares b p q) :
    Matched b p q := by
  rw [Matched, Row.value?, Row.value?, h.property, h.cell]
  exact ⟨Value.rel_matches_refl _, Value.rel_matches_refl _⟩

theorem matched_iff {b : Binding} {p q : Pass PropertyBag} {x y : Value} {c d : Cell}
    (hp : Sides b x c p) (hq : Sides b y d q) :
    Matched b p q ↔ y.Matches x ∧ d.value.Matches c.value := by
  rw [Matched, Row.value?, Row.value?, hp.property, hp.cell, hq.property, hq.cell]
  simp only [Option.map_some, Option.rel_some_some]
  exact and_congr ⟨.symm, .symm⟩ ⟨.symm, .symm⟩

end Pass

/-- What a second pass in one direction does after a first one, which leads from an object and a row
to `p` while the second leads on to `q`. -/
structure Table.Repeats (t : Table) (direction : Direction) (object : PropertyBag) (row : Row)
    (p q : Pass PropertyBag) : Prop where
  /-- It changes no value of a binding exactly if the policy is steady on what the first one met. -/
  binding : ∀ b ∈ t.bindings, Pass.Matched b p q ↔
    ∀ x cell, object.get? b.capability = some x → row.cell? b.component = some cell →
      b.Steady direction x cell
  /-- So it changes none of a binding in one direction, or whose policy picks a side. -/
  picked : ∀ b ∈ t.bindings, (b.direction = .bidirectional → b.policy.Picks) → Pass.Matched b p q
  /-- What no binding ties, both leave alone. -/
  property : ∀ c, (∀ b ∈ t.bindings, b.capability ≠ c) →
    p.object.get? c = object.get? c ∧ q.object.get? c = object.get? c
  component : ∀ id, (∀ b ∈ t.bindings, b.component ≠ id) →
    p.row.value? id = row.value? id ∧ q.row.value? id = row.value? id
  /-- All properties and all values match exactly if every binding is steady. -/
  all : ((∀ c, Option.Rel Value.Matches (p.object.get? c) (q.object.get? c)) ∧
      ∀ id, Option.Rel Value.Matches (p.row.value? id) (q.row.value? id)) ↔
    ∀ b ∈ t.bindings, ∀ x cell, object.get? b.capability = some x →
      row.cell? b.component = some cell → b.Steady direction x cell

section Repeated

variable (t : Table) {b : Binding} (halone : b.Alone t.bindings) {direction : Direction}
  (handle : Handle) {object : PropertyBag} {row : Row} (journal journal' : Journal)
include halone

/-- A binding that is passed over once is passed over again. -/
theorem Table.spares_again (hidle : b.Idle direction ({ object, row } : Pass PropertyBag)) :
    let p := t.synchronize direction handle object row journal
    Pass.Spares b p (t.synchronize direction handle p.object p.row journal') := by
  intro p
  have hp : Pass.Spares b { object, row } p :=
    t.spares_of_idle direction handle object row journal halone hidle
  have hidle' : b.Idle direction ({ object := p.object, row := p.row } : Pass PropertyBag) := by
    unfold Binding.Idle at hidle ⊢
    rw [show HostObject.exposes p.object b.capability = HostObject.exposes object b.capability
      from congrArg Option.isSome hp.property, Row.contains, hp.cell]
    exact hidle
  have hagain := t.spares_of_idle direction handle p.object p.row journal' halone hidle'
  exact ⟨hagain.property, hagain.cell⟩

/-- Where a binding has both sides and flows with the pass, a second pass asks the policy alone. -/
theorem Table.matched_iff_steady_of_sides (hdirection : direction ≠ .bidirectional) {x : Value}
    {cell : Cell} (hx : object.get? b.capability = some x)
    (hcell : row.cell? b.component = some cell) (hflow : b.direction.restrict direction ≠ none) :
    let p := t.synchronize direction handle object row journal
    let q := t.synchronize direction handle p.object p.row journal'
    Pass.Matched b p q ↔ b.Steady direction x cell := by
  intro p q
  obtain ⟨flow, hflow⟩ := Option.ne_none_iff_exists'.mp hflow
  obtain ⟨rfl, hd⟩ := Direction.restrict_one hdirection hflow
  have hp : Pass.Sides b _ _ p := reconciled_synchronize halone hflow hx hcell handle journal
  have hq : Pass.Sides b _ _ q :=
    reconciled_synchronize halone hflow hp.property hp.cell handle journal'
  exact (Pass.matched_iff hp hq).trans (Binding.steady_iff hdirection hd)

end Repeated

theorem Table.matched_iff_steady (t : Table) (hs : t.bindings.Pairwise Binding.Separate)
    {direction : Direction} (hdirection : direction ≠ .bidirectional) (handle : Handle)
    (object : PropertyBag) (row : Row) (journal journal' : Journal) {b : Binding}
    (hb : b ∈ t.bindings) :
    let p := t.synchronize direction handle object row journal
    let q := t.synchronize direction handle p.object p.row journal'
    Pass.Matched b p q ↔
      ∀ x cell, object.get? b.capability = some x → row.cell? b.component = some cell →
        b.Steady direction x cell := by
  intro p q
  have halone := Binding.alone_of_mem hs hb
  by_cases hidle : b.Idle direction ({ object, row } : Pass PropertyBag)
  · have hmatched : Pass.Matched b p q :=
      Pass.matched_of_spares (t.spares_again halone handle journal journal' hidle)
    refine ⟨fun _ x cell hx hcell hboth => ?_, fun _ => hmatched⟩
    -- a binding in both directions that has both sides is not idle
    rcases hidle with hopposes | hmissing | hmissing
    · rw [Binding.Opposes, hboth] at hopposes
      simp at hopposes
    · simp [HostObject.exposes, hx] at hmissing
    · simp [Row.contains, hcell] at hmissing
  · unfold Binding.Idle at hidle
    rw [Binding.opposes_iff] at hidle
    simp only [not_or, Bool.not_eq_false] at hidle
    obtain ⟨hflow, hexposes, hcontains⟩ := hidle
    obtain ⟨x, hx⟩ := Option.isSome_iff_exists.mp hexposes
    obtain ⟨cell, hcell⟩ := Option.isSome_iff_exists.mp hcontains
    have hsteady : Pass.Matched b p q ↔ b.Steady direction x cell :=
      t.matched_iff_steady_of_sides halone handle journal journal' hdirection hx hcell hflow
    rw [hsteady]
    refine ⟨fun h y d hy hd => ?_, fun h => h x cell hx hcell⟩
    obtain rfl := Option.some.inj (hx.symm.trans hy)
    obtain rfl := Option.some.inj (hcell.symm.trans hd)
    exact h

/-- A pass in one direction, made twice, for a table whose bindings share neither capabilities nor
components : the second one changes nothing but what a policy asks for that is asked again and is
not steady. -/
theorem Table.repeated_synchronize (t : Table) (hs : t.bindings.Pairwise Binding.Separate)
    {direction : Direction} (hdirection : direction ≠ .bidirectional) (handle : Handle)
    (object : PropertyBag) (row : Row) (journal journal' : Journal) :
    let p := t.synchronize direction handle object row journal
    let q := t.synchronize direction handle p.object p.row journal'
    t.Repeats direction object row p q ∧ Policy.hostWins.Picks ∧ Policy.ecsWins.Picks ∧
      ∀ name, (Policy.merge name Resolver.changedSide).Picks := by
  intro p q
  have hbinding : ∀ b ∈ t.bindings, Pass.Matched b p q ↔ _ := fun b hb =>
    t.matched_iff_steady hs hdirection handle object row journal journal' hb
  have hproperty : ∀ c, (∀ b ∈ t.bindings, b.capability ≠ c) →
      p.object.get? c = object.get? c ∧ q.object.get? c = object.get? c := fun c hc =>
    have hp := t.property_synchronize direction handle object row journal hc
    ⟨hp, (t.property_synchronize direction handle p.object p.row journal' hc).trans hp⟩
  have hcomponent : ∀ id, (∀ b ∈ t.bindings, b.component ≠ id) →
      p.row.value? id = row.value? id ∧ q.row.value? id = row.value? id := fun id hid =>
    have hp := t.value_synchronize direction handle object row journal hid
    ⟨hp, (t.value_synchronize direction handle p.object p.row journal' hid).trans hp⟩
  refine ⟨⟨hbinding, fun b hb h => ?_, hproperty, hcomponent, fun h b hb => ?_,
    fun h => ⟨fun c => ?_, fun id => ?_⟩⟩, Policy.picks_hostWins, Policy.picks_ecsWins,
    Policy.picks_changedSide⟩
  · exact (hbinding b hb).mpr fun x cell _ _ => Binding.steady_of_picks h direction x cell
  · exact (hbinding b hb).mp ⟨h.1 b.capability, h.2 b.component⟩
  · by_cases hc : ∃ b ∈ t.bindings, b.capability = c
    · obtain ⟨b, hb, rfl⟩ := hc
      exact ((hbinding b hb).mpr (h b hb)).1
    · obtain ⟨hp, hq⟩ := hproperty c fun b hb heq => hc ⟨b, hb, heq⟩
      rw [hp, hq]
      exact Value.rel_matches_refl _
  · by_cases hid : ∃ b ∈ t.bindings, b.component = id
    · obtain ⟨b, hb, rfl⟩ := hid
      exact ((hbinding b hb).mpr (h b hb)).2
    · obtain ⟨hp, hq⟩ := hcomponent id fun b hb heq => hid ⟨b, hb, heq⟩
      rw [hp, hq]
      exact Value.rel_matches_refl _

/-- A health that the entity lost goes to the host once, and a title stays where the pass does not
flow. -/
theorem Table.repeated_synchronize_changedSide :
    let t : Table := { bindings := [
      ⟨"health", ⟨0⟩, "Health", .bidirectional, .merge "changed_side" Resolver.changedSide⟩,
      ⟨"title", ⟨1⟩, "Title", .hostToEcs, .hostWins⟩] }
    let object : PropertyBag := ⟨[("health", .int 8), ("title", .text "new")]⟩
    let row : Row := ⟨⟨0, 0⟩, [(⟨0⟩, ⟨.int 5, .int 8⟩), (⟨1⟩, ⟨.text "old", .text "old"⟩)]⟩
    let p := t.synchronize .ecsToHost row.handle object row {}
    let q := t.synchronize .ecsToHost row.handle p.object p.row {}
    t.bindings.Pairwise Binding.Separate ∧ Direction.ecsToHost ≠ .bidirectional ∧
      t.Repeats .ecsToHost object row p q ∧
      p.object.properties = [("health", .int 5), ("title", .text "new")] ∧
      q.object.properties = p.object.properties ∧ q.row.value? ⟨1⟩ = some (.text "old") := by
  intro t object row p q
  have hs : t.bindings.Pairwise Binding.Separate := by simp [t, Binding.Separate]
  exact ⟨hs, by decide, (t.repeated_synchronize hs (by decide) row.handle object row {} {}).1,
    by decide, by decide, by decide⟩

/-- A mean that only the component may be given is taken again, of the host's value and of the
mean : the second pass moves the component once more. -/
theorem Table.average_moves_again :
    let t : Table := { bindings := [
      ⟨"health", ⟨0⟩, "Health", .bidirectional, .merge "average" Resolver.average⟩] }
    let object : PropertyBag := ⟨[("health", .int 0)]⟩
    let row : Row := ⟨⟨0, 0⟩, [(⟨0⟩, ⟨.int 8, .int 0⟩)]⟩
    let p := t.synchronize .hostToEcs row.handle object row {}
    let q := t.synchronize .hostToEcs row.handle p.object p.row {}
    t.bindings.Pairwise Binding.Separate ∧
      (∀ e ∈ object.properties, e.2.hasNaN = false) ∧
      (∀ e ∈ row.cells, e.2.value.hasNaN = false ∧ e.2.synced.hasNaN = false) ∧
      p.row.value? ⟨0⟩ = some (.int 4) ∧ q.row.value? ⟨0⟩ = some (.int 2) ∧
      (Value.int 4).agrees (.int 2) = false := by
  intro t object row p q
  exact ⟨by simp [t, Binding.Separate], by decide, by decide, by decide, by decide, by decide⟩

end Tether
