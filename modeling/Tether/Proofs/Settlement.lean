import Tether.Binding.Synchronize
import Tether.Host.Property

/-!
# What a pass in both directions settles

A pass visits one binding after another and changes a host object and a row as it goes. For a
host object that stores what is written to it (`Storage`) the effect of one visit is said by
what it does to the capability and the component of its binding, and that it leaves the rest
alone (`Pass.Settles`). Where no two bindings share a capability or a component, visits do not
meet, and after the pass both sides of each binding and its base hold one value
(`Binding.outcome`), while all that no binding ties is as before (`Pass.Meets`).

Where both sides agree, a visit does nothing but note so again (`Pass.Quiet`). A second pass
therefore has nothing left to do (`Table.settles_synchronize`).

Values are compared as `Value.agrees` does, which no value that holds something that is not a
number passes, not even against itself.
-/

set_option linter.unusedSectionVars false

namespace Tether

/-! ## Host objects that store -/

/-- How a host object can be understood as a store of values : it exposes the capabilities for
which it has a value, gives that value when it is read, and has the value that was written
last. -/
structure Storage (ο : Type) [HostObject ο] where
  /-- The objects that are so understood. -/
  holds : ο → Prop
  get? : ο → Capability → Option Value
  exposes : ∀ {o}, holds o → ∀ c, HostObject.exposes o c = (get? o c).isSome
  read : ∀ {o c v}, holds o → get? o c = some v →
    ∃ o', HostObject.read o c = (.ok v, o') ∧ holds o' ∧ ∀ d, get? o' d = get? o d
  write : ∀ {o c v}, holds o → get? o c = some v → ∀ w,
    ∃ o', HostObject.write o c w = (.ok (), o') ∧ holds o' ∧
      ∀ d, get? o' d = if d = c then some w else get? o d

/-- A bag of properties is a store of them. -/
def PropertyBag.storage : Storage PropertyBag where
  holds _ := True
  get? := PropertyBag.get?
  exposes _ _ := rfl
  read {o c v} _ h := ⟨o, by simp [HostObject.read, h], trivial, fun _ => rfl⟩
  write {o c v} _ h w :=
    ⟨o.set c w, by simp [HostObject.write, h], trivial, fun d => o.get?_set c d w⟩

/-! ## What a binding asks for -/

/-- The value that both sides of a binding should hold after a pass in both directions, given
the host's value, the component's value and the base. -/
def Binding.outcome (b : Binding) (host ecs base : Value) : Value :=
  match b.direction, b.policy with
  | .hostToEcs, _ => host
  | .ecsToHost, _ => ecs
  | .bidirectional, .hostWins => host
  | .bidirectional, .ecsWins => ecs
  | .bidirectional, .merge _ resolver =>
    if host.agrees ecs then host else resolver ⟨host, ecs, base⟩

/-- Two bindings share neither a capability nor a component. -/
def Binding.Separate (a b : Binding) : Prop :=
  a.capability ≠ b.capability ∧ a.component ≠ b.component

theorem Direction.restrict_bidirectional (d : Direction) : d.restrict .bidirectional = some d := by
  cases d <;> rfl

theorem Binding.agrees_outcome (b : Binding) {host ecs : Value} (base : Value)
    (h : host.agrees ecs = true) : host.agrees (b.outcome host ecs base) = true := by
  have hself : host.agrees host = true :=
    Value.agrees_trans h ((Value.agrees_comm ecs host).trans h)
  unfold outcome
  split
  · exact hself
  · exact h
  · exact hself
  · exact h
  · rw [if_pos h]
    exact hself

theorem Binding.target_eq_outcome (b : Binding) {host : Value} {cell : Cell}
    (h : host.agrees cell.value = false) :
    Pass.target b host cell = b.outcome host cell.value cell.synced := by
  unfold Pass.target outcome
  cases b.direction with
  | hostToEcs => rfl
  | ecsToHost => rfl
  | bidirectional => cases b.policy <;> simp [Policy.resolve, h]

namespace Pass

variable {ο : Type} [HostObject ο] (s : Storage ο)

/-! ## One visit -/

/-- A binding takes part in a pass if the host object exposes its capability and the row has
its component. -/
def TakesPart (p : Pass ο) (b : Binding) : Prop :=
  (s.get? p.object b.capability).isSome = true ∧ p.row.contains b.component = true

/-- Both sides of a binding and its base are brought to a value, and nothing else changes. -/
structure Settles (b : Binding) (t : Value) (p q : Pass ο) : Prop where
  holds : s.holds q.object
  host : ∃ v, v.agrees t = true ∧
    ∀ c, s.get? q.object c = if c = b.capability then some v else s.get? p.object c
  cell : ∃ d : Cell, d.value.agrees t = true ∧ d.synced.agrees t = true ∧
    ∀ j, q.row.cell? j = if j = b.component then some d else p.row.cell? j
  failures : q.report.failures = p.report.failures

theorem cell?_agree (p : Pass ο) {id : ComponentId} {cell : Cell}
    (hc : p.row.cell? id = some cell) (base : Value) (j : ComponentId) :
    (p.agree id base).row.cell? j =
      if j = id then some { cell with synced := base } else p.row.cell? j := by
  simp only [agree, hc, Row.cell?_put]

theorem agree_object (p : Pass ο) (id : ComponentId) (base : Value) :
    (p.agree id base).object = p.object ∧ (p.agree id base).report = p.report ∧
      (p.agree id base).journal = p.journal := by
  unfold agree
  split <;> exact ⟨rfl, rfl, rfl⟩

/-- The component is brought to the target if the flow allows it, or if it is there already. -/
theorem pull_reaches {p : Pass ο} {flow : Direction} {id : ComponentId} {cell : Cell} {t : Value}
    (hc : p.row.cell? id = some cell) (ht : t.agrees t = true)
    (hflow : flow.readsHost = true ∨ cell.value.agrees t = true) :
    ∃ v row n, p.pull flow id cell t =
        (true, { p with row, report := { p.report with toEcs := n } }) ∧
      v.agrees t = true ∧
      ∀ j, row.cell? j = if j = id then some { cell with value := v } else p.row.cell? j := by
  unfold pull
  by_cases hv : cell.value.agrees t = true
  · refine ⟨cell.value, p.row, p.report.toEcs, by rw [if_pos hv], hv, fun j => ?_⟩
    split
    · rename_i hj
      rw [hj, hc]
    · rfl
  · have hreads : flow.readsHost = true := hflow.resolve_right hv
    exact ⟨t, _, _, by rw [if_neg hv, if_pos hreads], ht, fun j => Row.cell?_put _ _ _ _⟩

variable {s}

/-- The host object is brought to the target if the flow allows it, or if it is there already. -/
theorem send_reaches {p : Pass ο} {flow : Direction} (handle : Handle) {c : Capability}
    {h t : Value} (ho : s.holds p.object) (hh : s.get? p.object c = some h)
    (ht : t.agrees t = true) (hflow : flow.writesHost = true ∨ h.agrees t = true) :
    ∃ v object n, p.send flow handle c h t =
        (true, { p with object, report := { p.report with toHost := n } }) ∧
      s.holds object ∧ v.agrees t = true ∧
      ∀ d, s.get? object d = if d = c then some v else s.get? p.object d := by
  unfold send
  by_cases hv : h.agrees t = true
  · refine ⟨h, p.object, p.report.toHost, by rw [if_pos hv], ho, hv, fun d => ?_⟩
    split
    · rename_i hd
      rw [hd, hh]
    · rfl
  · have hwrites : flow.writesHost = true := hflow.resolve_right hv
    obtain ⟨object, hwrite, hobject, hget⟩ := s.write ho hh t
    refine ⟨t, object, p.report.toHost + 1, ?_, hobject, ht, hget⟩
    rw [if_neg hv, if_pos hwrites, hwrite]

/-- Where the two sides differ, both are brought to the target. -/
theorem settles_settle {p : Pass ο} {b : Binding} {h : Value} {cell : Cell} (handle : Handle)
    (ho : s.holds p.object) (hh : s.get? p.object b.capability = some h)
    (hc : p.row.cell? b.component = some cell) (hhost : h.agrees h = true)
    (hecs : cell.value.agrees cell.value = true)
    (ht : (target b h cell).agrees (target b h cell) = true) :
    Settles s b (target b h cell) p (p.settle b.direction handle b h cell) := by
  -- a flow in one direction leaves the side alone that the target is taken from
  have hpull : b.direction.readsHost = true ∨ cell.value.agrees (target b h cell) = true := by
    cases hd : b.direction with
    | ecsToHost => exact .inr (by simpa [target, hd] using hecs)
    | hostToEcs => exact .inl rfl
    | bidirectional => exact .inl rfl
  have hsend : b.direction.writesHost = true ∨ h.agrees (target b h cell) = true := by
    cases hd : b.direction with
    | hostToEcs => exact .inr (by simpa [target, hd] using hhost)
    | ecsToHost => exact .inl rfl
    | bidirectional => exact .inl rfl
  unfold settle
  generalize target b h cell = t at hpull hsend ht ⊢
  dsimp only
  generalize hp' : Pass.mk p.object p.row _ _ = p'
  have hobject : p'.object = p.object := by rw [← hp']
  have hrow : p'.row = p.row := by rw [← hp']
  have hfailures : p'.report.failures = p.report.failures := by rw [← hp']
  obtain ⟨v, row, n, hpulled, hv, hrow'⟩ := pull_reaches (hrow ▸ hc) ht hpull
  rw [hpulled]
  dsimp only
  generalize hq : Pass.mk p'.object row _ _ = q
  have hqobject : q.object = p.object := by rw [← hq, ← hobject]
  have hqrow : q.row = row := by rw [← hq]
  have hqfailures : q.report.failures = p.report.failures := by rw [← hq, ← hfailures]
  obtain ⟨w, object, m, hsent, hholds, hw, hget⟩ :=
    send_reaches handle (hqobject ▸ ho) (hqobject ▸ hh) ht hsend
  rw [hsent]
  simp only [Bool.and_self, ↓reduceIte]
  generalize hr : Pass.mk object q.row _ _ = r
  have hrobject : r.object = object := by rw [← hr]
  have hrrow : r.row = row := by rw [← hr, hqrow]
  have hrfailures : r.report.failures = p.report.failures := by rw [← hr, ← hqfailures]
  have hcell : r.row.cell? b.component = some { cell with value := v } := by
    rw [hrrow, hrow', if_pos rfl]
  refine ⟨?_, ⟨w, hw, fun c => ?_⟩, ⟨⟨v, t⟩, hv, ht, fun j => ?_⟩, ?_⟩
  · rw [(agree_object _ _ _).1, hrobject]
    exact hholds
  · rw [(agree_object _ _ _).1, hrobject, hget, hqobject]
  · rw [cell?_agree r hcell]
    split
    · rfl
    · rename_i hj
      rw [hrrow, hrow', if_neg hj, hrow]
  · rw [(agree_object _ _ _).2.1, hrfailures]

/-- Where the two sides agree, a visit only notes so. -/
theorem visit_of_agrees {p : Pass ο} {b : Binding} {h : Value} {cell : Cell} (handle : Handle)
    (ho : s.holds p.object) (hh : s.get? p.object b.capability = some h)
    (hc : p.row.cell? b.component = some cell) (hagrees : h.agrees cell.value = true) :
    ∃ object, p.visit .bidirectional handle b = { p with object }.agree b.component h ∧
      s.holds object ∧ ∀ d, s.get? object d = s.get? p.object d := by
  obtain ⟨object, hread, hholds, hget⟩ := s.read ho hh
  refine ⟨object, ?_, hholds, hget⟩
  simp only [visit, b.direction.restrict_bidirectional, hc, s.exposes ho, hh, Option.isSome_some,
    ↓reduceIte, hread, hagrees]

theorem visit_of_differs {p : Pass ο} {b : Binding} {h : Value} {cell : Cell} (handle : Handle)
    (ho : s.holds p.object) (hh : s.get? p.object b.capability = some h)
    (hc : p.row.cell? b.component = some cell) (hdiffers : h.agrees cell.value = false) :
    ∃ object, p.visit .bidirectional handle b =
        settle { p with object } b.direction handle b h cell ∧
      s.holds object ∧ ∀ d, s.get? object d = s.get? p.object d := by
  obtain ⟨object, hread, hholds, hget⟩ := s.read ho hh
  refine ⟨object, ?_, hholds, hget⟩
  simp only [visit, b.direction.restrict_bidirectional, hc, s.exposes ho, hh, Option.isSome_some,
    ↓reduceIte, hread, hdiffers, Bool.false_eq_true]

/-- A binding that takes no part changes nothing. -/
theorem visit_of_not_takesPart {p : Pass ο} {b : Binding} (handle : Handle)
    (ho : s.holds p.object) (hb : ¬p.TakesPart s b) : p.visit .bidirectional handle b = p := by
  simp only [visit, b.direction.restrict_bidirectional]
  cases hc : p.row.cell? b.component with
  | none => rfl
  | some cell =>
    have hhidden : HostObject.exposes p.object b.capability = false := by
      rw [s.exposes ho, Bool.eq_false_iff]
      intro hh
      exact hb ⟨hh, by simp [Row.contains, hc]⟩
    simp only [hhidden, Bool.false_eq_true, ↓reduceIte]

/-- A visit brings both sides of a binding that takes part, and its base, to its outcome. -/
theorem settles_visit {p : Pass ο} {b : Binding} {h : Value} {cell : Cell} (handle : Handle)
    (ho : s.holds p.object) (hh : s.get? p.object b.capability = some h)
    (hc : p.row.cell? b.component = some cell) (hhost : h.hasNaN = false)
    (hecs : cell.value.hasNaN = false)
    (hout : (b.outcome h cell.value cell.synced).hasNaN = false) :
    Settles s b (b.outcome h cell.value cell.synced) p (p.visit .bidirectional handle b) := by
  rw [← Value.agrees_self_iff] at hhost hecs hout
  cases hagrees : h.agrees cell.value with
  | true =>
    have ht := b.agrees_outcome cell.synced hagrees
    obtain ⟨object, heq, hholds, hget⟩ := visit_of_agrees handle ho hh hc hagrees
    rw [heq]
    refine ⟨?_, ⟨h, ht, fun c => ?_⟩, ⟨⟨cell.value, h⟩, ?_, ht, fun j => ?_⟩, ?_⟩
    · rw [(agree_object _ _ _).1]
      exact hholds
    · rw [(agree_object _ _ _).1, hget]
      split
      · rename_i hcap
        rw [hcap, hh]
      · rfl
    · exact Value.agrees_trans ((Value.agrees_comm _ _).trans hagrees) ht
    · exact cell?_agree { p with object } hc h j
    · rw [(agree_object _ _ _).2.1]
  | false =>
    obtain ⟨object, heq, hholds, hget⟩ := visit_of_differs handle ho hh hc hagrees
    have htarget := b.target_eq_outcome hagrees
    rw [heq]
    have hs := settles_settle (p := { p with object }) handle hholds ((hget _).trans hh) hc hhost
      hecs (htarget ▸ hout)
    rw [htarget] at hs
    obtain ⟨v, hv, hv'⟩ := hs.host
    refine ⟨hs.holds, ⟨v, hv, fun c => ?_⟩, hs.cell, hs.failures⟩
    rw [hv', hget]

/-! ## A whole pass -/

/-- What a pass over a list of bindings does : each that takes part is brought to its outcome,
and nothing else changes. -/
structure Meets (s : Storage ο) (bs : List Binding) (p q : Pass ο) : Prop where
  holds : s.holds q.object
  part : ∀ b ∈ bs, q.TakesPart s b → p.TakesPart s b
  outcome : ∀ b ∈ bs, ∀ h cell, s.get? p.object b.capability = some h →
    p.row.cell? b.component = some cell →
    ∃ h' cell', s.get? q.object b.capability = some h' ∧
      q.row.cell? b.component = some cell' ∧
      h'.agrees (b.outcome h cell.value cell.synced) = true ∧
      cell'.value.agrees (b.outcome h cell.value cell.synced) = true ∧
      cell'.synced.agrees (b.outcome h cell.value cell.synced) = true
  host : ∀ c, (∀ b ∈ bs, p.TakesPart s b → b.capability ≠ c) →
    s.get? q.object c = s.get? p.object c
  row : ∀ id, (∀ b ∈ bs, p.TakesPart s b → b.component ≠ id) →
    q.row.cell? id = p.row.cell? id
  failures : q.report.failures = p.report.failures

/-- No value that the binding meets or asks for holds something that is not a number. -/
def Clean (s : Storage ο) (p : Pass ο) (b : Binding) : Prop :=
  ∀ h cell, s.get? p.object b.capability = some h → p.row.cell? b.component = some cell →
    h.hasNaN = false ∧ cell.value.hasNaN = false ∧
      (b.outcome h cell.value cell.synced).hasNaN = false

theorem takesPart_iff {p : Pass ο} {b : Binding} : p.TakesPart s b ↔
    ∃ h cell, s.get? p.object b.capability = some h ∧ p.row.cell? b.component = some cell := by
  simp only [TakesPart, Row.contains, Option.isSome_iff_exists]
  constructor
  · rintro ⟨⟨h, hh⟩, cell, hc⟩
    exact ⟨h, cell, hh, hc⟩
  · rintro ⟨h, cell, hh, hc⟩
    exact ⟨⟨h, hh⟩, cell, hc⟩

/-- A single visit. -/
theorem meets_visit {p : Pass ο} {a : Binding} (handle : Handle) (ho : s.holds p.object)
    (hclean : Clean s p a) : Meets s [a] p (p.visit .bidirectional handle a) := by
  by_cases ha : p.TakesPart s a
  · obtain ⟨h, cell, hh, hc⟩ := takesPart_iff.mp ha
    obtain ⟨hhost, hecs, hout⟩ := hclean h cell hh hc
    have hs := settles_visit handle ho hh hc hhost hecs hout
    obtain ⟨v, hv, hget⟩ := hs.host
    obtain ⟨d, hvalue, hsynced, hcell⟩ := hs.cell
    refine ⟨hs.holds, fun b hb _ => ?_, fun b hb h' cell' hh' hc' => ?_, fun c hapart => ?_,
      fun id hapart => ?_, hs.failures⟩
    · rw [List.mem_singleton.mp hb]
      exact ha
    · rw [List.mem_singleton.mp hb] at hh' hc' ⊢
      obtain rfl := Option.some.inj (hh.symm.trans hh')
      obtain rfl := Option.some.inj (hc.symm.trans hc')
      exact ⟨v, d, by rw [hget, if_pos rfl], by rw [hcell, if_pos rfl], hv, hvalue, hsynced⟩
    · rw [hget, if_neg (Ne.symm (hapart a (by simp) ha))]
    · rw [hcell, if_neg (Ne.symm (hapart a (by simp) ha))]
  · rw [visit_of_not_takesPart handle ho ha]
    refine ⟨ho, fun _ _ => id, fun b hb h cell hh hc => ?_, fun _ _ => rfl, fun _ _ => rfl, rfl⟩
    rw [List.mem_singleton.mp hb] at hh hc
    exact absurd (takesPart_iff.mpr ⟨h, cell, hh, hc⟩) ha

section Apart

variable {a : Binding} {bs : List Binding} {p q r : Pass ο}

/-- A binding that shares nothing with the one that is visited sees nothing of the visit. -/
theorem Meets.apart (h : Meets s [a] p q) {b : Binding} (hsep : a.Separate b) :
    s.get? q.object b.capability = s.get? p.object b.capability ∧
      q.row.cell? b.component = p.row.cell? b.component := by
  refine ⟨h.host _ fun c hc _ => ?_, h.row _ fun c hc _ => ?_⟩
  · rw [List.mem_singleton.mp hc]
    exact hsep.1
  · rw [List.mem_singleton.mp hc]
    exact hsep.2

/-- A visit, and then a pass over bindings that share nothing with the one that was visited. -/
theorem Meets.cons (h : Meets s [a] p q) (h' : Meets s bs q r)
    (hsep : ∀ b ∈ bs, a.Separate b) : Meets s (a :: bs) p r := by
  have hpart : ∀ b ∈ bs, q.TakesPart s b → p.TakesPart s b := by
    intro b hb hq
    obtain ⟨hhost, hcell⟩ := h.apart (hsep b hb)
    rw [takesPart_iff, hhost, hcell] at hq
    exact takesPart_iff.mpr hq
  -- what the visit settled is left alone afterwards
  have hhost : s.get? r.object a.capability = s.get? q.object a.capability :=
    h'.host _ fun b hb _ => Ne.symm (hsep b hb).1
  have hcell : r.row.cell? a.component = q.row.cell? a.component :=
    h'.row _ fun b hb _ => Ne.symm (hsep b hb).2
  refine ⟨h'.holds, fun b hb hr => ?_, fun b hb v cell hh hc => ?_, fun c hc => ?_,
    fun id hid => ?_, h'.failures.trans h.failures⟩
  · rcases List.mem_cons.mp hb with rfl | hb
    · rw [takesPart_iff, hhost, hcell] at hr
      exact h.part b (by simp) (takesPart_iff.mpr hr)
    · exact hpart b hb (h'.part b hb hr)
  · rcases List.mem_cons.mp hb with rfl | hb
    · obtain ⟨v', cell', hh', hc', hrest⟩ := h.outcome b (by simp) v cell hh hc
      exact ⟨v', cell', hhost.trans hh', hcell.trans hc', hrest⟩
    · obtain ⟨hhost, hcell⟩ := h.apart (hsep b hb)
      exact h'.outcome b hb v cell (hhost.trans hh) (hcell.trans hc)
  · rw [h'.host c fun b hb hq => hc b (List.mem_cons_of_mem _ hb) (hpart b hb hq)]
    refine h.host c fun b hb hq => ?_
    rw [List.mem_singleton.mp hb] at hq ⊢
    exact hc a (by simp) hq
  · rw [h'.row id fun b hb hq => hid b (List.mem_cons_of_mem _ hb) (hpart b hb hq)]
    refine h.row id fun b hb hq => ?_
    rw [List.mem_singleton.mp hb] at hq ⊢
    exact hid a (by simp) hq

end Apart

/-- Visits one after another, where no two bindings share a capability or a component. -/
theorem meets_foldl (handle : Handle) (bs : List Binding) (hsep : bs.Pairwise Binding.Separate)
    {p : Pass ο} (ho : s.holds p.object) (hclean : ∀ b ∈ bs, Clean s p b) :
    Meets s bs p (bs.foldl (visit .bidirectional handle) p) := by
  induction bs generalizing p with
  | nil => exact ⟨ho, by simp, by simp, fun _ _ => rfl, fun _ _ => rfl, rfl⟩
  | cons a bs ih =>
    obtain ⟨hhead, htail⟩ := List.pairwise_cons.mp hsep
    have ha := meets_visit handle ho (hclean a (by simp))
    have hclean' : ∀ b ∈ bs, Clean s (p.visit .bidirectional handle a) b := by
      intro b hb
      obtain ⟨hhost, hcell⟩ := ha.apart (hhead b hb)
      rw [Clean, hhost, hcell]
      exact hclean b (List.mem_cons_of_mem _ hb)
    exact ha.cons (ih htail ha.holds hclean') hhead

/-! ## A second pass -/

/-- Both sides of a binding and its base agree. -/
def InStep (s : Storage ο) (p : Pass ο) (b : Binding) : Prop :=
  ∀ h cell, s.get? p.object b.capability = some h → p.row.cell? b.component = some cell →
    h.agrees cell.value = true ∧ h.agrees cell.synced = true

/-- The same value, and a base that agrees with the one before. -/
def SameCell (c d : Cell) : Prop :=
  d.value = c.value ∧ (d.synced = c.synced ∨ d.synced.agrees c.synced = true)

/-- Nothing is changed, reported or told of. -/
structure Quiet (s : Storage ο) (p q : Pass ο) : Prop where
  holds : s.holds q.object
  host : ∀ c, s.get? q.object c = s.get? p.object c
  row : ∀ id, Option.Rel SameCell (p.row.cell? id) (q.row.cell? id)
  report : q.report = p.report
  journal : q.journal = p.journal

theorem SameCell.refl (c : Cell) : SameCell c c := ⟨rfl, .inl rfl⟩

theorem SameCell.trans {c d e : Cell} (h : SameCell c d) (h' : SameCell d e) : SameCell c e := by
  refine ⟨h'.1.trans h.1, ?_⟩
  rcases h'.2 with heq | hagrees
  · rw [heq]
    exact h.2
  · rcases h.2 with heq | hbefore
    · exact .inr (heq ▸ hagrees)
    · exact .inr (Value.agrees_trans hagrees hbefore)

theorem Quiet.refl {p : Pass ο} (ho : s.holds p.object) : Quiet s p p := by
  refine ⟨ho, fun _ => rfl, fun id => ?_, rfl, rfl⟩
  cases p.row.cell? id with
  | none => exact .none
  | some cell => exact .some (.refl cell)

theorem Quiet.trans {p q r : Pass ο} (h : Quiet s p q) (h' : Quiet s q r) : Quiet s p r := by
  refine ⟨h'.holds, fun c => (h'.host c).trans (h.host c), fun id => ?_,
    h'.report.trans h.report, h'.journal.trans h.journal⟩
  have hpq := h.row id
  have hqr := h'.row id
  generalize p.row.cell? id = c at hpq ⊢
  generalize q.row.cell? id = d at hpq hqr
  generalize r.row.cell? id = e at hqr ⊢
  cases hpq with
  | none => exact hqr
  | some hcd =>
    cases hqr with
    | some hde => exact .some (hcd.trans hde)

theorem quiet_visit {p : Pass ο} {b : Binding} (handle : Handle) (ho : s.holds p.object)
    (hb : InStep s p b) : Quiet s p (p.visit .bidirectional handle b) := by
  by_cases hpart : p.TakesPart s b
  · obtain ⟨h, cell, hh, hc⟩ := takesPart_iff.mp hpart
    obtain ⟨hvalue, hsynced⟩ := hb h cell hh hc
    obtain ⟨object, heq, hholds, hget⟩ := visit_of_agrees handle ho hh hc hvalue
    obtain ⟨hobject, hreport, hjournal⟩ := agree_object { p with object } b.component h
    rw [heq]
    refine ⟨by rw [hobject]; exact hholds, fun c => by rw [hobject]; exact hget c, fun id => ?_,
      hreport, hjournal⟩
    rw [cell?_agree { p with object } hc h id]
    split
    · rename_i hid
      rw [hid, hc]
      exact .some ⟨rfl, .inr hsynced⟩
    · exact (Quiet.refl ho).row id
  · rw [visit_of_not_takesPart handle ho hpart]
    exact .refl ho

/-- Bindings that are in step stay so. -/
theorem Quiet.inStep {p q : Pass ο} (h : Quiet s p q) {b : Binding} (hb : InStep s p b) :
    InStep s q b := by
  intro v cell hv hc
  rw [h.host] at hv
  have hrow := h.row b.component
  rw [hc] at hrow
  generalize hold : p.row.cell? b.component = old at hrow
  cases hrow with
  | some hsame =>
    obtain ⟨hvalue, hsynced⟩ := hb v _ hv hold
    refine ⟨hsame.1 ▸ hvalue, ?_⟩
    rcases hsame.2 with heq | hagrees
    · rw [heq]
      exact hsynced
    · exact Value.agrees_trans hsynced ((Value.agrees_comm _ _).trans hagrees)

theorem quiet_foldl (handle : Handle) (bs : List Binding) {p : Pass ο} (ho : s.holds p.object)
    (hb : ∀ b ∈ bs, InStep s p b) :
    Quiet s p (bs.foldl (visit .bidirectional handle) p) := by
  induction bs generalizing p with
  | nil => exact .refl ho
  | cons b bs ih =>
    have hone := quiet_visit handle ho (hb b (by simp))
    exact hone.trans (ih hone.holds fun c hc => hone.inStep (hb c (List.mem_cons_of_mem _ hc)))

/-- After a pass every binding is in step. -/
theorem Meets.inStep {bs : List Binding} {p q : Pass ο} (h : Meets s bs p q) {b : Binding}
    (hb : b ∈ bs) : InStep s q b := by
  intro v cell hv hc
  obtain ⟨v₀, cell₀, hv₀, hc₀⟩ := takesPart_iff.mp
    (h.part b hb (takesPart_iff.mpr ⟨v, cell, hv, hc⟩))
  obtain ⟨v', cell', hv', hc', hhost, hvalue, hsynced⟩ := h.outcome b hb v₀ cell₀ hv₀ hc₀
  obtain rfl := Option.some.inj (hv.symm.trans hv')
  obtain rfl := Option.some.inj (hc.symm.trans hc')
  exact ⟨Value.agrees_trans hhost ((Value.agrees_comm _ _).trans hvalue),
    Value.agrees_trans hhost ((Value.agrees_comm _ _).trans hsynced)⟩

end Pass

variable {ο : Type} [HostObject ο]

/-- A pass in both directions over a host object that stores what is written to it, for a table
whose bindings share neither capabilities nor components : nothing fails, both sides of every
binding that takes part and its base are brought to the outcome of the binding, and all else is
left as it is. A second pass changes nothing, has nothing to report, and tells of nothing. -/
theorem Table.settles_synchronize (s : Storage ο) (t : Table) (handle : Handle) (object : ο)
    (row : Row) (journal journal' : Journal) (ho : s.holds object)
    (hsep : t.bindings.Pairwise Binding.Separate)
    (hclean : ∀ b ∈ t.bindings, Pass.Clean s { object, row } b) :
    let p := t.synchronize .bidirectional handle object row journal
    let q := t.synchronize .bidirectional handle p.object p.row journal'
    Pass.Meets s t.bindings { object, row } p ∧
      Pass.Quiet s { object := p.object, row := p.row, report := { entities := 1 },
                     journal := journal' } q := by
  intro p q
  have hmeets : Pass.Meets s t.bindings
      { object, row, report := { entities := 1 }, journal } p :=
    Pass.meets_foldl handle t.bindings hsep ho hclean
  refine ⟨⟨hmeets.holds, hmeets.part, hmeets.outcome, hmeets.host, hmeets.row,
    hmeets.failures⟩, ?_⟩
  exact Pass.quiet_foldl handle t.bindings hmeets.holds fun b hb => hmeets.inStep hb

/-- A property that changed on the side of the entity, merged, and one that the host feeds. -/
theorem Table.settles_synchronize_merge :
    let t : Table := { bindings := [
      ⟨"health", ⟨0⟩, "Health", .bidirectional, .merge "changed_side" Resolver.changedSide⟩,
      ⟨"title", ⟨1⟩, "Title", .hostToEcs, .hostWins⟩] }
    let object : PropertyBag := ⟨[("health", .int 3), ("title", .text "new")]⟩
    let row : Row := ⟨⟨0, 0⟩, [(⟨0⟩, ⟨.int 5, .int 3⟩), (⟨1⟩, ⟨.text "old", .text "old"⟩)]⟩
    let p := t.synchronize .bidirectional ⟨0, 0⟩ object row {}
    t.bindings.Pairwise Binding.Separate ∧
      (∀ b ∈ t.bindings, Pass.Clean PropertyBag.storage { object, row } b) ∧
      Pass.Meets PropertyBag.storage t.bindings { object, row } p ∧
      p.object.get? "health" = some (.int 5) ∧ p.row.value? ⟨1⟩ = some (.text "new") := by
  intro t object row p
  have hsep : t.bindings.Pairwise Binding.Separate := by simp [t, Binding.Separate]
  have hclean : ∀ b ∈ t.bindings, Pass.Clean PropertyBag.storage { object, row } b := by
    intro b hb h cell hh hc
    simp only [t, List.mem_cons, List.not_mem_nil, or_false] at hb
    rcases hb with rfl | rfl
    · obtain rfl : Value.int 3 = h := Option.some.inj hh
      obtain rfl : (⟨.int 5, .int 3⟩ : Cell) = cell := Option.some.inj hc
      exact ⟨rfl, rfl, rfl⟩
    · obtain rfl : Value.text "new" = h := Option.some.inj hh
      obtain rfl : (⟨.text "old", .text "old"⟩ : Cell) = cell := Option.some.inj hc
      exact ⟨rfl, rfl, rfl⟩
  exact ⟨hsep, hclean, (settles_synchronize PropertyBag.storage t ⟨0, 0⟩ object row {} {} trivial
    hsep hclean).1, by decide, by decide⟩

end Tether
