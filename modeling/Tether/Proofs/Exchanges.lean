import Tether.Host.Scripted
import Tether.Proofs.Accesses
import Tether.Proofs.Reconciliation

/-!
# Exchanges

A visit to a binding is an exchange with the host object : the capability is read, and sometimes
written afterwards. What comes of it depends on the cell of the component and on the two answers of
the host object, and on nothing else. `Binding.exchange` is that function, and
`Pass.exchanges_visit` says that a visit which is not idle is the exchange with the answers that the
host object gives.

So a pass over a table reports the refused accesses, one by one and in order
(`Table.failures_synchronize`). Where no two bindings share a component, each is visited with the
cell that its component had before the pass (`Pass.cell?_foldl`), and what its visit leaves there
is what the pass leaves.
-/

set_option linter.unusedSectionVars false

namespace Tether

variable {ο : Type} [HostObject ο]

/-! ## Answers -/

/-- The error of an answer of a host object, if it is one. -/
def AccessError.of? {α : Type} : Except AccessError α → Option AccessError
  | .error source => some source
  | .ok _ => none

namespace Access

/-- The capability that an access is to. -/
def capability : Access → Capability
  | .read c => c
  | .write c _ => c

/-- Why an access is refused, if it is. -/
def refusal? (object : ο) : Access → Option AccessError
  | .read c => AccessError.of? (HostObject.read object c).1
  | .write c v => AccessError.of? (HostObject.write object c v).1

/-- What there is to report of accesses that are made one after another : those that are refused. -/
def failures (handle : Handle) : ο → List Access → List Error
  | _, [] => []
  | object, a :: as =>
    ((a.refusal? object).map (.synchronization handle a.capability)).toList ++
      failures handle (a.after object) as

theorem failures_append (handle : Handle) (object : ο) (as bs : List Access) :
    failures handle object (as ++ bs) =
      failures handle object as ++ failures handle (as.foldl Access.after object) bs := by
  induction as generalizing object with
  | nil => rfl
  | cons a as ih =>
    rw [List.cons_append, failures, failures, ih, List.append_assoc, List.foldl_cons]

end Access

/-! ## What an exchange comes to -/

/-- What a visit to a binding asks of the host object, what it makes of the cell, and what it adds
to the report. -/
structure Binding.Exchange where
  accesses : List Access
  cell : Cell
  report : SyncReport := {}

/-- What a visit to a binding comes to that may flow in a direction : `answer` is what the host
object says when the capability is read, and `accept` what it says when a value is written. -/
def Binding.exchange (b : Binding) (handle : Handle) (flow : Direction) (cell : Cell)
    (answer : Except AccessError Value) (accept : Value → Except AccessError Unit) : Exchange :=
  match answer with
  | .error source =>
    { accesses := [.read b.capability]
      cell
      report := { failures := [.synchronization handle b.capability source] } }
  | .ok x =>
    if x.agrees cell.value then
      { accesses := [.read b.capability], cell := { cell with synced := x } }
    else
      let target := Pass.target b x cell
      let pulls := !cell.value.agrees target && flow.readsHost
      let sends := !x.agrees target && flow.writesHost
      let refusal := if sends then AccessError.of? (accept target) else none
      { accesses := .read b.capability :: if sends then [.write b.capability target] else []
        cell :=
          { value := cell.value.brought flow.readsHost target
            synced :=
              if (cell.value.agrees target || flow.readsHost) &&
                  (x.agrees target || sends && refusal.isNone)
              then target else cell.synced }
        report :=
          { toEcs := pulls.toNat
            toHost := (sends && refusal.isNone).toNat
            conflicts := if b.direction = .bidirectional then 1 else 0
            failures := (refusal.map (.synchronization handle b.capability)).toList } }

namespace Watched

variable (w : Watched ο) (b : Binding)

/-- What a watched object says when the capability of a binding is read. -/
def answer : Except AccessError Value := (HostObject.read w.object b.capability).1

/-- What it says when the capability is written after that. -/
def accept (v : Value) : Except AccessError Unit :=
  (HostObject.write (HostObject.read w.object b.capability).2 b.capability v).1

end Watched

/-- The failures of an exchange are the accesses in it that are refused. -/
theorem Binding.failures_exchange (b : Binding) (handle : Handle) (flow : Direction) (cell : Cell)
    (w : Watched ο) :
    (b.exchange handle flow cell (w.answer b) (w.accept b)).report.failures =
      Access.failures handle w.object
        (b.exchange handle flow cell (w.answer b) (w.accept b)).accesses := by
  have hread : (Access.read b.capability).refusal? w.object = AccessError.of? (w.answer b) := rfl
  have hwrite (v : Value) : (Access.write b.capability v).refusal?
      ((Access.read b.capability).after w.object) = AccessError.of? (w.accept b v) := rfl
  unfold exchange
  cases hanswer : w.answer b with
  | error source =>
    simp [Access.failures, hread, hanswer, AccessError.of?, Access.capability]
  | ok x =>
    rw [hanswer] at hread
    dsimp only
    split
    · simp [Access.failures, hread, AccessError.of?]
    · split <;> simp [Access.failures, hread, hwrite, AccessError.of?, Access.capability]

/-- A cell that is there, as a case of whatever may be put there. -/
theorem Row.cell?_eq_ite {r : Row} {id : ComponentId} {cell : Cell} (h : r.cell? id = some cell)
    (j : ComponentId) : r.cell? j = if j = id then some cell else r.cell? j := by
  split
  · rename_i hj
    rw [hj, h]
  · rfl

namespace Pass

/-- The visit to a binding leads from `p` to `q`, and comes to `x`. -/
structure Exchanges (b : Binding) (x : Binding.Exchange) (p q : Pass (Watched ο)) : Prop where
  object : q.object = p.object.after x.accesses
  cell : ∀ j, q.row.cell? j = if j = b.component then some x.cell else p.row.cell? j
  report : q.report = p.report.merge x.report

/-! ## One visit -/

/-- The component is brought to the target if the flow allows it. -/
theorem pull_eq {p : Pass ο} {id : ComponentId} {cell : Cell} (hc : p.row.cell? id = some cell)
    (flow : Direction) (t : Value) :
    (p.pull flow id cell t).1 = (cell.value.agrees t || flow.readsHost) ∧
      (∀ j, (p.pull flow id cell t).2.row.cell? j =
        if j = id then some { cell with value := cell.value.brought flow.readsHost t }
        else p.row.cell? j) ∧
      (p.pull flow id cell t).2.report =
        p.report.merge { toEcs := (!cell.value.agrees t && flow.readsHost).toNat } := by
  unfold pull Value.brought
  by_cases hv : cell.value.agrees t = true
  · simp only [hv, ↓reduceIte]
    exact ⟨rfl, Row.cell?_eq_ite hc, p.report.merge_empty.symm⟩
  · cases hr : flow.readsHost with
    | true =>
      simp only [hv, Bool.false_eq_true, ↓reduceIte]
      exact ⟨by simp, fun j => Row.cell?_put _ _ _ _, by simp [SyncReport.merge]⟩
    | false =>
      simp only [hv, Bool.false_eq_true, ↓reduceIte]
      exact ⟨by simp, Row.cell?_eq_ite hc, by simp [SyncReport.merge]⟩

/-- The host object is brought to the target if the flow and the object allow it. -/
theorem send_eq (p : Pass (Watched ο)) (flow : Direction) (handle : Handle) (c : Capability)
    (x t : Value) :
    let sends := !x.agrees t && flow.writesHost
    let refusal := if sends then AccessError.of? (HostObject.write p.object.object c t).1 else none
    (p.send flow handle c x t).1 = (x.agrees t || sends && refusal.isNone) ∧
      (p.send flow handle c x t).2.object =
        p.object.after (if sends then [.write c t] else []) ∧
      (p.send flow handle c x t).2.report =
        p.report.merge
          { toHost := (sends && refusal.isNone).toNat
            failures := (refusal.map (.synchronization handle c)).toList } := by
  intro sends refusal
  unfold send
  by_cases hx : x.agrees t = true
  · simp [sends, refusal, hx, Watched.after_nil, SyncReport.merge]
  · cases hw : flow.writesHost with
    | false => simp [sends, refusal, hx, hw, Watched.after_nil, SyncReport.merge]
    | true =>
      have hafter : (HostObject.write p.object c t).2 = p.object.after [.write c t] := rfl
      have hanswer : (HostObject.write p.object c t).1 =
          (HostObject.write p.object.object c t).1 := rfl
      have hsends : sends = true := by simp [sends, hx, hw]
      simp only [refusal, hsends, ↓reduceIte, ← hanswer]
      generalize HostObject.write p.object c t = y at hafter ⊢
      obtain ⟨result, object⟩ := y
      dsimp only at hafter
      subst hafter
      cases result <;> simp [hx, AccessError.of?, fail, SyncReport.merge]

/-- Both sides are brought to the target, and the base as well if both are there. -/
theorem reached_eq {p : Pass (Watched ο)} {b : Binding} {cell : Cell}
    (hc : p.row.cell? b.component = some cell) (flow : Direction) (handle : Handle) (x t : Value) :
    let sends := !x.agrees t && flow.writesHost
    let refusal := if sends then AccessError.of? (HostObject.write p.object.object b.capability t).1
      else none
    let q := p.reached flow handle b x cell t
    q.object = p.object.after (if sends then [.write b.capability t] else []) ∧
      (∀ j, q.row.cell? j =
        if j = b.component then
          some
            { value := cell.value.brought flow.readsHost t
              synced :=
                if (cell.value.agrees t || flow.readsHost) &&
                    (x.agrees t || sends && refusal.isNone)
                then t else cell.synced }
        else p.row.cell? j) ∧
      q.report =
        p.report.merge
          { toEcs := (!cell.value.agrees t && flow.readsHost).toNat
            toHost := (sends && refusal.isNone).toNat
            failures := (refusal.map (.synchronization handle b.capability)).toList } := by
  intro sends refusal q
  obtain ⟨hpulled, hrow, hreport⟩ := pull_eq hc flow t
  have hobject := p.object_pull flow b.component cell t
  simp only [q, reached]
  generalize p.pull flow b.component cell t = y at hpulled hrow hreport hobject ⊢
  obtain ⟨pulled, p'⟩ := y
  dsimp only at hpulled hrow hreport hobject ⊢
  obtain ⟨hsent, hobject', hreport'⟩ := p'.send_eq flow handle b.capability x t
  have hrow' := p'.row_send flow handle b.capability x t
  rw [hobject] at hsent hobject' hreport'
  generalize p'.send flow handle b.capability x t = y at hsent hobject' hreport' hrow' ⊢
  obtain ⟨sent, r⟩ := y
  dsimp only at hsent hobject' hreport' hrow' ⊢
  rw [← hrow'] at hrow
  have hmerged : r.report = p.report.merge
      { toEcs := (!cell.value.agrees t && flow.readsHost).toNat
        toHost := (sends && refusal.isNone).toNat
        failures := (refusal.map (.synchronization handle b.capability)).toList } := by
    rw [hreport', hreport, SyncReport.merge_assoc]
    simp only [SyncReport.merge, Nat.zero_add, Nat.add_zero, List.nil_append]
    rfl
  rw [show (cell.value.agrees t || flow.readsHost) = pulled from hpulled.symm,
    show (x.agrees t || sends && refusal.isNone) = sent from hsent.symm]
  split
  · have hcell : r.row.cell? b.component = some _ := (hrow b.component).trans (if_pos rfl)
    obtain ⟨hagreed, hagreed', -⟩ := r.agree_object b.component t
    refine ⟨hagreed.trans hobject', fun j => ?_, hagreed'.trans hmerged⟩
    rw [cell?_agree r hcell, hrow]
    split <;> rfl
  · exact ⟨hobject', hrow, hmerged⟩

section Visit

variable {direction flow : Direction} {b : Binding} {p : Pass (Watched ο)} {cell : Cell}

/-- Where the two sides differ, the target is where the exchange takes them. -/
theorem exchanges_settle (hc : p.row.cell? b.component = some cell) (handle : Handle) {x : Value}
    (hanswer : p.object.answer b = .ok x) (hdiffers : x.agrees cell.value = false) :
    Exchanges b (b.exchange handle flow cell (p.object.answer b) (p.object.accept b)) p
      ((p.asked b.capability).settle flow handle b x cell) := by
  obtain ⟨hobject, hrow, hreport⟩ :=
    reached_eq (p := (p.asked b.capability).diverged handle b x cell) hc flow handle x
      (target b x cell)
  rw [hanswer, Binding.exchange, settle_eq]
  simp only [hdiffers, Bool.false_eq_true, ↓reduceIte]
  refine ⟨?_, hrow, ?_⟩
  · rw [← List.singleton_append, Watched.after_append]
    exact hobject
  · rw [hreport]
    simp only [diverged, asked, SyncReport.merge, Nat.add_zero]
    congr 1
    split <;> rfl

/-- A visit that is not idle is an exchange. -/
theorem exchanges_visit (h : ¬b.Idle direction p) (handle : Handle) :
    ∃ flow cell, b.direction.restrict direction = some flow ∧
      p.row.cell? b.component = some cell ∧
      Exchanges b (b.exchange handle flow cell (p.object.answer b) (p.object.accept b)) p
        (visit direction handle p b) := by
  obtain ⟨flow, cell, hflow, hcell, hvisit⟩ := visit_of_not_idle h handle
  refine ⟨flow, cell, hflow, hcell, ?_⟩
  rw [hvisit, show HostObject.read p.object b.capability =
    (p.object.answer b, p.object.after [.read b.capability]) from rfl]
  cases hanswer : p.object.answer b with
  | error source =>
    exact ⟨rfl, Row.cell?_eq_ite hcell, by simp [asked, fail, Binding.exchange, SyncReport.merge]⟩
  | ok x =>
    dsimp only
    split
    · rename_i hagrees
      obtain ⟨hobject, hreport, -⟩ := (p.asked b.capability).agree_object b.component x
      simp only [Binding.exchange, hagrees, ↓reduceIte]
      exact ⟨hobject, (p.asked b.capability).cell?_agree hcell x,
        hreport.trans p.report.merge_empty.symm⟩
    · rename_i hdiffers
      rw [← hanswer]
      exact exchanges_settle hcell handle hanswer (Bool.eq_false_iff.mpr hdiffers)

end Visit

/-! ## Visits one after another -/

/-- What visits ask of the host object, and what they add to the report : the failures are the
refused accesses. -/
structure Adds (handle : Handle) (as : List Access) (r : SyncReport) (p q : Pass (Watched ο)) :
    Prop where
  object : q.object = p.object.after as
  report : q.report = p.report.merge r
  failures : r.failures = Access.failures handle p.object.object as

theorem Adds.refl (handle : Handle) (p : Pass (Watched ο)) : Adds handle [] {} p p :=
  ⟨p.object.after_nil.symm, p.report.merge_empty.symm, rfl⟩

theorem Adds.trans {handle : Handle} {as bs : List Access} {r s : SyncReport}
    {p q z : Pass (Watched ο)} (h : Adds handle as r p q) (h' : Adds handle bs s q z) :
    Adds handle (as ++ bs) (r.merge s) p z := by
  refine ⟨?_, ?_, ?_⟩
  · rw [h'.object, h.object, Watched.after_append]
  · rw [h'.report, h.report, SyncReport.merge_assoc]
  · rw [Access.failures_append, SyncReport.merge, h.failures, h'.failures, h.object]
    rfl

theorem Exchanges.adds {b : Binding} {handle : Handle} {flow : Direction} {cell : Cell}
    {p q : Pass (Watched ο)}
    (h : Exchanges b (b.exchange handle flow cell (p.object.answer b) (p.object.accept b)) p q) :
    ∃ as r, Adds handle as r p q :=
  ⟨_, _, h.object, h.report, b.failures_exchange handle flow cell p.object⟩

theorem adds_visit (direction : Direction) (handle : Handle) (p : Pass (Watched ο)) (b : Binding) :
    ∃ as r, Adds handle as r p (visit direction handle p b) := by
  by_cases hidle : b.Idle direction p
  · rw [visit_of_idle hidle]
    exact ⟨_, _, .refl handle p⟩
  · obtain ⟨flow, cell, -, -, hvisit⟩ := exchanges_visit hidle handle
    exact hvisit.adds

theorem adds_foldl (direction : Direction) (handle : Handle) (bs : List Binding)
    (p : Pass (Watched ο)) : ∃ as r, Adds handle as r p (bs.foldl (visit direction handle) p) := by
  induction bs generalizing p with
  | nil => exact ⟨_, _, .refl handle p⟩
  | cons b bs ih =>
    obtain ⟨as, r, hone⟩ := adds_visit direction handle p b
    obtain ⟨as', r', hrest⟩ := ih (visit direction handle p b)
    exact ⟨_, _, hone.trans hrest⟩

/-- A component whose binding is not visited is left alone. -/
theorem cell?_foldl (direction : Direction) (handle : Handle) {id : ComponentId}
    {bs : List Binding} (hbs : ∀ b ∈ bs, b.component ≠ id) (p : Pass (Watched ο)) :
    (bs.foldl (visit direction handle) p).row.cell? id = p.row.cell? id := by
  induction bs generalizing p with
  | nil => rfl
  | cons b bs ih =>
    rw [List.foldl_cons, ih (fun c hc => hbs c (List.mem_cons_of_mem _ hc)),
      (confined_visit direction handle p b).others id (hbs b List.mem_cons_self).symm]

end Pass

section Tables

variable (t : Table) (direction : Direction) (handle : Handle) (object : ο) (row : Row)
  (journal : Journal)

/-- A pass goes on from binding to binding. -/
theorem Table.watch_append (bs cs : List Binding) :
    (t.withBindings (bs ++ cs)).watch direction handle object row journal =
      cs.foldl (Pass.visit direction handle)
        ((t.withBindings bs).watch direction handle object row journal) :=
  List.foldl_append

/-- The visit to a binding in its place, and the rest of the pass. -/
theorem Table.watch_of_split {before after : List Binding} {b : Binding}
    (hsplit : t.bindings = before ++ b :: after) :
    (t.withBindings (before ++ [b])).watch direction handle object row journal =
        Pass.visit direction handle
          ((t.withBindings before).watch direction handle object row journal) b ∧
      t.watch direction handle object row journal =
        after.foldl (Pass.visit direction handle)
          ((t.withBindings (before ++ [b])).watch direction handle object row journal) := by
  refine ⟨t.watch_append direction handle object row journal before [b], ?_⟩
  rw [← watch_append, List.append_assoc, List.singleton_append, ← hsplit]
  rfl

/-- A pass reports the refused accesses, and nothing else fails. -/
theorem Table.failures_synchronize :
    (t.synchronize direction handle object row journal).report.failures =
      Access.failures handle object
        (t.watch direction handle object row journal).object.accesses := by
  obtain ⟨as, r, hall⟩ := Pass.adds_foldl direction handle t.bindings
    { object := (⟨object, []⟩ : Watched ο), row, report := { entities := 1 }, journal }
  have hobject : (t.watch direction handle object row journal).object =
      Watched.after ⟨object, []⟩ as := hall.object
  have hreport : (t.watch direction handle object row journal).report =
      SyncReport.merge { entities := 1 } r := hall.report
  rw [← unwatched_watch, hobject]
  show (t.watch direction handle object row journal).report.failures = _
  rw [hreport, Watched.after, List.nil_append]
  exact hall.failures

end Tables

/-! ## Host objects that can be read again -/

/-- A host object says the same of a capability as before. -/
structure Readings.Kept {ο : Type} [HostObject ο] (get? : ο → Capability → Option Value)
    (c : Capability) (o o' : ο) : Prop where
  property : get? o' c = get? o c
  exposes : HostObject.exposes o' c = HostObject.exposes o c

/-- How a host object can be understood as holding values that stay : reading leaves them, and a
write, whether it is accepted or refused, can only change what is written. -/
structure Readings (ο : Type) [HostObject ο] where
  /-- The objects that are so understood. -/
  holds : ο → Prop
  get? : ο → Capability → Option Value
  exposes : ∀ {o}, holds o → ∀ {c v}, get? o c = some v → HostObject.exposes o c = true
  answer : ∀ {o}, holds o → ∀ {c v}, get? o c = some v → (HostObject.read o c).1 = .ok v
  reading : ∀ {o}, holds o → ∀ c, holds (HostObject.read o c).2 ∧
    ∀ d, Readings.Kept get? d o (HostObject.read o c).2
  writing : ∀ {o}, holds o → ∀ c v, holds (HostObject.write o c v).2 ∧
    ∀ d, d ≠ c → Readings.Kept get? d o (HostObject.write o c v).2

/-- Accesses leave what they do not write. -/
theorem Readings.after (s : Readings ο) {as : List Access} {object : ο} (ho : s.holds object) :
    s.holds (as.foldl Access.after object) ∧
      ∀ c, (∀ v, Access.write c v ∉ as) →
        Readings.Kept s.get? c object (as.foldl Access.after object) := by
  induction as generalizing object with
  | nil => exact ⟨ho, fun _ _ => ⟨rfl, rfl⟩⟩
  | cons a as ih =>
    have hone : s.holds (a.after object) ∧
        ∀ c, (∀ v, a ≠ .write c v) → Readings.Kept s.get? c object (a.after object) := by
      cases a with
      | read d => exact ⟨(s.reading ho d).1, fun c _ => (s.reading ho d).2 c⟩
      | write d w =>
        refine ⟨(s.writing ho d w).1, fun c hc => (s.writing ho d w).2 c fun heq => ?_⟩
        exact hc w (by rw [heq])
    obtain ⟨hholds, hrest⟩ := ih hone.1
    refine ⟨hholds, fun c hc => ?_⟩
    have hfirst := hone.2 c fun v heq => hc v (heq ▸ List.mem_cons_self)
    have hlater := hrest c fun v hv => hc v (List.mem_cons_of_mem _ hv)
    exact ⟨hlater.property.trans hfirst.property, hlater.exposes.trans hfirst.exposes⟩

/-- The properties of a bag. -/
def PropertyBag.readings : Readings PropertyBag where
  holds _ := True
  get? := PropertyBag.get?
  exposes _ _ _ h := by simp [HostObject.exposes, h]
  answer _ _ _ h := by simp [HostObject.read, h]
  reading {o} _ c := by
    refine ⟨trivial, fun d => ?_⟩
    simp only [HostObject.read]
    split <;> exact ⟨rfl, rfl⟩
  writing {o} _ c v := by
    refine ⟨trivial, fun d hd => ?_⟩
    have hset : (o.set c v).get? d = o.get? d := by rw [PropertyBag.get?_set, if_neg hd]
    simp only [HostObject.write]
    split
    · exact ⟨hset, congrArg Option.isSome hset⟩
    · exact ⟨rfl, rfl⟩

namespace ScriptedObject

theorem script?_setScript (o : ScriptedObject) (c d : Capability) (script : Script) :
    (o.setScript c script).script? d = if d = c then some script else o.script? d := by
  unfold setScript script?
  rw [List.find?_append, List.find?_filter]
  by_cases hd : d = c
  · have hnone : (o.scripts.find? fun _ => false) = none := by simp
    simp [hd, hnone]
  · have hsame : (fun s : Capability × Script =>
        decide (decide (s.1 ≠ c) = true ∧ decide (s.1 = d) = true)) =
          fun s => decide (s.1 = d) := by
      funext s
      by_cases hs : s.1 = d <;> simp [hs, hd]
    rw [if_neg hd, hsame]
    simp [Ne.symm hd]

/-- What a script says of other capabilities is left alone by a write. -/
theorem script?_write {o : ScriptedObject} {c d : Capability} (hd : d ≠ c) (v : Value) :
    (o.write c v).2.script? d = o.script? d := by
  unfold write
  split
  · rfl
  · split
    · rw [script?_setScript, if_neg hd]
    · rfl
    · rw [script?_setScript, if_neg hd]
    · rfl

theorem script?_read (o : ScriptedObject) (c d : Capability) :
    (o.read c).2.script? d = o.script? d := by
  unfold read
  dsimp only
  split
  · rfl
  · split <;> rfl

/-- What is read goes by the script of the capability alone. -/
theorem fst_read (o : ScriptedObject) (c : Capability) :
    (o.read c).1 =
      match o.script? c with
      | none => .error (.unsupported c)
      | some script =>
        match script.read with
        | none => .ok script.value
        | some refusal => .error (refusal.toError c) := by
  have hcounted : ScriptedObject.script? { o with hold := o.hold.map SelfHold.afterRead } c =
      o.script? c := rfl
  simp only [read, hcounted]
  cases o.script? c with
  | none => rfl
  | some script => cases hread : script.read <;> simp [hread]

/-- The values that a script exposes and does not refuse to read. -/
def readings : Readings ScriptedObject where
  holds _ := True
  get? o c := (o.script? c).bind fun s => if s.exposed && s.read.isNone then some s.value else none
  exposes {o} _ c v h := by
    obtain ⟨s, hs, hv⟩ := Option.bind_eq_some_iff.mp h
    simp_all [HostObject.exposes]
  answer {o} _ c v h := by
    obtain ⟨s, hs, hv⟩ := Option.bind_eq_some_iff.mp h
    have hcounted : ScriptedObject.script? { o with hold := o.hold.map SelfHold.afterRead } c =
        some s := hs
    simp_all [HostObject.read, ScriptedObject.read]
  reading {o} _ c := by
    refine ⟨trivial, fun d => ?_⟩
    have hscript : (HostObject.read o c).2.script? d = o.script? d := o.script?_read c d
    exact ⟨by rw [hscript], by simp only [HostObject.exposes, hscript]⟩
  writing {o} _ c v := by
    refine ⟨trivial, fun d hd => ?_⟩
    have hscript : (HostObject.write o c v).2.script? d = o.script? d := script?_write hd v
    exact ⟨by rw [hscript], by simp only [HostObject.exposes, hscript]⟩

end ScriptedObject

end Tether
