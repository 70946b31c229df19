import Tether.Proofs.Evolution

/-!
# Structural operations in tandem

Binding, tearing down, reaping, adding and removing components and scheduling signals work on a
part of the state only, its `Core` : registry, world, table, outbox, surroundings, the waiting
signals and the time. The `Rest` (settings, listeners and what they share, queue and frame) they
leave as it is, and journal and incidents they only write to.

So two coordinators with one core give the same answer to such an operation, have one core
afterwards, and send the same incidents (`Coordinator.Tandem`). There is one lemma for each
operation, up to `Coordinator.tandem_perform` for what a mutation asks for.
-/

set_option linter.unusedSectionVars false

namespace Tether

/-- Whether an incident is about a capability that could not be read at binding. -/
def Incident.isMaterialization : Incident → Bool
  | .materialization _ => true
  | _ => false

namespace Coordinator

/-- What structural operations work on. -/
@[ext] structure Core (ο σ : Type) where
  registry : Registry
  world : World
  table : Table
  outbox : Array Signal
  surroundings : Surroundings ο σ
  delayed : List Delayed
  time : Duration

/-- What structural operations leave as it is. -/
@[ext] structure Rest (ο σ : Type) where
  settings : Settings
  switchboard : Switchboard (Surroundings ο σ)
  listeners : List (NamedSubscription × NamedListener (Surroundings ο σ))
  lookup : Lookup
  nextNumber : Nat
  queue : MutationQueue
  frame : Frame
  /-- What listeners share. -/
  ambient : σ

variable {ο σ : Type} [HostObject ο]

def core (c : Coordinator ο σ) : Core ο σ where
  registry := c.registry
  world := c.world
  table := c.table
  outbox := c.outbox
  surroundings := c.surroundings
  delayed := c.named.delayed
  time := c.frame.time

def rest (c : Coordinator ο σ) : Rest ο σ where
  settings := c.settings
  switchboard := c.switchboard
  listeners := c.named.listeners
  lookup := c.named.lookup
  nextNumber := c.named.nextNumber
  queue := c.queue
  frame := c.frame
  ambient := c.surroundings.ambient

/-- The state sends incidents on its way to another one, all about capabilities that could not be
read at binding, and keeps the rest. -/
structure Sends (c : Coordinator ο σ) (is : Array Incident) (c' : Coordinator ο σ) : Prop where
  rest : c'.rest = c.rest
  incidents : c'.incidents = c.incidents.map (· ++ is)
  materialization : ∀ i ∈ is, i.isMaterialization = true

/-- From `c` to `c'` the same happens as from `d` to `d'`. -/
structure Tandem (c c' d d' : Coordinator ο σ) : Prop where
  core : c'.core = d'.core
  sends : ∃ is, c.Sends is c' ∧ d.Sends is d'

theorem Sends.refl (c : Coordinator ο σ) : c.Sends #[] c :=
  ⟨rfl, by cases c.incidents <;> simp, by simp⟩

theorem Sends.of_eq {c c' : Coordinator ο σ} (hr : c'.rest = c.rest)
    (hi : c'.incidents = c.incidents) : c.Sends #[] c' :=
  ⟨hr, hi.trans (Sends.refl c).incidents, by simp⟩

theorem Sends.trans {c c' c'' : Coordinator ο σ} {is js : Array Incident} (h : c.Sends is c')
    (h' : c'.Sends js c'') : c.Sends (is ++ js) c'' := by
  refine ⟨h'.rest.trans h.rest, ?_, fun i hi => ?_⟩
  · rw [h'.incidents, h.incidents]
    cases c.incidents <;> simp
  · rcases Array.mem_append.mp hi with hi | hi
    · exact h.materialization i hi
    · exact h'.materialization i hi

section Tandem

variable {c c' c'' d d' d'' : Coordinator ο σ}

theorem Tandem.refl (h : c.core = d.core) : Tandem c c d d := ⟨h, #[], .refl c, .refl d⟩

theorem Tandem.trans (h : Tandem c c' d d') (h' : Tandem c' c'' d' d'') :
    Tandem c c'' d d'' := by
  obtain ⟨is, hc, hd⟩ := h.sends
  obtain ⟨js, hc', hd'⟩ := h'.sends
  exact ⟨h'.core, is ++ js, hc.trans hc', hd.trans hd'⟩

/-- Nothing is sent on the way. -/
theorem Tandem.silent (h : c'.core = d'.core) (hc : c'.rest = c.rest)
    (hci : c'.incidents = c.incidents) (hd : d'.rest = d.rest)
    (hdi : d'.incidents = d.incidents) : Tandem c c' d d' :=
  ⟨h, #[], .of_eq hc hci, .of_eq hd hdi⟩

theorem Tandem.foldl {α : Type} {f : Coordinator ο σ → α → Coordinator ο σ}
    (hf : ∀ {c d : Coordinator ο σ} (a : α), c.core = d.core → Tandem c (f c a) d (f d a))
    (as : List α) (h : c.core = d.core) : Tandem c (as.foldl f c) d (as.foldl f d) := by
  induction as generalizing c d with
  | nil => exact .refl h
  | cons a as ih =>
    have hone := hf a h
    exact hone.trans (ih hone.core)

end Tandem

/-! ## One lemma for each operation -/

section Operations

variable {c d : Coordinator ο σ} (h : c.core = d.core)
include h

theorem registry_of_core : d.registry = c.registry := (congrArg Core.registry h).symm

theorem world_of_core : d.world = c.world := (congrArg Core.world h).symm

theorem hosts_of_core : d.hosts = c.hosts :=
  (congrArg (fun x => x.surroundings.hosts) h).symm

theorem tandem_note (n m : Notice) : Tandem c (c.note n) d (d.note m) :=
  .silent h rfl rfl rfl rfl

theorem tandem_announce (s : Signal) : Tandem c (c.announce s) d (d.announce s) := by
  obtain ⟨hr, hw, ht, ho, hs, hd, hn⟩ := Core.ext_iff.mp h
  refine .silent (Core.ext hr hw ht ?_ hs hd hn) rfl rfl rfl rfl
  exact congrArg (Array.push · s) ho

theorem tandem_unbind (j : Handle) :
    (c.unbind j).1 = (d.unbind j).1 ∧ Tandem c (c.unbind j).2 d (d.unbind j).2 := by
  obtain ⟨hr, hw, ht, ho, hs, hd, hn⟩ := Core.ext_iff.mp h
  simp only [core] at hr hw ht ho hs hd hn
  cases hb : c.registry.bound j with
  | error error =>
    rw [unbind_of_error hb, unbind_of_error (hr ▸ hb)]
    exact ⟨rfl, .refl h⟩
  | ok e =>
    rw [unbind_of_bound hb, unbind_of_bound (hr ▸ hb)]
    refine ⟨rfl, .silent ?_ rfl rfl rfl rfl⟩
    simp only [tornDown, core, note, announce, hr, hw, ht, ho, hs, hd, hn]

theorem tandem_unbindHost (id : HostId) :
    (c.unbindHost id).1 = (d.unbindHost id).1 ∧
      Tandem c (c.unbindHost id).2 d (d.unbindHost id).2 := by
  unfold unbindHost
  rw [registry_of_core h]
  cases c.registry.lookup? id with
  | none => exact ⟨rfl, .refl h⟩
  | some j => exact tandem_unbind h j

theorem tandem_addComponent (j : Handle) (id : ComponentId) (value : Value) :
    (c.addComponent j id value).1 = (d.addComponent j id value).1 ∧
      Tandem c (c.addComponent j id value).2 d (d.addComponent j id value).2 := by
  obtain ⟨hr, hw, ht, ho, hs, hd, hn⟩ := Core.ext_iff.mp h
  simp only [core] at hr hw ht ho hs hd hn
  unfold addComponent
  rw [registry_of_core h, world_of_core h]
  cases c.registry.bound j with
  | error error => exact ⟨rfl, .refl h⟩
  | ok e =>
    cases c.world.row? j with
    | none => exact ⟨rfl, .refl h⟩
    | some row =>
      dsimp only
      split
      · refine ⟨rfl, .silent ?_ rfl rfl rfl rfl⟩
        exact Core.ext rfl rfl ht ho hs hd hn
      · refine ⟨rfl, .silent ?_ rfl rfl rfl rfl⟩
        exact Core.ext rfl rfl ht (congrArg (Array.push · _) ho) hs hd hn

theorem tandem_removeComponent (j : Handle) (id : ComponentId) :
    (c.removeComponent j id).1 = (d.removeComponent j id).1 ∧
      Tandem c (c.removeComponent j id).2 d (d.removeComponent j id).2 := by
  obtain ⟨hr, hw, ht, ho, hs, hd, hn⟩ := Core.ext_iff.mp h
  simp only [core] at hr hw ht ho hs hd hn
  unfold removeComponent
  rw [registry_of_core h, world_of_core h]
  cases c.registry.bound j with
  | error error => exact ⟨rfl, .refl h⟩
  | ok e =>
    cases c.world.value? j id with
    | none => exact ⟨rfl, .refl h⟩
    | some value =>
      refine ⟨rfl, .silent ?_ rfl rfl rfl rfl⟩
      exact Core.ext rfl rfl ht (congrArg (Array.push · _) ho) hs hd hn

theorem tandem_delaySignal (name : String) (entities : List Handle) (delay : Duration) :
    (c.delaySignal name entities delay).1 = (d.delaySignal name entities delay).1 ∧
      Tandem c (c.delaySignal name entities delay).2 d (d.delaySignal name entities delay).2 := by
  obtain ⟨hr, hw, ht, ho, hs, hd, hn⟩ := Core.ext_iff.mp h
  simp only [core] at hr hw ht ho hs hd hn
  simp only [delaySignal, NamedSignals.schedule, NamedSignals.delay, raising, hn]
  cases d.frame.time.add? delay with
  | none => exact ⟨rfl, .silent h rfl rfl rfl rfl⟩
  | some due =>
    refine ⟨rfl, .silent ?_ rfl rfl rfl rfl⟩
    exact Core.ext hr hw ht ho hs (congrArg (· ++ _) hd) hn

/-! ### Binding -/

theorem tandem_reportMaterialization (failure : Error) :
    Tandem c (c.reportMaterialization failure) d (d.reportMaterialization failure) := by
  have hone (c : Coordinator ο σ) :
      c.Sends #[.materialization failure] (c.reportMaterialization failure) :=
    ⟨rfl, by simp only [reportMaterialization, report, note]; cases c.incidents <;> simp,
      by simp [Incident.isMaterialization]⟩
  exact ⟨h, _, hone c, hone d⟩

theorem tandem_announceComponent (j : Handle) (id : ComponentId) :
    Tandem c (announceComponent j c id) d (announceComponent j d id) := by
  unfold announceComponent
  rw [world_of_core h]
  cases c.world.value? j id with
  | none => exact .refl h
  | some value => exact tandem_announce h _

theorem tandem_fill (j : Handle) (host : HostRef) (object : ο) :
    (c.fill j host object).1 = (d.fill j host object).1 ∧
      (c.fill j host object).2.1 = (d.fill j host object).2.1 ∧
      Tandem c (c.fill j host object).2.2 d (d.fill j host object).2.2 := by
  obtain ⟨hr, hw, ht, ho, hs, hd, hn⟩ := Core.ext_iff.mp h
  simp only [core] at hr hw ht ho hs hd hn
  unfold fill
  rw [world_of_core h]
  cases c.world.row? j with
  | none => exact ⟨rfl, rfl, .refl h⟩
  | some row =>
    simp only [ht, hosts_of_core h, true_and]
    refine .silent ?_ rfl rfl rfl rfl
    simp only [core, setHosts, hr, ho, hs, hd, hn]

theorem tandem_complete (registry : Registry) (j : Handle) (host : HostRef)
    (components : List ComponentId) (failures : List Error) :
    Tandem c (c.complete registry j host components failures) d
      (d.complete registry j host components failures) := by
  obtain ⟨hr, hw, ht, ho, hs, hd, hn⟩ := Core.ext_iff.mp h
  simp only [core] at hr hw ht ho hs hd hn
  have hregistry : Tandem c
      { c with registry := if failures.isEmpty then registry else registry.markDegraded j } d
      { d with registry := if failures.isEmpty then registry else registry.markDegraded j } :=
    .silent (Core.ext rfl hw ht ho hs hd hn) rfl rfl rfl rfl
  have hfailures := hregistry.trans
    (.foldl (fun failure h => tandem_reportMaterialization h failure) failures hregistry.core)
  have hcreated := hfailures.trans (tandem_announce hfailures.core (.entityCreated j host.id))
  have hcomponents := hcreated.trans
    (.foldl (fun id h => tandem_announceComponent h j id) components hcreated.core)
  exact hcomponents.trans (tandem_note hcomponents.core _ _)

theorem tandem_attached (host : HostRef) (object : ο) :
    Tandem c (c.attached host object) d (d.attached host object) := by
  obtain ⟨hr, hw, ht, ho, hs, hd, hn⟩ := Core.ext_iff.mp h
  simp only [core] at hr hw ht ho hs hd hn
  have hopening : Tandem c (c.opening host) d (d.opening host) := by
    refine .silent ?_ rfl rfl rfl rfl
    simp only [opening, core, note, hr, hw, ht, ho, hs, hd, hn]
  obtain ⟨hcomponents, hfailures, hfill⟩ :=
    tandem_fill hopening.core c.registry.allocator.alloc.1 host object
  simp only [attached, registry_of_core h, ← hcomponents, ← hfailures]
  exact (hopening.trans hfill).trans (tandem_complete hfill.core _ _ _ _ _)

theorem tandem_attach (host : HostRef) :
    (c.attach host).1 = (d.attach host).1 ∧
      Tandem c (c.attach host).2 d (d.attach host).2 := by
  have hhosts := hosts_of_core h
  have hregistry := registry_of_core h
  cases ho : c.hosts.find? host with
  | none =>
    rw [attach_of_gone ho, attach_of_gone (hhosts.symm ▸ ho)]
    exact ⟨rfl, .refl h⟩
  | some object =>
    cases hf : c.registry.handleOf? host.id with
    | some j =>
      rw [attach_of_bound ho hf, attach_of_bound (hhosts.symm ▸ ho) (hregistry.symm ▸ hf)]
      exact ⟨rfl, .refl h⟩
    | none =>
      rw [attach_of_fresh ho hf, attach_of_fresh (hhosts.symm ▸ ho) (hregistry.symm ▸ hf)]
      exact ⟨by rw [hregistry], tandem_attached h host object⟩

theorem tandem_bind (host : HostRef) :
    (c.bind host).1 = (d.bind host).1 ∧ Tandem c (c.bind host).2 d (d.bind host).2 := by
  have hattach := tandem_attach h host
  unfold bind
  generalize c.attach host = x at hattach
  generalize d.attach host = y at hattach
  obtain ⟨a, c'⟩ := x
  obtain ⟨b, d'⟩ := y
  obtain ⟨rfl, ht⟩ := hattach
  cases a with
  | error error => exact ⟨rfl, ht⟩
  | ok j =>
    dsimp only
    rw [hosts_of_core ht.core]
    split
    · exact ⟨rfl, ht⟩
    · have hnoted := ht.trans
        (tandem_note ht.core (.droppedWhileBinding host.id j) (.droppedWhileBinding host.id j))
      obtain ⟨hanswer, hunbind⟩ := tandem_unbind hnoted.core j
      have hall := hnoted.trans hunbind
      split <;> rename_i hc <;> split <;> rename_i hd <;> rw [hc, hd] at hanswer hall
      · cases hanswer
        exact ⟨rfl, hall⟩
      · cases hanswer
      · cases hanswer
      · exact ⟨rfl, hall⟩

/-! ### Reaping -/

theorem tandem_reapOne (count : Nat) (j : Handle) :
    (reapOne (count, c) j).1 = (reapOne (count, d) j).1 ∧
      Tandem c (reapOne (count, c) j).2 d (reapOne (count, d) j).2 := by
  obtain ⟨hanswer, hunbind⟩ := tandem_unbind h j
  unfold reapOne
  dsimp only
  split <;> rename_i hc <;> split <;> rename_i hd <;> rw [hc, hd] at hanswer hunbind
  · exact ⟨rfl, hunbind⟩
  · cases hanswer
  · cases hanswer
  · exact ⟨rfl, hunbind.trans (tandem_note hunbind.core _ _)⟩

theorem tandem_foldl_reapOne (js : List Handle) (count : Nat) :
    (js.foldl reapOne (count, c)).1 = (js.foldl reapOne (count, d)).1 ∧
      Tandem c (js.foldl reapOne (count, c)).2 d (js.foldl reapOne (count, d)).2 := by
  induction js generalizing count c d with
  | nil => exact ⟨rfl, .refl h⟩
  | cons j js ih =>
    obtain ⟨hcount, hone⟩ := tandem_reapOne h count j
    rw [List.foldl_cons, List.foldl_cons]
    generalize reapOne (count, c) j = x at hcount hone
    generalize reapOne (count, d) j = y at hcount hone
    obtain ⟨n, c'⟩ := x
    obtain ⟨m, d'⟩ := y
    obtain rfl : n = m := hcount
    obtain ⟨hrest, hall⟩ := ih hone.core n
    exact ⟨hrest, hone.trans hall⟩

theorem tandem_reap : c.reap.1 = d.reap.1 ∧ Tandem c c.reap.2 d d.reap.2 := by
  obtain ⟨hcount, hfold⟩ := tandem_foldl_reapOne h (c.registry.orphans c.hosts) 0
  unfold reap
  rw [registry_of_core h, hosts_of_core h]
  dsimp only
  rw [← hcount]
  refine ⟨rfl, ?_⟩
  split
  · exact hfold.trans (tandem_note hfold.core _ _)
  · exact hfold

/-! ### Mutations -/

theorem tandem_perform (m : Mutation) :
    (c.perform m).1 = (d.perform m).1 ∧ Tandem c (c.perform m).2 d (d.perform m).2 := by
  cases m with
  | create host =>
    obtain ⟨hanswer, hall⟩ := tandem_bind h host
    exact ⟨by simp only [perform, hanswer], hall⟩
  | destroy target =>
    cases target with
    | handle j =>
      obtain ⟨hanswer, hall⟩ := tandem_unbind h j
      exact ⟨by simp only [perform, hanswer], hall⟩
    | host id =>
      obtain ⟨hanswer, hall⟩ := tandem_unbindHost h id
      exact ⟨by simp only [perform, hanswer], hall⟩
  | addComponent j id value =>
    obtain ⟨hanswer, hall⟩ := tandem_addComponent h j id value
    exact ⟨by simp only [perform, hanswer], hall⟩
  | removeComponent j id =>
    obtain ⟨hanswer, hall⟩ := tandem_removeComponent h j id
    exact ⟨by simp only [perform, hanswer], hall⟩
  | signal name entities delay =>
    obtain ⟨hanswer, hall⟩ := tandem_delaySignal h name entities (delay.getD .zero)
    exact ⟨by simp only [perform, hanswer], hall⟩

end Operations

end Coordinator

end Tether
