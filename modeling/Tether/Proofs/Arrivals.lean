import Tether.Proofs.Requests
import Tether.Proofs.SmoothFrames

/-!
# Arrivals

In a workload the host runtime owns all objects in existence (`Hosts.AllOwned`), so none goes away
while it is used, and binding host objects that are there and had no entity gives each of them one
(`Coordinator.arrives_run`). `Coordinator.AtRest.step` says what a whole frame comes to then, from
one moment of rest to the next : those whose object is gone are reaped, those that were asked for
are bound, nothing is refused, and no listener is failed.

Slots that were given back are used before new ones, so there are never more slots than entities at
a time (`Coordinator.capacity_alloc_le`).
-/

set_option linter.unusedSectionVars false

namespace Tether

/-- Where the slots below a number are filled, there are at least so many. -/
theorem Slots.le_size {α : Type} {s : Slots α} {n : Nat} (h : ∀ i < n, (s.get? i).isSome = true) :
    n ≤ s.size := by
  induction n generalizing s with
  | zero => exact Nat.zero_le _
  | succ n ih =>
    obtain ⟨a, ha⟩ := Option.isSome_iff_exists.mp (h n (Nat.lt_succ_self n))
    have hrest := ih (s := s.clear n) fun i hi => by
      rw [get?_clear, if_neg (Nat.ne_of_lt hi)]
      exact h i (Nat.lt_succ_of_lt hi)
    have hsize := size_clear_of_eq_some ha
    omega

/-! ## Host objects that their runtime owns -/

namespace Hosts

variable {ο : Type} [HostObject ο] {x y z : Hosts ο}

/-- The host runtime owns every object in existence. -/
def AllOwned (x : Hosts ο) : Prop := ∀ a cell, x.cells.get? a = some cell → cell.owned = true

/-- Under the same addresses there are objects, with the same owner. -/
structure Alike (x y : Hosts ο) : Prop where
  created : y.created = x.created
  owned : ∀ a, (y.cells.get? a).map HostCell.owned = (x.cells.get? a).map HostCell.owned

theorem Alike.refl (x : Hosts ο) : x.Alike x := ⟨rfl, fun _ => rfl⟩

theorem Alike.trans (h : x.Alike y) (h' : y.Alike z) : x.Alike z :=
  ⟨h'.created.trans h.created, fun a => (h'.owned a).trans (h.owned a)⟩

theorem Alike.allOwned (h : x.Alike y) (hx : x.AllOwned) : y.AllOwned := by
  intro a cell hcell
  have howned := h.owned a
  rw [hcell] at howned
  obtain ⟨old, hold, heq⟩ := Option.map_eq_some_iff.mp howned.symm
  exact heq ▸ hx a old hold

theorem Alike.alive_eq (h : x.Alike y) (ref : HostRef) : y.alive ref = x.alive ref := by
  have howned := congrArg Option.isSome (h.owned ref.address)
  rwa [Option.isSome_map, Option.isSome_map] at howned

/-- An object that its runtime owns is still there after a call. -/
theorem AllOwned.alike_putBack (h : x.AllOwned) (ref : HostRef) (object : ο) :
    x.Alike (x.putBack ref object) := by
  refine ⟨created_putBack x ref object, fun a => ?_⟩
  rw [get?_putBack]
  split
  · cases hcell : x.cells.get? a with
    | none => rfl
    | some cell => simp [h a cell hcell]
  · rfl

end Hosts

namespace Coordinator

variable {ο σ : Type} [HostObject ο] {c d e : Coordinator ο σ}

/-! ## Who is bound -/

/-- The bound host objects are those of a list. -/
def Houses (c : Coordinator ο σ) (refs : List HostRef) : Prop :=
  ∀ ref, (∃ h, c.registry.resolve? h = some ref) ↔ ref ∈ refs

section Consistent

variable (hp : c.population.Consistent)
include hp

theorem handleOf?_eq_none_iff {id : HostId} : c.registry.handleOf? id = none ↔
    ∀ h ref, c.registry.resolve? h = some ref → ref.id ≠ id := by
  rw [← lookup?_eq hp, Option.eq_none_iff_forall_ne_some]
  constructor
  · rintro h j ref hj rfl
    exact h j ((lookup?_iff_resolve? hp).mpr ⟨ref, hj, rfl⟩)
  · intro h j hj
    obtain ⟨ref, href, hid⟩ := (lookup?_iff_resolve? hp).mp hj
    exact h j ref href hid

/-- There are as many entities as bound host objects. -/
theorem Houses.size_eq {refs : List HostRef} (hh : c.Houses refs) (hnd : refs.Nodup) :
    c.registry.size = refs.length := by
  have hslots : c.registry.entries.toList.Pairwise fun e e' => e.handle.slot < e'.handle.slot :=
    Slots.pairwise_toList fun he => hp.placed he
  have hhosts : (c.registry.entries.toList.map Entry.host).Nodup := by
    refine List.pairwise_map.mpr (hslots.imp_of_mem fun {e e'} he he' hlt heq => ?_)
    obtain ⟨i, hi⟩ := Slots.mem_toList.mp he
    obtain ⟨j, hj⟩ := Slots.mem_toList.mp he'
    have hmap := hp.mapped hi
    rw [heq, hp.mapped hj, Option.some.injEq] at hmap
    exact Nat.lt_irrefl _ (hmap ▸ hlt)
  have hmem : ∀ ref, ref ∈ c.registry.entries.toList.map Entry.host ↔ ref ∈ refs := by
    intro ref
    rw [← hh ref, List.mem_map]
    simp only [resolve?_eq hp, Option.map_eq_some_iff, Slots.mem_toList]
    constructor
    · rintro ⟨e, ⟨i, hi⟩, rfl⟩
      exact ⟨e.handle, e, find?_of_get? hp hi, rfl⟩
    · rintro ⟨h, e, hf, rfl⟩
      exact ⟨e, ⟨h.slot, (Registry.find?_eq_some_iff.mp hf).1⟩, rfl⟩
  have hperm := (List.perm_ext_iff_of_nodup hhosts hnd).mpr hmem
  rw [← hperm.length_eq, List.length_map, Slots.length_toList]
  exact hp.bindings

/-- A slot is new only if all the others are in use. -/
theorem capacity_alloc_le (hcap : c.registry.allocator.capacity ≤ 2 ^ 32) :
    c.registry.allocator.alloc.2.capacity ≤
      max c.registry.allocator.capacity (c.registry.size + 1) := by
  cases hpool : c.registry.allocator.pool with
  | cons i pool =>
    refine Nat.le_trans (Nat.le_of_eq ?_) (Nat.le_max_left _ _)
    simp [Allocator.alloc, hpool, Allocator.capacity]
  | nil =>
    have hnew : c.registry.allocator.alloc.2.capacity = c.registry.allocator.capacity + 1 := by
      simp [Allocator.alloc, hpool, Allocator.capacity]
    have hfilled : c.registry.allocator.capacity ≤ c.registry.entries.size := by
      refine Slots.le_size fun i hi => ?_
      have hindex : (UInt32.ofNat i).toNat = i :=
        UInt32.toNat_ofNat_of_lt' (Nat.lt_of_lt_of_le hi hcap)
      obtain ⟨e, he, -⟩ | ⟨-, hcount⟩ := slot_cases hp (i := UInt32.ofNat i) (by omega)
      · exact Option.isSome_of_eq_some (hindex ▸ he)
      · rw [hpool] at hcount
        cases hcount
    have hsize : c.registry.size = c.registry.entries.size := hp.bindings
    omega

end Consistent

/-! ## Binding one after another -/

/-- From one state to another the listed host objects got entities, and nothing else changed who
is bound. -/
structure Arrives (c : Coordinator ο σ) (refs : List HostRef) (d : Coordinator ο σ) : Prop where
  consistent : d.population.Consistent
  found : ∀ h e, c.registry.find? h = some e → d.registry.find? h = some e
  bound : ∀ ref, (∃ h, d.registry.resolve? h = some ref) ↔
    (∃ h, c.registry.resolve? h = some ref) ∨ ref ∈ refs
  size : d.registry.size = c.registry.size + refs.length
  capacity : d.registry.allocator.capacity ≤ max c.registry.allocator.capacity d.registry.size
  hosts : c.hosts.Alike d.hosts
  /-- Who is announced is bound. -/
  outbox : ∃ ss, d.outbox.toList = c.outbox.toList ++ ss ∧
    ∀ s ∈ ss, s.kind = .entityCreated → ∃ e, d.registry.find? s.handle = some e

theorem Arrives.refl (hp : c.population.Consistent) : c.Arrives [] c :=
  ⟨hp, fun _ _ h => h, fun ref => by simp, rfl, Nat.le_max_left _ _, .refl _, [], by simp, by simp⟩

theorem Arrives.append {refs refs' : List HostRef} (h : c.Arrives refs d) (h' : d.Arrives refs' e) :
    c.Arrives (refs ++ refs') e := by
  refine ⟨h'.consistent, fun j x hx => h'.found j x (h.found j x hx), fun ref => ?_, ?_, ?_,
    h.hosts.trans h'.hosts, ?_⟩
  · rw [h'.bound, h.bound, List.mem_append, or_assoc]
  · rw [h'.size, h.size, List.length_append, Nat.add_assoc]
  · have hfirst := h.capacity
    have hsecond := h'.capacity
    have hsize := h'.size
    omega
  · obtain ⟨ss, hout, hss⟩ := h.outbox
    obtain ⟨ts, hout', hts⟩ := h'.outbox
    refine ⟨ss ++ ts, by rw [hout', hout, List.append_assoc], fun s hs hkind => ?_⟩
    rcases List.mem_append.mp hs with hs | hs
    · obtain ⟨x, hx⟩ := hss s hs hkind
      exact ⟨x, h'.found _ _ hx⟩
    · exact hts s hs hkind

/-- Whoever has another identity than those who got an entity has one only if it had it before. -/
theorem Arrives.handleOf?_eq_none {refs : List HostRef} (h : c.Arrives refs d)
    (hp : c.population.Consistent) {id : HostId} (hf : c.registry.handleOf? id = none)
    (hnot : id ∉ refs.map HostRef.id) : d.registry.handleOf? id = none := by
  rw [handleOf?_eq_none_iff h.consistent]
  intro j x hx hid
  rcases (h.bound x).mp ⟨j, hx⟩ with ⟨i, hi⟩ | hin
  · exact (handleOf?_eq_none_iff hp).mp hf i x hi hid
  · exact hnot (hid ▸ List.mem_map_of_mem hin)

/-- The host objects of a new entity are those of before. -/
theorem alike_attached (howned : c.hosts.AllOwned) (host : HostRef) (object : ο) :
    c.hosts.Alike (c.attached host object).hosts := by
  simp only [attached, hosts_complete, fill]
  split
  · exact .refl _
  · exact howned.alike_putBack _ _

/-- A host object that its runtime owns is bound for good. -/
theorem bind_of_owned (howned : c.hosts.AllOwned) {host : HostRef} {object : ο}
    (ho : c.hosts.find? host = some object) (hf : c.registry.handleOf? host.id = none) :
    c.bind host = (.ok c.registry.allocator.alloc.1, c.attached host object) := by
  have halive : (c.attached host object).hosts.alive host = true := by
    rw [(alike_attached howned host object).alive_eq]
    exact alive_iff.mpr ⟨object, ho⟩
  simp only [bind, attach_of_fresh ho hf, halive, ↓reduceIte]

theorem arrives_bind (hp : c.population.Consistent) (howned : c.hosts.AllOwned)
    (hcap : c.registry.allocator.capacity ≤ 2 ^ 32) (hroom : c.registry.size + 1 ≤ 2 ^ 32)
    {host : HostRef} (halive : c.hosts.alive host = true)
    (hf : c.registry.handleOf? host.id = none) :
    (c.bind host).1 = .ok c.registry.allocator.alloc.1 ∧ c.Arrives [host] (c.bind host).2 := by
  obtain ⟨object, ho⟩ := alive_iff.mp halive
  have hle := capacity_alloc_le hp hcap
  have hcap' : (c.attached host object).population.capacity ≤ 2 ^ 32 := by
    rw [capacity_attached]
    omega
  obtain ⟨cells, row, degraded, ha, hout⟩ := attached_change object hp hf hcap'
  have hp' := ha.consistent hp hcap'
  have hfind : ∀ g, (c.attached host object).registry.find? g = _ := ha.find?_eq hp hcap'
  have hfree : c.registry.find? c.registry.allocator.alloc.1 = none := by
    have hentry := hp.entryAt?_of_issued (ha.allocator_issued hp hcap')
    rw [Registry.find?, show c.registry.entries.get? _ = none from hentry]
    rfl
  rw [bind_of_owned howned ho hf]
  refine ⟨rfl, hp', fun h x hx => ?_, fun ref => ?_, ha.bindings, ?_, alike_attached howned _ _,
    _, hout, fun s hs hkind => ?_⟩
  · rw [hfind, if_neg fun heq => by rw [heq, hfree] at hx; cases hx]
    exact hx
  · simp only [resolve?_eq hp', resolve?_eq hp, hfind, List.mem_singleton]
    constructor
    · rintro ⟨h, hh⟩
      split at hh
      · exact .inr (Option.some.inj hh).symm
      · exact .inl ⟨h, hh⟩
    · rintro (⟨h, hh⟩ | rfl)
      · refine ⟨h, ?_⟩
        rw [if_neg fun heq => by rw [heq, hfree] at hh; cases hh]
        exact hh
      · exact ⟨c.registry.allocator.alloc.1, by rw [if_pos rfl]; rfl⟩
  · have hsize : (c.attached host object).registry.size = c.registry.size + 1 := ha.bindings
    rw [show (c.attached host object).registry.allocator.capacity = _ from
      c.capacity_attached host object, hsize]
    exact hle
  · have hhandle : s.handle = c.registry.allocator.alloc.1 := by
      rcases List.mem_cons.mp hs with rfl | hs
      · rfl
      · obtain ⟨x, -, rfl⟩ := List.mem_map.mp hs
        rfl
    exact ⟨_, by rw [hhandle, hfind, if_pos rfl]⟩

/-- Host objects that are there and had no entity all get one. -/
theorem arrives_run {refs : List HostRef} (hp : c.population.Consistent)
    (howned : c.hosts.AllOwned) (hcap : c.registry.allocator.capacity ≤ 2 ^ 32)
    (hroom : c.registry.size + refs.length ≤ 2 ^ 32)
    (halive : ∀ ref ∈ refs, c.hosts.alive ref = true)
    (hids : (refs.map HostRef.id).Nodup)
    (hfresh : ∀ ref ∈ refs, c.registry.handleOf? ref.id = none) :
    (∀ r ∈ refusals (refs.map .create) c, r = none) ∧ c.Arrives refs (c.run (refs.map .bind)) := by
  induction refs generalizing c with
  | nil => exact ⟨by simp [refusals], .refl hp⟩
  | cons ref refs ih =>
    rw [List.length_cons] at hroom
    obtain ⟨hnot, hids⟩ := List.nodup_cons.mp hids
    obtain ⟨hanswer, hone⟩ := arrives_bind hp howned hcap (by omega)
      (halive ref List.mem_cons_self) (hfresh ref List.mem_cons_self)
    have hsize := hone.size
    have hcapacity := hone.capacity
    rw [List.length_singleton] at hsize
    have hothers : ∀ ref' ∈ refs, (c.bind ref).2.registry.handleOf? ref'.id = none := by
      intro ref' href'
      refine hone.handleOf?_eq_none hp (hfresh ref' (List.mem_cons_of_mem _ href')) fun hin => ?_
      obtain heq : ref'.id = ref.id := List.mem_singleton.mp hin
      exact hnot (heq ▸ List.mem_map_of_mem href')
    obtain ⟨hgranted, hrest⟩ := ih hone.consistent (hone.hosts.allOwned howned) (by omega)
      (by omega) (fun ref' href' => by
        rw [hone.hosts.alive_eq]
        exact halive ref' (List.mem_cons_of_mem _ href')) hids hothers
    refine ⟨fun r hr => ?_, hone.append hrest⟩
    rw [List.map_cons, refusals, List.mem_cons] at hr
    rcases hr with rfl | hr
    · show errorOf (c.bind ref).1 = none
      rw [hanswer]
      rfl
    · exact hgranted r hr

theorem structural_run {as : List (Action ο σ)} (h : ∀ a ∈ as, a.isStructural = true) :
    c.Structural (c.run as) := by
  induction as generalizing c with
  | nil => exact .refl c
  | cons a as ih =>
    exact (c.structural_act (h a List.mem_cons_self)).trans
      (ih fun a' ha' => h a' (List.mem_cons_of_mem _ ha'))

theorem Structural.switchboard (h : c.Structural d) : d.switchboard = c.switchboard := by
  obtain ⟨_, _, _, _, _, _, rfl⟩ := h
  rfl

theorem Structural.table (h : c.Structural d) : d.table = c.table := by
  obtain ⟨_, _, _, _, _, _, rfl⟩ := h
  rfl

/-! ## Passes over all entities -/

/-- A pass leaves who is bound, and which host objects there are. -/
theorem alike_visit (howned : c.hosts.AllOwned) (direction : Direction) (report : SyncReport)
    (h : Handle) : (visit direction (report, c) h).2.registry = c.registry ∧
      c.hosts.Alike (visit direction (report, c) h).2.hosts := by
  obtain ⟨journal, heq⟩ := c.visit_eq direction report h
  rw [heq]
  split
  · exact ⟨rfl, howned.alike_putBack _ _⟩
  · exact ⟨rfl, .refl _⟩

theorem alike_foldl_visit (howned : c.hosts.AllOwned) (direction : Direction) (hs : List Handle)
    (report : SyncReport) : (hs.foldl (visit direction) (report, c)).2.registry = c.registry ∧
      c.hosts.Alike (hs.foldl (visit direction) (report, c)).2.hosts := by
  induction hs generalizing c report with
  | nil => exact ⟨rfl, .refl _⟩
  | cons h hs ih =>
    obtain ⟨hregistry, hhosts⟩ := alike_visit howned direction report h
    rw [List.foldl_cons]
    generalize visit direction (report, c) h = x at hregistry hhosts
    obtain ⟨r, d⟩ := x
    obtain ⟨hregistry', hhosts'⟩ := ih (hhosts.allOwned howned) r
    exact ⟨hregistry'.trans hregistry, hhosts.trans hhosts'⟩

theorem alike_synchronizeAll (howned : c.hosts.AllOwned) (direction : Direction) :
    (c.synchronizeAll direction).2.registry = c.registry ∧
      c.hosts.Alike (c.synchronizeAll direction).2.hosts := by
  obtain ⟨hregistry, hhosts⟩ :=
    alike_foldl_visit (c := c.synchronizing) howned direction c.boundRows {}
  rw [synchronizeAll_eq]
  obtain ⟨journal, incidents, hreports⟩ := foldl_reportSynchronization
    (c.visitAll direction).1.failures (c.visitAll direction).2
  rw [hreports]
  exact ⟨hregistry, hhosts⟩

/-! ## From one moment of rest to the next -/

/-- Listeners that are content with every signal, as long as whoever is announced is bound. -/
def Lenient (s : Switchboard (Surroundings ο σ)) : Prop :=
  ∀ signal view around, (signal.kind = .entityCreated → (view.host? signal.handle).isSome = true) →
    ∀ sub ∈ (s.channel .lifecycle signal.kind).subscribers,
      sub.listener signal view around = .done (.ok ()) around

/-- A coordinator between two frames, with nothing left over from the last one. -/
structure AtRest (c : Coordinator ο σ) : Prop where
  consistent : c.population.Consistent
  owned : c.hosts.AllOwned
  queue : c.queue.Unbroken
  outbox : c.outbox = #[]
  opened : c.frame.flushed = false
  delayed : c.named.delayed = []
  idle : c.switchboard.IsIdle
  kept : ∀ kind, (c.switchboard.channel .lifecycle kind).retired = []
  lenient : Lenient c.switchboard

section Rest

variable (h : c.AtRest)
include h

theorem AtRest.setHosts {hosts : Hosts ο} (howned : hosts.AllOwned) : (c.setHosts hosts).AtRest :=
  { h with owned := howned }

theorem AtRest.setQueue {queue : MutationQueue} (hq : queue.Unbroken) : AtRest { c with queue } :=
  { h with queue := hq }

/-- The listeners are content later on, if whoever is announced then is bound. -/
theorem AtRest.content (hboard : d.switchboard = c.switchboard) (hp : d.population.Consistent)
    (hout : ∀ s ∈ d.outbox.toList, s.kind = .entityCreated →
      ∃ x, d.registry.find? s.handle = some x) : d.Content := by
  refine ⟨hboard ▸ h.idle, hboard ▸ h.kept, fun s hs => ?_⟩
  rw [ContentWith, hboard]
  refine h.lenient s _ _ fun hkind => ?_
  obtain ⟨x, hx⟩ := hout s hs hkind
  show (d.registry.resolve? s.handle).isSome = true
  rw [resolve?_eq hp, hx]
  rfl

/-- One more listener that is content. -/
theorem AtRest.subscribe {kind : Kind} {listener : Listener (Surroundings ο σ)}
    (hl : ∀ signal view around, signal.kind = kind →
      (kind = .entityCreated → (view.host? signal.handle).isSome = true) →
      listener signal view around = .done (.ok ()) around) :
    (c.subscribe .lifecycle kind listener).2.AtRest := by
  have hchannel := c.switchboard.channel_subscribe .lifecycle .lifecycle kind
  refine { h with idle := fun l k => ?_, kept := fun k => ?_, lenient := ?_ }
  · exact (c.switchboard.dispatching_subscribe .lifecycle l kind k listener).trans (h.idle l k)
  · show ((c.switchboard.subscribe .lifecycle kind listener).2.channel .lifecycle k).retired = []
    rw [hchannel]
    split
    · exact h.kept kind
    · exact h.kept k
  · intro signal view around hhost sub hsub
    replace hsub : sub ∈ ((c.switchboard.subscribe .lifecycle kind listener).2.channel .lifecycle
      signal.kind).subscribers := hsub
    rw [hchannel] at hsub
    split at hsub
    · rename_i hkind
      rcases List.mem_append.mp hsub with hsub | hsub
      · exact h.lenient signal view around hhost sub (hkind.2 ▸ hsub)
      · obtain rfl := List.mem_singleton.mp hsub
        exact hl signal view around hkind.2 fun hcreated => hhost (hkind.2.trans hcreated)
    · exact h.lenient signal view around hhost sub hsub

end Rest

/-- A new coordinator is at rest. -/
theorem atRest_withTable (table : Table) (settings : Settings) {surroundings : Surroundings ο σ}
    (howned : surroundings.hosts.AllOwned) (journal : Journal) :
    (withTable table settings surroundings journal).AtRest where
  consistent := Population.consistent_empty
  owned := howned
  queue := MutationQueue.unbroken_empty
  outbox := rfl
  opened := rfl
  delayed := rfl
  idle := fun line kind => by cases line <;> cases kind <;> rfl
  kept := fun kind => by cases kind <;> rfl
  lenient := fun signal _ _ _ sub hsub => by
    cases h : signal.kind <;> rw [h] at hsub <;> exact absurd hsub List.not_mem_nil

/-- In a new coordinator nobody is bound. -/
theorem houses_withTable (table : Table) (settings : Settings) (surroundings : Surroundings ο σ)
    (journal : Journal) : (withTable table settings surroundings journal).Houses [] := by
  refine fun ref => ⟨fun ⟨h, hh⟩ => ?_, fun hin => absurd hin List.not_mem_nil⟩
  obtain ⟨e, he, -⟩ := Registry.resolve?_eq_some_iff.mp hh
  obtain ⟨hget, -⟩ := Registry.find?_eq_some_iff.mp (Registry.bound_eq_ok_iff.mp he).1
  cases (Slots.get?_empty h.slot).symm.trans hget

/-- A pass over all entities, after which neither they nor the host objects change any more. -/
structure Passes (c : Coordinator ο σ) (report : SyncReport) (d : Coordinator ο σ) : Prop where
  report : report = (c.synchronizeAll .bidirectional).1
  registry : d.registry = (c.synchronizeAll .bidirectional).2.registry
  world : d.world = (c.synchronizeAll .bidirectional).2.world
  hosts : d.hosts = (c.synchronizeAll .bidirectional).2.hosts
  table : d.table = c.table

/-- What a frame comes to in which some of the bound host objects stay, the others are reaped and
new ones are bound. -/
structure Renews (c : Coordinator ο σ) (old stay fresh : List HostRef) (time : Duration)
    (whole : FrameReport) (d : Coordinator ο σ) : Prop where
  flush : ∃ reaped, old.length = stay.length + reaped ∧
    whole.flush = { applied := fresh.length, reaped }
  /-- The pass over all entities begins where reaping and binding end. -/
  passes : ∃ frame, ∃ e : Coordinator ο σ,
    e.core = ({ c with frame }.reap.2.run (fresh.map .bind)).core ∧ e.Passes whole.sync d
  failures : whole.dispatch.failures = []
  rest : d.AtRest
  houses : d.Houses (stay ++ fresh)
  waiting : d.waiting = []
  hosts : c.hosts.Alike d.hosts
  switchboard : d.switchboard = c.switchboard
  capacity : d.registry.allocator.capacity ≤
    max c.registry.allocator.capacity (stay ++ fresh).length
  time : d.frame.time = time

/-- What a flush comes to in which some of the bound host objects stay, the others are reaped and
new ones are bound. -/
structure Refreshes (c : Coordinator ο σ) (stay fresh : List HostRef) (e : Coordinator ο σ) :
    Prop where
  core : e.core = (c.reap.2.run (fresh.map .bind)).core
  consistent : e.population.Consistent
  houses : e.Houses (stay ++ fresh)
  capacity : e.registry.allocator.capacity ≤
    max c.registry.allocator.capacity (stay ++ fresh).length
  hosts : c.hosts.Alike e.hosts
  /-- Who is announced is bound. -/
  outbox : ∀ s ∈ e.outbox.toList, s.kind = .entityCreated → ∃ x, e.registry.find? s.handle = some x
  delayed : e.named.delayed = c.named.delayed
  rest : e.rest = { c.rest with
    queue := { c.queue with pending := #[], next := c.queue.sequence }
    frame := c.flushing.frame }

section Frame

variable {old stay fresh : List HostRef} (h : c.AtRest) (hold : c.Houses old) (hnd : old.Nodup)
  (hstay : ∀ ref, ref ∈ stay ↔ ref ∈ old ∧ c.hosts.alive ref = true)
  (hwaiting : c.waiting = fresh.map .create) (hids : ((stay ++ fresh).map HostRef.id).Nodup)
  (halive : ∀ ref ∈ fresh, c.hosts.alive ref = true)
  (hcap : c.registry.allocator.capacity ≤ 2 ^ 32) (hroom : (stay ++ fresh).length ≤ 2 ^ 32)
include h hold hnd hstay hwaiting hids halive hcap hroom

theorem AtRest.flush : ∃ reaped e,
    c.flush = (.ok (.ok { applied := fresh.length, reaped }), e) ∧
      old.length = stay.length + reaped ∧ c.Refreshes stay fresh e := by
  have hnodup : (stay ++ fresh).Nodup :=
    List.Pairwise.of_map _ (fun _ _ hne heq => hne (heq ▸ rfl)) hids
  rw [List.map_append, List.nodup_append] at hids
  obtain ⟨-, hfreshids, hapart⟩ := hids
  -- reaping leaves those that stay
  obtain ⟨hcount, hsweeps⟩ := sweeps_reap h.consistent
  have hleft : c.reap.2.Houses stay := by
    intro ref
    rw [hstay, ← hold ref]
    simp only [resolve?_reap h.consistent, Option.filter_eq_some_iff]
    exact ⟨fun ⟨j, hj, ha⟩ => ⟨⟨j, hj⟩, ha⟩, fun ⟨⟨j, hj⟩, ha⟩ => ⟨j, hj, ha⟩⟩
  have hbefore := hold.size_eq h.consistent hnd
  have hafter := hleft.size_eq hsweeps.consistent (List.nodup_append.mp hnodup).1
  have hsize := hsweeps.size
  rw [List.length_append] at hroom
  -- so the others can be bound
  have hfresh : ∀ ref ∈ fresh, c.reap.2.registry.handleOf? ref.id = none := fun ref href => by
    refine (handleOf?_eq_none_iff hsweeps.consistent).mpr fun j x hx heq => ?_
    exact hapart x.id (List.mem_map_of_mem ((hleft x).mp ⟨j, hx⟩)) ref.id
      (List.mem_map_of_mem href) heq
  obtain ⟨hgranted, harrives⟩ := arrives_run hsweeps.consistent (hsweeps.hosts ▸ h.owned)
    (hsweeps.capacity ▸ hcap) (by omega) (fun ref href => hsweeps.hosts ▸ halive ref href)
    hfreshids hfresh
  obtain ⟨e, hflush, hcore, hrest⟩ := flush_of_granted h.queue h.opened
    (by
      intro m hm name entities delay hsignal
      rw [hwaiting] at hm
      obtain ⟨ref, -, rfl⟩ := List.mem_map.mp hm
      cases hsignal) (hwaiting ▸ hgranted)
  rw [hwaiting, List.map_map] at hcore
  have hnamed : (c.reap.2.run (fresh.map .bind)).named = c.named :=
    (c.structural_reap.trans (structural_run fun a ha => by
      obtain ⟨ref, -, rfl⟩ := List.mem_map.mp ha
      rfl)).named
  have hcore : e.core = (c.reap.2.run (fresh.map .bind)).core := hcore
  have hwhole := hcore
  generalize c.reap.2.run (fresh.map .bind) = d at harrives hcore hnamed
  have hregistry : e.registry = d.registry := congrArg Core.registry hcore
  have hpopulation : e.population = d.population := by
    rw [population, population, hregistry, show e.world = d.world from congrArg Core.world hcore]
  have hhouses : d.Houses (stay ++ fresh) := fun ref => by
    rw [harrives.bound, hleft ref, List.mem_append]
  refine ⟨c.reap.1, e, ?_, by omega, hwhole, hpopulation ▸ harrives.consistent, ?_, ?_, ?_, ?_, ?_,
    hrest⟩
  · rw [hflush, hwaiting, List.length_map]
  · rw [Houses, hregistry]
    exact hhouses
  · have hcapacity := harrives.capacity
    rw [hsweeps.capacity, hhouses.size_eq harrives.consistent hnodup] at hcapacity
    exact hregistry ▸ hcapacity
  · rw [← hosts_of_core hcore, ← hsweeps.hosts]
    exact harrives.hosts
  · intro s hs hkind
    obtain ⟨ss, hout, hss⟩ := hsweeps.outbox
    obtain ⟨ts, hout', hts⟩ := harrives.outbox
    rw [show e.outbox = d.outbox from congrArg Core.outbox hcore, hout', hout, h.outbox,
      List.nil_append, List.mem_append] at hs
    rcases hs with hs | hs
    · rw [hss s hs] at hkind
      cases hkind
    · exact hregistry ▸ hts s hs hkind
  · exact (congrArg Core.delayed hcore).trans (congrArg NamedSignals.delayed hnamed)

/-- Of the bound host objects those stay that are there, and whoever is asked for is bound. -/
theorem AtRest.step {delta : Duration} {frame : Frame}
    (hadvance : c.frame.advance delta = .ok frame) :
    ∃ whole d, c.step delta = (.ok (.ok whole), d) ∧
      c.Renews old stay fresh frame.time whole d := by
  have h' : AtRest { c with frame } :=
    { h with opened := (number_advance hadvance).2.1.trans h.opened }
  obtain ⟨reaped, e, hflush, hreaped, he⟩ :=
    h'.flush hold hnd hstay hwaiting hids halive hcap hroom
  have hboard : e.switchboard = c.switchboard := congrArg Rest.switchboard he.rest
  have howned : e.hosts.AllOwned := he.hosts.allOwned h.owned
  obtain ⟨hregistry, hhosts⟩ := alike_synchronizeAll howned .bidirectional
  obtain ⟨halike, hout⟩ := e.calm_synchronizeAll .bidirectional
  have hstructural := e.structural_synchronizeAll .bidirectional
  have hboard' : (e.synchronizeAll .bidirectional).2.switchboard = c.switchboard :=
    hstructural.switchboard.trans hboard
  have hp : (e.synchronizeAll .bidirectional).2.population.Consistent :=
    halike.consistent he.consistent
  have hcontent : (e.synchronizeAll .bidirectional).2.Content :=
    h.content hboard' hp fun s hs hkind => by
      rw [hregistry]
      exact he.outbox s (hout ▸ hs) hkind
  obtain ⟨whole, journal, hstep, hwhole, hsync, hfailures⟩ := step_of_content hadvance h.opened
    hflush (he.delayed.trans h.delayed) hcontent
  have hqueue := hstructural.queue
  rw [show e.queue = _ from congrArg Rest.queue he.rest] at hqueue
  have hframe : (e.synchronizeAll .bidirectional).2.frame.time = frame.time := by
    rw [frame_synchronizeAll, show e.frame = _ from congrArg Rest.frame he.rest]
    rfl
  refine ⟨whole, _, hstep, ⟨reaped, hreaped, hwhole⟩, ⟨frame, e, he.core, hsync, rfl, rfl, rfl, ?_⟩,
    hfailures, ?_, ?_, ?_, he.hosts.trans hhosts, hboard', ?_, hframe⟩
  · exact hstructural.table
  · exact ⟨hp, hhosts.allOwned howned,
      by rw [hqueue]; exact ⟨rfl, rfl⟩, rfl, rfl, he.delayed.trans h.delayed, hboard' ▸ h.idle,
      hboard' ▸ h.kept, hboard' ▸ h.lenient⟩
  · exact fun ref => hregistry ▸ he.houses ref
  · rw [waiting, hqueue]
    rfl
  · exact hregistry ▸ he.capacity

end Frame

end Coordinator

end Tether
