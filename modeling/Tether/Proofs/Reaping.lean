import Mathlib.Data.List.Forall2
import Tether.Proofs.Reach
import Tether.Proofs.Refusals
import Tether.Proofs.Workers

/-!
# Reaping

What is found after an entity came or went is what was found before, that one entity apart
(`Population.Attached.find?_eq`, `Population.Detached.find?_eq`). So tearing down a list of entities
takes away exactly those (`Coordinator.Sweeps`), with their rows, and announces each with what it
had (`Coordinator.Clears`), and reaping takes away exactly the entities whose host object is gone,
each once, and counts them (`Coordinator.clears_reap`).
-/

set_option linter.unusedSectionVars false

namespace Tether

/-! ## What is found after a change -/

namespace Population

variable {p q : Population}

/-- Under the handle that was issued the new entry is found. -/
theorem Attached.find?_eq {h host cells row degraded} (ha : Attached p h host cells row degraded q)
    (hp : p.Consistent) (hcap : q.capacity ≤ 2 ^ 32) (g : Handle) :
    q.registry.find? g =
      if g = h then some ⟨h, host, .bound, degraded⟩ else p.registry.find? g := by
  have hfree := hp.entryAt?_of_issued (ha.allocator_issued hp hcap)
  have hq : q.registry.find? g = (q.entryAt? g.slot).filter fun e => e.handle = g := rfl
  have hold : p.registry.find? g = (p.entryAt? g.slot).filter fun e => e.handle = g := rfl
  rw [hq, hold, ha.entries]
  by_cases hslot : g.slot = h.slot
  · rw [if_pos hslot, hslot, hfree]
    by_cases hg : g = h
    · simp [hg]
    · simp [hg, Ne.symm hg]
  · rw [if_neg hslot, if_neg fun hg => hslot (congrArg Handle.slot hg)]

/-- Under the handle of the entity that went nothing is found. -/
theorem Detached.find?_eq {e row} (hd : Detached p e row q) (g : Handle) :
    q.registry.find? g = if g = e.handle then none else p.registry.find? g := by
  have hq : q.registry.find? g = (q.entryAt? g.slot).filter fun e => e.handle = g := rfl
  have hold : p.registry.find? g = (p.entryAt? g.slot).filter fun e => e.handle = g := rfl
  rw [hq, hold, hd.entries]
  by_cases hslot : g.slot = e.handle.slot
  · rw [if_pos hslot, hslot, hd.found]
    by_cases hg : g = e.handle
    · simp [hg]
    · simp [Option.filter, hg, Ne.symm hg]
  · rw [if_neg hslot, if_neg fun hg => hslot (congrArg Handle.slot hg)]

/-- Under the handle of the entity that went no row is found. -/
theorem Detached.row?_eq {e : Entry} {row : Row} (hd : Detached p e row q)
    (hrow : row.handle = e.handle) (g : Handle) :
    q.world.row? g = if g = e.handle then none else p.world.row? g := by
  have hq : q.world.row? g = (q.rowAt? g.slot).filter fun r => r.handle = g := rfl
  have hold : p.world.row? g = (p.rowAt? g.slot).filter fun r => r.handle = g := rfl
  rw [hq, hold, hd.rows]
  by_cases hslot : g.slot = e.handle.slot
  · rw [if_pos hslot, hslot, hd.present]
    by_cases hg : g = e.handle
    · simp [hg]
    · simp [Option.filter, hg, hrow, Ne.symm hg]
  · rw [if_neg hslot, if_neg fun hg => hslot (congrArg Handle.slot hg)]

end Population

namespace Coordinator

variable {ο σ : Type} [HostObject ο] {c d e : Coordinator ο σ}

section Consistent

variable (hp : c.population.Consistent)
include hp

/-- What is looked up is what the map from host identities holds. -/
theorem lookup?_eq (id : HostId) : c.registry.lookup? id = c.registry.handleOf? id :=
  Option.ext fun _ => lookup?_iff hp

/-- What a handle resolves to is the host object of its entry. -/
theorem resolve?_eq (h : Handle) :
    c.registry.resolve? h = (c.registry.find? h).map Entry.host := by
  refine Option.ext fun host => ?_
  simp only [Registry.resolve?_eq_some_iff, bound_iff_find? hp, Option.map_eq_some_iff]

/-- A host identity is looked up under the handle that resolves to one of its objects. -/
theorem lookup?_iff_resolve? {id : HostId} {h : Handle} :
    c.registry.lookup? id = some h ↔
      ∃ host, c.registry.resolve? h = some host ∧ host.id = id :=
  (sound_of_consistent hp).inverse id h

end Consistent

/-! ## Tearing down one after another -/

theorem hosts_unbind (c : Coordinator ο σ) (h : Handle) : (c.unbind h).2.hosts = c.hosts := by
  cases hb : c.registry.bound h with
  | error error => rw [unbind_of_error hb]
  | ok e =>
    rw [unbind_of_bound hb]
    rfl

/-- From one state to another the listed entities were torn down, and nothing else happened to
registry and host objects. -/
structure Sweeps (c : Coordinator ο σ) (hs : List Handle) (d : Coordinator ο σ) : Prop where
  consistent : d.population.Consistent
  found : ∀ g, d.registry.find? g = if g ∈ hs then none else c.registry.find? g
  size : d.registry.size + hs.length = c.registry.size
  capacity : d.registry.allocator.capacity = c.registry.allocator.capacity
  hosts : d.hosts = c.hosts
  /-- The end of each is announced, and nothing else. -/
  outbox : ∃ ss, d.outbox.toList = c.outbox.toList ++ ss ∧
    ∀ s ∈ ss, s.kind = .entityDestroying

theorem Sweeps.refl (hp : c.population.Consistent) : c.Sweeps [] c :=
  ⟨hp, fun g => by simp, rfl, rfl, rfl, [], by simp, by simp⟩

theorem Sweeps.append {hs js : List Handle} (h : c.Sweeps hs d) (h' : d.Sweeps js e) :
    c.Sweeps (hs ++ js) e := by
  refine ⟨h'.consistent, fun g => ?_, ?_, h'.capacity.trans h.capacity, h'.hosts.trans h.hosts, ?_⟩
  · rw [h'.found, h.found]
    by_cases hg : g ∈ js <;> simp [hg]
  · have hfirst := h.size
    have hsecond := h'.size
    rw [List.length_append]
    omega
  · obtain ⟨ss, hout, hss⟩ := h.outbox
    obtain ⟨ts, hout', hts⟩ := h'.outbox
    refine ⟨ss ++ ts, by rw [hout', hout, List.append_assoc], fun s hs => ?_⟩
    exact (List.mem_append.mp hs).elim (hss s) (hts s)

/-- Tearing down an entity takes away that entity. -/
theorem sweeps_unbind (hp : c.population.Consistent) {h : Handle}
    (hb : c.registry.isBound h = true) :
    (c.unbind h).1 = .ok () ∧ c.Sweeps [h] (c.unbind h).2 := by
  obtain ⟨e, hf⟩ := (isBound_iff_find? hp).mp hb
  obtain rfl := Registry.handle_of_find? hf
  have hbound := (bound_iff_find? hp).mpr hf
  obtain ⟨row, hd, -⟩ := detached_tornDown hp hbound
  rw [unbind_of_bound hbound]
  refine ⟨rfl, hd.consistent hp, fun g => ?_, hd.bindings, Allocator.capacity_free _ _, rfl,
    [_], Array.toList_push, by simp [Signal.kind]⟩
  rw [show (c.tornDown e).registry.find? g = _ from hd.find?_eq g]
  simp only [List.mem_singleton]
  rfl

/-- The signal that announces the end of an entity, with the components that it has. -/
def Farewell (c : Coordinator ο σ) (h : Handle) (s : Signal) : Prop :=
  ∃ host row, c.registry.resolve? h = some host ∧ c.world.row? h = some row ∧
    s = .entityDestroying h host.id row.snapshot

/-- From one state to another the listed entities were torn down one after another, each announced
with what it had, and the rows of the others are as they were. -/
structure Clears (c : Coordinator ο σ) (hs : List Handle) (d : Coordinator ο σ) : Prop where
  sweeps : c.Sweeps hs d
  rows : ∀ g, d.world.row? g = if g ∈ hs then none else c.world.row? g
  farewells : ∃ ss, d.outbox.toList = c.outbox.toList ++ ss ∧ List.Forall₂ c.Farewell hs ss
  incidents : d.incidents = c.incidents

theorem Clears.refl (hp : c.population.Consistent) : c.Clears [] c :=
  ⟨.refl hp, fun g => by simp, ⟨[], by simp, .nil⟩, rfl⟩

theorem Clears.note {hs : List Handle} (h : c.Clears hs d) (n : Notice) : c.Clears hs (d.note n) :=
  ⟨⟨h.sweeps.consistent, h.sweeps.found, h.sweeps.size, h.sweeps.capacity, h.sweeps.hosts,
    h.sweeps.outbox⟩, h.rows, h.farewells, h.incidents⟩

theorem Clears.cons (hp : c.population.Consistent) {h : Handle} {hs : List Handle} (hnot : h ∉ hs)
    (hone : c.Clears [h] d) (hrest : d.Clears hs e) : c.Clears (h :: hs) e := by
  refine ⟨hone.sweeps.append hrest.sweeps, fun g => ?_, ?_, hrest.incidents.trans hone.incidents⟩
  · rw [hrest.rows, hone.rows]
    by_cases hg : g ∈ hs <;> simp [hg]
  · obtain ⟨ss, hout, hss⟩ := hone.farewells
    obtain ⟨ts, hout', hts⟩ := hrest.farewells
    refine ⟨ss ++ ts, by rw [hout', hout, List.append_assoc], ?_⟩
    -- the others are announced with what they had before the first one was torn down
    have hsame : ∀ g ∈ hs, ∀ s, d.Farewell g s → c.Farewell g s := by
      rintro g hg s ⟨host, row, hresolve, hrow, rfl⟩
      have hne : g ∉ [h] := fun hin => hnot (List.mem_singleton.mp hin ▸ hg)
      rw [resolve?_eq hone.sweeps.consistent, hone.sweeps.found, if_neg hne, ← resolve?_eq hp]
        at hresolve
      rw [hone.rows, if_neg hne] at hrow
      exact ⟨host, row, hresolve, hrow, rfl⟩
    exact List.rel_append hss
      (((List.forall₂_and_left hs ts).mpr ⟨hsame, hts⟩).imp fun _ s hs => hs.1 s hs.2)

theorem clears_unbind (hp : c.population.Consistent) {h : Handle}
    (hb : c.registry.isBound h = true) :
    (c.unbind h).1 = .ok () ∧ c.Clears [h] (c.unbind h).2 := by
  obtain ⟨hok, hsweeps⟩ := sweeps_unbind hp hb
  obtain ⟨entry, hf⟩ := (isBound_iff_find? hp).mp hb
  obtain rfl := Registry.handle_of_find? hf
  have hbound := (bound_iff_find? hp).mpr hf
  obtain ⟨row, hd, hrow⟩ := detached_tornDown hp hbound
  rw [unbind_of_bound hbound] at hsweeps
  refine ⟨hok, ?_⟩
  rw [unbind_of_bound hbound]
  refine ⟨hsweeps, fun g => ?_, ⟨[_], Array.toList_push, .cons ?_ .nil⟩, rfl⟩
  · rw [show (c.tornDown entry).world.row? g = _ from
      hd.row?_eq (World.row?_eq_some_iff.mp hrow).2 g]
    simp only [List.mem_singleton]
    rfl
  · refine ⟨entry.host, row, ?_, hrow, by rw [hrow]; rfl⟩
    rw [resolve?_eq hp, hf]
    rfl

theorem clears_reapOne (hp : c.population.Consistent) {h : Handle}
    (hb : c.registry.isBound h = true) (count : Nat) :
    (reapOne (count, c) h).1 = count + 1 ∧ c.Clears [h] (reapOne (count, c) h).2 := by
  obtain ⟨hok, hclears⟩ := clears_unbind hp hb
  unfold reapOne
  dsimp only
  generalize c.unbind h = x at hok hclears
  obtain ⟨answer, d⟩ := x
  cases hok
  exact ⟨rfl, hclears⟩

/-- Entities that are torn down one after another are all bound when their turn comes. -/
theorem clears_foldl_reapOne {hs : List Handle} (hp : c.population.Consistent) (hnd : hs.Nodup)
    (hb : ∀ h ∈ hs, c.registry.isBound h = true) (count : Nat) :
    (hs.foldl reapOne (count, c)).1 = count + hs.length ∧
      c.Clears hs (hs.foldl reapOne (count, c)).2 := by
  induction hs generalizing count c with
  | nil => exact ⟨rfl, .refl hp⟩
  | cons h hs ih =>
    obtain ⟨hnot, hnd⟩ := List.nodup_cons.mp hnd
    obtain ⟨hcount, hone⟩ := clears_reapOne hp (hb h List.mem_cons_self) count
    rw [List.foldl_cons]
    generalize reapOne (count, c) h = x at hcount hone
    obtain ⟨n, d⟩ := x
    obtain rfl : n = count + 1 := hcount
    have hstill : ∀ j ∈ hs, d.registry.isBound j = true := by
      intro j hj
      have hne : j ≠ h := fun heq => hnot (heq ▸ hj)
      rw [isBound_iff_find? hone.sweeps.consistent, hone.sweeps.found]
      simpa [hne] using (isBound_iff_find? hp).mp (hb j (List.mem_cons_of_mem _ hj))
    obtain ⟨hrest, hall⟩ := ih hone.sweeps.consistent hnd hstill (count + 1)
    exact ⟨by rw [hrest, List.length_cons]; omega, .cons hp hnot hone hall⟩

/-! ## Reaping -/

theorem mem_orphans_iff (hp : c.population.Consistent) {h : Handle} :
    h ∈ c.registry.orphans c.hosts ↔
      ∃ e, c.registry.find? h = some e ∧ c.hosts.alive e.host = false := by
  simp only [Registry.orphans, Registry.boundEntries, List.mem_map, List.mem_filter,
    Slots.mem_toList, Bool.not_eq_true', decide_eq_true_eq]
  constructor
  · rintro ⟨e, ⟨⟨⟨i, hi⟩, -⟩, hgone⟩, rfl⟩
    exact ⟨e, find?_of_get? hp hi, hgone⟩
  · rintro ⟨e, hf, hgone⟩
    obtain ⟨hi, hh⟩ := Registry.find?_eq_some_iff.mp hf
    exact ⟨e, ⟨⟨⟨h.slot, hi⟩, hp.bound hi⟩, hgone⟩, hh⟩

theorem isBound_of_mem_orphans (hp : c.population.Consistent) {h : Handle}
    (hh : h ∈ c.registry.orphans c.hosts) : c.registry.isBound h = true := by
  obtain ⟨e, hf, -⟩ := (mem_orphans_iff hp).mp hh
  exact (isBound_iff_find? hp).mpr ⟨e, hf⟩

/-- Orphans are listed in the order of their slots. -/
theorem pairwise_orphans (hp : c.population.Consistent) :
    (c.registry.orphans c.hosts).Pairwise fun g h => g.slot < h.slot := by
  have hslots : c.registry.entries.toList.Pairwise fun e e' => e.handle.slot < e'.handle.slot :=
    Slots.pairwise_toList fun he => hp.placed he
  exact List.pairwise_map.mpr ((hslots.filter _).filter _)

/-- No entity is reaped twice. -/
theorem nodup_orphans (hp : c.population.Consistent) :
    (c.registry.orphans c.hosts).Nodup :=
  (pairwise_orphans hp).imp fun {g h} hlt (heq : g = h) => Nat.lt_irrefl _ (heq ▸ hlt)

/-- Reaping takes away exactly the entities whose host object is gone, announces them, and counts
them. -/
theorem clears_reap (hp : c.population.Consistent) :
    c.reap.1 = (c.registry.orphans c.hosts).length ∧
      c.Clears (c.registry.orphans c.hosts) c.reap.2 := by
  obtain ⟨hcount, hall⟩ :=
    clears_foldl_reapOne hp (nodup_orphans hp) (fun _ => isBound_of_mem_orphans hp) 0
  rw [Nat.zero_add] at hcount
  unfold reap
  dsimp only
  refine ⟨hcount, ?_⟩
  split
  · exact hall.note _
  · exact hall

theorem sweeps_reap (hp : c.population.Consistent) :
    c.reap.1 = (c.registry.orphans c.hosts).length ∧
      c.Sweeps (c.registry.orphans c.hosts) c.reap.2 :=
  (clears_reap hp).imp_right Clears.sweeps

/-- After reaping there are exactly the entities that were there before and whose host object is
still there. -/
theorem find?_reap (hp : c.population.Consistent) (h : Handle) :
    c.reap.2.registry.find? h =
      (c.registry.find? h).filter fun e => c.hosts.alive e.host := by
  rw [(sweeps_reap hp).2.found]
  cases hf : c.registry.find? h with
  | none => simp
  | some e =>
    have hmem : h ∈ c.registry.orphans c.hosts ↔ c.hosts.alive e.host = false := by
      simp [mem_orphans_iff hp, hf]
    cases ha : c.hosts.alive e.host <;> simp [hmem, ha, Option.filter]

theorem resolve?_reap (hp : c.population.Consistent) (h : Handle) :
    c.reap.2.registry.resolve? h = (c.registry.resolve? h).filter c.hosts.alive := by
  rw [resolve?_eq (sweeps_reap hp).2.consistent, resolve?_eq hp, find?_reap hp, Option.filter_map]
  rfl

theorem lookup?_reap (hp : c.population.Consistent) (id : HostId) :
    c.reap.2.registry.lookup? id =
      (c.registry.lookup? id).filter fun h => (c.registry.resolve? h).any c.hosts.alive := by
  refine Option.ext fun h => ?_
  simp only [lookup?_iff_resolve? (sweeps_reap hp).2.consistent, resolve?_reap hp,
    Option.filter_eq_some_iff, lookup?_iff_resolve? hp, Option.any_eq_true]
  constructor
  · rintro ⟨host, ⟨hh, ha⟩, hid⟩
    exact ⟨⟨host, hh, hid⟩, host, hh, ha⟩
  · rintro ⟨⟨host, hh, hid⟩, host', hh', ha⟩
    obtain rfl := Option.some.inj (hh.symm.trans hh')
    exact ⟨host, ⟨hh, ha⟩, hid⟩

end Coordinator

end Tether
