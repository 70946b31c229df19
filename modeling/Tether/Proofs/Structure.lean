import Tether.Proofs.Evolution

/-!
# What holds between operations

Host identities, entries, rows and slots are four ways in which a coordinator keeps its
entities, and every operation has to change them together. `Coordinator.Sound` says what they
have to do with each other between operations, in terms of what look-up finds, and
`Coordinator.sound_run` that it holds after every run from a new coordinator, whatever its
bindings and settings, and whatever host objects and listeners do.

The one condition is that slot numbers last : with all of them in use the next handle is one
that was issued before (`Coordinator.attach_of_exhausted`), whoever has it.
-/

set_option linter.unusedSectionVars false

namespace Tether

namespace Coordinator

variable {ο σ : Type} [HostObject ο]

/-- What holds of a coordinator between operations. -/
structure Sound (c : Coordinator ο σ) : Prop where
  /-- Looking up a host identity and resolving a handle are inverse to each other, -/
  inverse : ∀ id h, c.registry.lookup? id = some h ↔
    ∃ host, c.registry.resolve? h = some host ∧ host.id = id
  /-- and so are the map from host identities and the entries, in whatever state. -/
  mapped : ∀ id h, c.registry.handleOf? id = some h ↔
    ∃ e, c.registry.find? h = some e ∧ e.host.id = id
  /-- Every entry is bound, and lies at the slot of its handle. -/
  bound : ∀ i e, c.registry.entries.get? i = some e → e.state = .bound ∧ e.handle.slot = i
  /-- There is a row exactly for the bound handles, -/
  rows : ∀ h, c.world.contains h = c.registry.isBound h
  /-- and it lies at the slot of the handle that it carries. -/
  placed : ∀ i row, c.world.rows.get? i = some row →
    row.handle.slot = i ∧ c.registry.isBound row.handle = true
  /-- The world counts as many rows as there are, as bindings, and as entries. -/
  counted : c.world.size = c.world.toList.length
  bindings : c.world.size = c.registry.size
  entries : c.registry.size = c.registry.entries.toList.length
  /-- So there is something to count down when a row goes. -/
  positive : ∀ h, c.world.contains h = true → 0 < c.world.size
  /-- A slot that was ever allocated is either in use, by an entry with its current generation,
  and does not wait to be used again, or it is empty and waits exactly once. -/
  slots : ∀ i : UInt32, i.toNat < c.registry.allocator.capacity →
    (∃ e, c.registry.entries.get? i.toNat = some e ∧
      c.registry.allocator.current? i = some e.handle.generation ∧
      c.registry.allocator.pool.count i = 0) ∨
    (c.registry.entries.get? i.toNat = none ∧ c.registry.allocator.pool.count i = 1)
  /-- Only such slots are in use, -/
  allocated : ∀ i e, c.registry.entries.get? i = some e → i < c.registry.allocator.capacity
  /-- and only such slots wait. -/
  pooled : ∀ i ∈ c.registry.allocator.pool, i.toNat < c.registry.allocator.capacity

section Consistent

variable {c : Coordinator ο σ} (hp : c.population.Consistent)
include hp

/-- What is found under a handle is fully bound. -/
theorem bound_iff_find? {h : Handle} {e : Entry} :
    c.registry.bound h = .ok e ↔ c.registry.find? h = some e := by
  rw [Registry.bound_eq_ok_iff]
  refine ⟨And.left, fun hf => ⟨hf, ?_⟩⟩
  exact hp.bound (Registry.find?_eq_some_iff.mp hf).1

theorem handleOf?_iff {id : HostId} {h : Handle} :
    c.registry.handleOf? id = some h ↔ ∃ e, c.registry.find? h = some e ∧ e.host.id = id := by
  constructor
  · intro hid
    obtain ⟨e, he, hh, hhost⟩ := hp.entered hid
    exact ⟨e, Registry.find?_eq_some_iff.mpr ⟨he, hh⟩, hhost⟩
  · rintro ⟨e, hf, rfl⟩
    obtain ⟨he, rfl⟩ := Registry.find?_eq_some_iff.mp hf
    exact hp.mapped he

theorem lookup?_iff {id : HostId} {h : Handle} :
    c.registry.lookup? id = some h ↔ c.registry.handleOf? id = some h := by
  rw [Registry.lookup?_eq_some_iff]
  constructor
  · rintro ⟨h', hid, e, he, rfl⟩
    rw [bound_iff_find? hp] at he
    rw [(Registry.find?_eq_some_iff.mp he).2]
    exact hid
  · intro hid
    obtain ⟨e, hf, -⟩ := (handleOf?_iff hp).mp hid
    exact ⟨h, hid, e, (bound_iff_find? hp).mpr hf, (Registry.find?_eq_some_iff.mp hf).2⟩

theorem isBound_iff_find? {h : Handle} :
    c.registry.isBound h = true ↔ ∃ e, c.registry.find? h = some e := by
  simp only [Registry.isBound_iff, ← Registry.bound_eq_ok_iff, bound_iff_find? hp]

theorem contains_iff_isBound (h : Handle) :
    c.world.contains h = true ↔ c.registry.isBound h = true := by
  rw [isBound_iff_find? hp, World.contains, Option.isSome_iff_exists]
  constructor
  · rintro ⟨row, hrow⟩
    obtain ⟨hget, hhandle⟩ := World.row?_eq_some_iff.mp hrow
    have hmap := hp.rows h.slot
    rw [show c.population.rowAt? h.slot = some row from hget] at hmap
    obtain ⟨e, he, heq⟩ := Option.map_eq_some_iff.mp hmap.symm
    exact ⟨e, Registry.find?_eq_some_iff.mpr ⟨he, heq.trans hhandle⟩⟩
  · rintro ⟨e, hf⟩
    obtain ⟨he, hh⟩ := Registry.find?_eq_some_iff.mp hf
    obtain ⟨row, hrow, hhandle⟩ := hp.rowAt?_of_entryAt? he
    exact ⟨row, World.row?_eq_some_iff.mpr ⟨hrow, hhandle.trans hh⟩⟩

theorem find?_of_get? {i : Nat} {e : Entry} (he : c.registry.entries.get? i = some e) :
    c.registry.find? e.handle = some e := by
  refine Registry.find?_eq_some_iff.mpr ⟨?_, rfl⟩
  rw [hp.placed he]
  exact he

/-- Slots in use and slots that wait. -/
theorem slot_cases {i : UInt32} (hi : i.toNat < c.registry.allocator.capacity) :
    (∃ e, c.registry.entries.get? i.toNat = some e ∧
      c.registry.allocator.current? i = some e.handle.generation ∧
      c.registry.allocator.pool.count i = 0) ∨
    (c.registry.entries.get? i.toNat = none ∧ c.registry.allocator.pool.count i = 1) := by
  have hpooled := hp.pooled i
  cases he : c.registry.entries.get? i.toNat with
  | some e =>
    have hindex : e.handle.index = i := UInt32.toNat_inj.mp (hp.placed he)
    refine .inl ⟨e, rfl, hindex ▸ hp.current he, List.count_eq_zero.mpr fun hin => ?_⟩
    have hnone := (hpooled.mp hin).2
    rw [show c.population.entryAt? i.toNat = some e from he] at hnone
    cases hnone
  | none =>
    refine .inr ⟨rfl, ?_⟩
    have hin := hpooled.mpr ⟨(Allocator.current?_isSome_iff _ i).mpr hi, he⟩
    exact hp.nodup.count.trans (if_pos hin)

theorem sound_of_consistent : c.Sound where
  inverse id h := by
    rw [lookup?_iff hp, handleOf?_iff hp]
    simp only [Registry.resolve?_eq_some_iff, bound_iff_find? hp]
    constructor
    · rintro ⟨e, he, hid⟩
      exact ⟨e.host, ⟨e, he, rfl⟩, hid⟩
    · rintro ⟨_, ⟨e, he, rfl⟩, hid⟩
      exact ⟨e, he, hid⟩
  mapped id h := handleOf?_iff hp
  bound i e he := ⟨hp.bound he, hp.placed he⟩
  rows h := Bool.eq_iff_iff.mpr (contains_iff_isBound hp h)
  placed i row hrow := by
    have hmap := hp.rows i
    rw [show c.population.rowAt? i = some row from hrow] at hmap
    obtain ⟨e, he, heq⟩ := Option.map_eq_some_iff.mp hmap.symm
    rw [← heq]
    exact ⟨hp.placed he, (isBound_iff_find? hp).mpr ⟨e, find?_of_get? hp he⟩⟩
  counted := by
    rw [World.toList, Slots.length_toList]
    exact hp.counted
  bindings := (hp.counted.trans hp.filled).trans hp.bindings.symm
  entries := by
    rw [Slots.length_toList]
    exact hp.bindings
  positive h hc := by
    obtain ⟨row, hrow⟩ := Option.isSome_iff_exists.mp hc
    have hsize := Slots.size_clear_of_eq_some (World.row?_eq_some_iff.mp hrow).1
    have hcount := hp.counted
    simp only [population] at hcount
    omega
  slots i hi := slot_cases hp hi
  allocated i e he := by
    rw [← hp.placed he]
    exact (Allocator.current?_isSome_iff _ _).mp (Option.isSome_of_eq_some (hp.current he))
  pooled i hi := (Allocator.current?_isSome_iff _ i).mp ((hp.pooled i).mp hi).1

end Consistent

/-- After every run the population of a coordinator is consistent. -/
theorem consistent_run (table : Table) (settings : Settings)
    (surroundings : Surroundings ο σ) (journal : Journal) (as : List (Action ο σ))
    (hcap : ((withTable table settings surroundings journal).run
      as).registry.allocator.capacity ≤ 2 ^ 32) :
    ((withTable table settings surroundings journal).run as).population.Consistent :=
  ((evolves_run _ as).trace hcap Population.consistent_empty).consistent hcap
    Population.consistent_empty

/-- Without slot numbers that are left, binding issues the first handle of all once more. -/
theorem attach_of_exhausted {c : Coordinator ο σ} {host : HostRef} {object : ο}
    (ho : c.hosts.find? host = some object) (hf : c.registry.handleOf? host.id = none)
    (hpool : c.registry.allocator.pool = [])
    (hcap : c.registry.allocator.capacity = 2 ^ 32) : (c.attach host).1 = .ok ⟨0, 0⟩ := by
  rw [attach_of_fresh ho hf, Allocator.alloc_of_exhausted hpool hcap]

/-- Between operations a coordinator is sound, as long as slot numbers last. -/
theorem sound_run (table : Table) (settings : Settings) (surroundings : Surroundings ο σ)
    (journal : Journal) (as : List (Action ο σ))
    (hcap : ((withTable table settings surroundings journal).run
      as).registry.allocator.capacity ≤ 2 ^ 32) :
    ((withTable table settings surroundings journal).run as).Sound :=
  sound_of_consistent (consistent_run table settings surroundings journal as hcap)

/-- A host object is bound, torn down, once more under the old handle, and bound again. -/
theorem sound_run_rebinding :
    (sample.run [.bind ⟨⟨7⟩, 0⟩, .unbind ⟨0, 0⟩, .unbind ⟨0, 0⟩,
      .bind ⟨⟨7⟩, 0⟩]).registry.allocator.capacity ≤ 2 ^ 32 ∧
    (sample.run [.bind ⟨⟨7⟩, 0⟩, .unbind ⟨0, 0⟩, .unbind ⟨0, 0⟩, .bind ⟨⟨7⟩, 0⟩]).Sound :=
  ⟨by decide, sound_run _ _ _ _ _ (by decide)⟩

end Coordinator

end Tether
