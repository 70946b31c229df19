import Tether.Coordinator.Step

/-!
# Slots, handles, rows and entries through look-up

What the operations on the storage of entities do, said by what look-up finds afterwards : how
many slots are filled (`Slots.size`), which generation a slot has and which slots wait to be
used again (`Allocator.Issued`, `Allocator.current?_free`), which components a row has and in
which order (`Row.Ascending`), and what the registry and the world find under a handle.
-/

set_option linter.unusedSectionVars false

namespace Tether

/-! ## Slots -/

namespace Slots

variable {α : Type}

/-- How many slots are filled. -/
def size (s : Slots α) : Nat := s.cells.size

theorem length_toList (s : Slots α) : s.toList.length = s.size := by
  simp [toList, size, Std.ExtTreeMap.length_toList]

theorem contains_cells (s : Slots α) (i : Nat) : s.cells.contains i = (s.get? i).isSome :=
  Std.ExtTreeMap.isSome_getElem?_eq_contains.symm

theorem size_put_of_eq_none {s : Slots α} {i : Nat} (h : s.get? i = none) (a : α) :
    (s.put i a).size = s.size + 1 := by
  have hi : s.cells.contains i = false := by rw [contains_cells, h]; rfl
  rw [size, put, Std.ExtTreeMap.size_insert]
  simp [hi, size]

theorem size_clear_of_eq_some {s : Slots α} {i : Nat} {a : α} (h : s.get? i = some a) :
    (s.clear i).size + 1 = s.size := by
  have hi : s.cells.contains i = true := by rw [contains_cells, h]; rfl
  have hpos : s.cells.size ≠ 0 := by
    intro h0
    rw [Std.ExtTreeMap.eq_empty_iff_size_eq_zero.mpr h0, Std.ExtTreeMap.contains_empty] at hi
    exact Bool.noConfusion hi
  have herase : (s.clear i).size = s.cells.size - 1 := by
    rw [size, clear, Std.ExtTreeMap.size_erase]
    simp [hi]
  rw [herase, size]
  omega

@[simp] theorem size_modify (s : Slots α) (i : Nat) (f : α → α) :
    (s.modify i f).size = s.size :=
  Std.ExtTreeMap.size_modify

end Slots

/-! ## The allocator -/

namespace Allocator

/-- What changes when a handle is issued : its slot is in use from then on, under the
generation that the handle carries, and all other slots are as before. -/
structure Issued (a : Allocator) (h : Handle) (a' : Allocator) : Prop where
  current : a'.current? h.index = some h.generation
  others : ∀ i, i ≠ h.index → a'.current? i = a.current? i
  /-- A slot that was in use before keeps its generation. -/
  kept : ∀ g, a.current? h.index = some g → g = h.generation
  /-- A new slot begins with the first generation. -/
  fresh : a.current? h.index = none → h.generation = 0
  pool : ∀ i, i ∈ a'.pool ↔ i ∈ a.pool ∧ i ≠ h.index
  nodup : a'.pool.Nodup
  /-- The slot was waiting to be used again, or was never in use. -/
  free : h.index ∈ a.pool ∨ a.current? h.index = none

theorem current?_isSome_iff (a : Allocator) (i : UInt32) :
    (a.current? i).isSome ↔ i.toNat < a.capacity := by
  simp [current?, capacity]

theorem capacity_le_alloc (a : Allocator) : a.capacity ≤ a.alloc.2.capacity := by
  unfold alloc
  split <;> simp [capacity]

theorem toNat_ofNat_size {a : Allocator} (hcap : a.capacity < 2 ^ 32) :
    (UInt32.ofNat a.generations.size).toNat = a.generations.size := by
  rw [UInt32.toNat_ofNat']
  exact Nat.mod_eq_of_lt hcap

/-- As long as there are slot numbers left, issuing a handle only takes a slot into use that no
handle in circulation has. -/
theorem issued_alloc {a : Allocator} (hnd : a.pool.Nodup)
    (hpool : ∀ i ∈ a.pool, (a.current? i).isSome) (hcap : a.alloc.2.capacity ≤ 2 ^ 32) :
    a.Issued a.alloc.1 a.alloc.2 := by
  cases hp : a.pool with
  | cons i pool =>
    obtain ⟨g, hg⟩ := Option.isSome_iff_exists.mp (hpool i (by simp [hp]))
    have halloc : a.alloc = (⟨i, g⟩, { a with pool }) := by simp [alloc, hp, hg]
    rw [hp, List.nodup_cons] at hnd
    rw [halloc]
    refine ⟨hg, fun _ _ => rfl, fun g' hg' => ?_, fun hnone => ?_, fun j => ?_, hnd.2,
      Or.inl (by simp [hp])⟩
    · exact Option.some.inj (hg'.symm.trans hg)
    · exact absurd (hnone.symm.trans hg) (by simp)
    · simp only [hp, List.mem_cons]
      constructor
      · intro hj
        exact ⟨Or.inr hj, fun he => hnd.1 (he ▸ hj)⟩
      · rintro ⟨rfl | hj, hne⟩
        · exact absurd rfl hne
        · exact hj
  | nil =>
    have halloc : a.alloc = (⟨UInt32.ofNat a.generations.size, 0⟩,
        { a with generations := a.generations.push 0 }) := by simp [alloc, hp]
    rw [halloc] at hcap ⊢
    have hlt : a.capacity < 2 ^ 32 := by
      simp only [capacity, Array.size_push] at hcap ⊢
      omega
    have hsize := toNat_ofNat_size hlt
    have hnone : a.current? (UInt32.ofNat a.generations.size) = none := by
      simp only [current?, hsize, Array.getElem?_eq_none_iff, Nat.le_refl]
    refine ⟨?_, fun j hj => ?_, fun g hg => ?_, fun _ => rfl, fun j => ?_, by simp [hp],
      Or.inr hnone⟩
    · simp only [current?, hsize, Array.getElem?_push_size]
    · have hne : j.toNat ≠ a.generations.size := fun he =>
        hj (UInt32.toNat_inj.mp (he.trans hsize.symm))
      simp only [current?, Array.getElem?_push, hne, ↓reduceIte]
    · exact absurd (hnone.symm.trans hg) (by simp)
    · simp [hp]

/-- With every slot number in use, the next handle is one that was issued before : there is no
bound on slots to be dropped from what follows. -/
theorem alloc_of_exhausted {a : Allocator} (hp : a.pool = []) (hcap : a.capacity = 2 ^ 32) :
    a.alloc.1 = ⟨0, 0⟩ := by
  have hsize : a.generations.size = 2 ^ 32 := hcap
  simp only [alloc, hp, hsize]
  rfl

@[simp] theorem capacity_free (a : Allocator) (h : Handle) :
    (a.free h).2.capacity = a.capacity := by
  unfold free
  split <;> simp [capacity]

theorem free_of_current {a : Allocator} {h : Handle}
    (hc : a.current? h.index = some h.generation) :
    a.free h = (true, { generations := a.generations.setIfInBounds h.slot (h.generation + 1)
                        pool := a.pool ++ [h.index] }) := by
  simp [free, isCurrent, hc]

theorem current?_free {a : Allocator} {h : Handle}
    (hc : a.current? h.index = some h.generation) (i : UInt32) :
    (a.free h).2.current? i = if i = h.index then some (h.generation + 1) else a.current? i := by
  have hlt : h.slot < a.generations.size :=
    (a.current?_isSome_iff h.index).mp (by simp [hc])
  rw [free_of_current hc]
  by_cases hi : i = h.index
  · subst hi
    rw [if_pos rfl]
    exact Array.getElem?_setIfInBounds_self_of_lt hlt
  · have hne : h.slot ≠ i.toNat := fun he => hi (UInt32.toNat_inj.mp he).symm
    rw [if_neg hi]
    exact Array.getElem?_setIfInBounds_ne hne

theorem pool_free {a : Allocator} {h : Handle}
    (hc : a.current? h.index = some h.generation) :
    (a.free h).2.pool = a.pool ++ [h.index] := by
  rw [free_of_current hc]

end Allocator

/-! ## Rows -/

namespace Row

/-- The components are listed in ascending order of their numbers, each at most once. -/
def Ascending (r : Row) : Prop := r.cells.Pairwise fun a b => a.1.number < b.1.number

theorem ascending_empty (h : Handle) : Ascending { handle := h } := List.Pairwise.nil

theorem fst_of_mem_place {id : ComponentId} {cell : Cell} :
    ∀ {cells : List (ComponentId × Cell)} {c : ComponentId × Cell},
      c ∈ place id cell cells → c.1 = id ∨ c ∈ cells
  | [], c, h => Or.inl (by rw [List.mem_singleton.mp h])
  | (i, d) :: rest, c, h => by
    unfold place at h
    split at h
    · rename_i hi
      rcases List.mem_cons.mp h with rfl | h
      · exact Or.inl rfl
      · exact Or.inr (List.mem_cons_of_mem _ h)
    · split at h
      · rcases List.mem_cons.mp h with rfl | h
        · exact Or.inl rfl
        · exact Or.inr h
      · rcases List.mem_cons.mp h with rfl | h
        · exact Or.inr List.mem_cons_self
        · rcases fst_of_mem_place h with h | h
          · exact Or.inl h
          · exact Or.inr (List.mem_cons_of_mem _ h)

theorem pairwise_place (id : ComponentId) (cell : Cell) :
    ∀ {cells : List (ComponentId × Cell)},
      cells.Pairwise (fun a b => a.1.number < b.1.number) →
      (place id cell cells).Pairwise fun a b => a.1.number < b.1.number
  | [], _ => by simp [place]
  | (i, d) :: rest, h => by
    obtain ⟨hhead, hrest⟩ := List.pairwise_cons.mp h
    unfold place
    split
    · rename_i hi
      subst hi
      exact List.pairwise_cons.mpr ⟨hhead, hrest⟩
    · rename_i hne
      split
      · rename_i hlt
        refine List.pairwise_cons.mpr ⟨fun c hc => ?_, h⟩
        rcases List.mem_cons.mp hc with rfl | hc
        · exact hlt
        · exact UInt32.lt_trans hlt (hhead c hc)
      · rename_i hge
        have hlt : i.number < id.number := by
          have hnum : i.number.toNat ≠ id.number.toNat := fun he =>
            hne (by cases i; cases id; exact congrArg _ (UInt32.toNat_inj.mp he))
          rw [UInt32.lt_iff_toNat_lt] at hge ⊢
          omega
        refine List.pairwise_cons.mpr ⟨fun c hc => ?_, pairwise_place id cell hrest⟩
        rcases fst_of_mem_place hc with hid | hc
        · rw [hid]
          exact hlt
        · exact hhead c hc

theorem Ascending.put {r : Row} (hr : r.Ascending) (id : ComponentId) (cell : Cell) :
    (r.put id cell).Ascending :=
  pairwise_place id cell hr

theorem Ascending.erase {r : Row} (hr : r.Ascending) (id : ComponentId) :
    (r.erase id).Ascending :=
  List.Pairwise.filter _ hr

theorem mem_of_lookup {id : ComponentId} {cell : Cell} :
    ∀ {cells : List (ComponentId × Cell)}, lookup id cells = some cell → (id, cell) ∈ cells
  | [], h => by cases h
  | (i, d) :: rest, h => by
    unfold lookup at h
    split at h
    · rename_i hi
      cases h
      rw [hi]
      exact List.mem_cons_self
    · exact List.mem_cons_of_mem _ (mem_of_lookup h)

theorem lookup_of_mem {id : ComponentId} {cell : Cell} :
    ∀ {cells : List (ComponentId × Cell)},
      cells.Pairwise (fun a b => a.1.number < b.1.number) →
      (id, cell) ∈ cells → lookup id cells = some cell
  | (i, d) :: rest, hr, h => by
    obtain ⟨hhead, hrest⟩ := List.pairwise_cons.mp hr
    unfold lookup
    rcases List.mem_cons.mp h with heq | h
    · obtain ⟨rfl, rfl⟩ := Prod.mk.inj heq
      simp
    · have hne : i ≠ id := by
        rintro rfl
        have hlt := hhead _ h
        exact UInt32.lt_irrefl _ hlt
      rw [if_neg hne]
      exact lookup_of_mem hrest h

/-- The snapshot of a row holds exactly its components with their values. -/
theorem mem_snapshot_iff {r : Row} (hr : r.Ascending) (id : ComponentId) (v : Value) :
    (id, v) ∈ r.snapshot ↔ r.value? id = some v := by
  simp only [snapshot, List.mem_map, value?, cell?, Option.map_eq_some_iff]
  constructor
  · rintro ⟨⟨i, cell⟩, hmem, heq⟩
    obtain ⟨rfl, rfl⟩ := Prod.mk.inj heq
    exact ⟨cell, lookup_of_mem hr hmem, rfl⟩
  · rintro ⟨cell, hcell, rfl⟩
    exact ⟨(id, cell), mem_of_lookup hcell, rfl⟩

theorem pairwise_snapshot {r : Row} (hr : r.Ascending) :
    r.snapshot.Pairwise fun a b => a.1.number < b.1.number :=
  List.pairwise_map.mpr hr

/-- Two rows of one entity with the same components, whatever their values. -/
structure Alike (r r' : Row) : Prop where
  handle : r'.handle = r.handle
  contains : ∀ id, r'.contains id = r.contains id
  ascending : r.Ascending → r'.Ascending

theorem Alike.refl (r : Row) : r.Alike r := ⟨rfl, fun _ => rfl, id⟩

theorem Alike.trans {r₁ r₂ r₃ : Row} (h : r₁.Alike r₂) (h' : r₂.Alike r₃) : r₁.Alike r₃ :=
  ⟨h'.handle.trans h.handle, fun id => (h'.contains id).trans (h.contains id),
    fun hr => h'.ascending (h.ascending hr)⟩

theorem contains_put (r : Row) (id j : ComponentId) (cell : Cell) :
    (r.put id cell).contains j = (decide (j = id) || r.contains j) := by
  unfold contains
  rw [cell?_put]
  by_cases hj : j = id <;> simp [hj]

theorem contains_erase (r : Row) (id j : ComponentId) :
    (r.erase id).contains j = (!decide (j = id) && r.contains j) := by
  unfold contains
  rw [cell?_erase]
  by_cases hj : j = id <;> simp [hj]

theorem contains_of_value? {r : Row} {id : ComponentId} {v : Value} (h : r.value? id = some v) :
    r.contains id = true := by
  obtain ⟨cell, hcell, -⟩ := Option.map_eq_some_iff.mp h
  simp [contains, hcell]

/-- A component that is there may get another cell. -/
theorem alike_put {r : Row} {id : ComponentId} (h : r.contains id = true) (cell : Cell) :
    r.Alike (r.put id cell) := by
  refine ⟨rfl, fun j => ?_, fun hr => hr.put id cell⟩
  rw [contains_put]
  by_cases hj : j = id
  · simp [hj, h]
  · simp [hj]

theorem alike_write (r : Row) (id : ComponentId) (v : Value) : r.Alike (r.write id v) := by
  unfold write
  cases hc : r.cell? id with
  | none => exact Alike.refl r
  | some cell => exact alike_put (by simp [contains, hc]) _

end Row

/-! ## The registry -/

theorem HostId.number_ne {a b : HostId} (h : a ≠ b) : a.number ≠ b.number := by
  cases a
  cases b
  exact fun he => h (congrArg _ he)

namespace Registry

theorem find?_eq_some_iff {r : Registry} {h : Handle} {e : Entry} :
    r.find? h = some e ↔ r.entries.get? h.slot = some e ∧ e.handle = h := by
  simp [find?, Option.filter_eq_some_iff]

theorem bound_eq_ok_iff {r : Registry} {h : Handle} {e : Entry} :
    r.bound h = .ok e ↔ r.find? h = some e ∧ e.state = .bound := by
  rw [← entry_eq_ok_iff]
  unfold bound
  cases r.entry h with
  | error error => simp
  | ok e' =>
    by_cases hs : e'.state = .bound
    · simp only [hs, ↓reduceIte, Except.ok.injEq]
      constructor
      · rintro rfl
        exact ⟨rfl, hs⟩
      · exact fun he => he.1
    · simp only [hs, ↓reduceIte, Except.ok.injEq, reduceCtorEq, false_iff, not_and]
      rintro rfl
      exact hs

theorem isBound_iff {r : Registry} {h : Handle} :
    r.isBound h = true ↔ ∃ e, r.find? h = some e ∧ e.state = .bound := by
  simp only [← bound_eq_ok_iff]
  unfold isBound
  cases r.bound h <;> simp [Except.toBool]

/-- A handle of an earlier generation of its slot is refused as stale. -/
theorem bound_of_moved {r : Registry} {h : Handle} {g : UInt32} (hf : r.find? h = none)
    (hg : r.allocator.current? h.index = some g) (hne : g ≠ h.generation) :
    r.bound h = .error (.staleHandle h) := by
  simp [bound, entry, hf, hg, hne]

theorem lookup?_eq_some_iff {r : Registry} {id : HostId} {h : Handle} :
    r.lookup? id = some h ↔
      ∃ h', r.handleOf? id = some h' ∧ ∃ e, r.bound h' = .ok e ∧ e.handle = h := by
  unfold lookup?
  cases r.handleOf? id with
  | none => simp
  | some h' =>
    cases hb : r.bound h' <;> simp [Except.toOption, hb]

theorem handleOf?_of_insert {r r' : Registry} {id : HostId} {h : Handle}
    (hr : r'.byHost = r.byHost.insert id.number h) (j : HostId) :
    r'.handleOf? j = if j = id then some h else r.handleOf? j := by
  by_cases hj : j = id
  · subst hj
    simp [handleOf?, hr]
  · simp [handleOf?, hr, Std.TreeMap.getElem?_insert, hj, HostId.number_ne (Ne.symm hj)]

theorem handleOf?_of_erase {r r' : Registry} {id : HostId}
    (hr : r'.byHost = r.byHost.erase id.number) (j : HostId) :
    r'.handleOf? j = if j = id then none else r.handleOf? j := by
  by_cases hj : j = id
  · subst hj
    simp [handleOf?, hr]
  · simp [handleOf?, hr, Std.TreeMap.getElem?_erase, hj, HostId.number_ne (Ne.symm hj)]

theorem size_insert_byHost {r : Registry} {id : HostId} (hf : r.handleOf? id = none)
    (h : Handle) : (r.byHost.insert id.number h).size = r.size + 1 := by
  have hi : r.byHost.contains id.number = false := by
    rw [← Std.TreeMap.isSome_getElem?_eq_contains]
    exact congrArg Option.isSome hf
  rw [Std.TreeMap.size_insert]
  simp [hi, size]

theorem size_erase_byHost {r : Registry} {id : HostId} {h : Handle}
    (hf : r.handleOf? id = some h) : (r.byHost.erase id.number).size = r.size - 1 := by
  have hi : r.byHost.contains id.number = true := by
    rw [← Std.TreeMap.isSome_getElem?_eq_contains]
    exact congrArg Option.isSome hf
  rw [Std.TreeMap.size_erase]
  simp [hi, size]

theorem setState_of_find? {r : Registry} {h : Handle} {e : Entry} (hf : r.find? h = some e)
    (state : Lifecycle) : r.setState h state =
      .ok { r with entries := r.entries.modify h.slot fun e => { e with state } } := by
  simp [setState, entry_eq_ok_iff.mpr hf, modify, hf]

theorem get?_entries_markDegraded (r : Registry) (h : Handle) (i : Nat) :
    ((r.markDegraded h).entries.get? i) =
      if i = h.slot ∧ (r.find? h).isSome then
        (r.entries.get? i).map fun e => { e with degraded := true }
      else r.entries.get? i := by
  unfold markDegraded modify
  cases hr : r.find? h with
  | none => simp
  | some e => simp [Slots.get?_modify]

@[simp] theorem allocator_markDegraded (r : Registry) (h : Handle) :
    (r.markDegraded h).allocator = r.allocator := by
  unfold markDegraded modify
  split <;> rfl

@[simp] theorem byHost_markDegraded (r : Registry) (h : Handle) :
    (r.markDegraded h).byHost = r.byHost := by
  unfold markDegraded modify
  split <;> rfl

@[simp] theorem size_entries_markDegraded (r : Registry) (h : Handle) :
    (r.markDegraded h).entries.size = r.entries.size := by
  unfold markDegraded modify
  split <;> simp

/-- The registry with a binding under way for a host object that had none. -/
def opened (r : Registry) (host : HostRef) : Registry :=
  { allocator := r.allocator.alloc.2
    entries := r.entries.put r.allocator.alloc.1.slot ⟨r.allocator.alloc.1, host, .binding, false⟩
    byHost := r.byHost.insert host.id.number r.allocator.alloc.1 }

theorem bind_of_fresh {r : Registry} {host : HostRef} (hf : r.handleOf? host.id = none) :
    r.bind host = .ok (r.allocator.alloc.1, r.opened host) := by
  simp [bind, hf, opened]

theorem find?_opened (r : Registry) (host : HostRef) :
    (r.opened host).find? r.allocator.alloc.1 =
      some ⟨r.allocator.alloc.1, host, .binding, false⟩ := by
  simp [find?, opened, Slots.get?_put]

/-- The registry with a completed binding for a host object that had none. -/
def settled (r : Registry) (host : HostRef) : Registry :=
  { r.opened host with
    entries := (r.opened host).entries.modify r.allocator.alloc.1.slot fun e =>
      { e with state := .bound } }

theorem get?_entries_settled (r : Registry) (host : HostRef) (i : Nat) :
    (r.settled host).entries.get? i =
      if i = r.allocator.alloc.1.slot then some ⟨r.allocator.alloc.1, host, .bound, false⟩
      else r.entries.get? i := by
  simp only [settled, opened, Slots.get?_modify, Slots.get?_put]
  split <;> rfl

/-- The same, with the entity flagged as degraded unless all went well. -/
def flagged (r : Registry) (host : HostRef) (fine : Bool) : Registry :=
  if fine then r.settled host else (r.settled host).markDegraded r.allocator.alloc.1

theorem get?_entries_flagged (r : Registry) (host : HostRef) (fine : Bool) (i : Nat) :
    (r.flagged host fine).entries.get? i =
      if i = r.allocator.alloc.1.slot then some ⟨r.allocator.alloc.1, host, .bound, !fine⟩
      else r.entries.get? i := by
  cases fine with
  | true => exact get?_entries_settled r host i
  | false =>
    have hfind : ((r.settled host).find? r.allocator.alloc.1).isSome := by
      simp [find?, get?_entries_settled]
    simp only [flagged, Bool.false_eq_true, ↓reduceIte, get?_entries_markDegraded, hfind,
      and_true, get?_entries_settled]
    split <;> rfl

@[simp] theorem allocator_flagged (r : Registry) (host : HostRef) (fine : Bool) :
    (r.flagged host fine).allocator = r.allocator.alloc.2 := by
  cases fine <;> simp [flagged, settled, opened]

@[simp] theorem byHost_flagged (r : Registry) (host : HostRef) (fine : Bool) :
    (r.flagged host fine).byHost = r.byHost.insert host.id.number r.allocator.alloc.1 := by
  cases fine <;> simp [flagged, settled, opened]

theorem size_entries_flagged {r : Registry} (host : HostRef) (fine : Bool)
    (hr : r.entries.get? r.allocator.alloc.1.slot = none) :
    (r.flagged host fine).entries.size = r.entries.size + 1 := by
  cases fine <;> simp [flagged, settled, opened, Slots.size_put_of_eq_none hr]

/-- The registry without a binding : its slot is empty, its host identity unmapped, and its
handle given back. -/
def without (r : Registry) (e : Entry) : Registry :=
  { allocator := (r.allocator.free e.handle).2
    entries := (r.entries.modify e.handle.slot fun e => { e with state := .unbinding }).clear
      e.handle.slot
    byHost := r.byHost.erase e.host.id.number }

theorem get?_entries_without (r : Registry) (e : Entry) (i : Nat) :
    (r.without e).entries.get? i = if i = e.handle.slot then none else r.entries.get? i := by
  simp only [without, Slots.get?_clear, Slots.get?_modify]
  split <;> rfl

theorem resolve?_eq_some_iff {r : Registry} {h : Handle} {host : HostRef} :
    r.resolve? h = some host ↔ ∃ e, r.bound h = .ok e ∧ e.host = host := by
  unfold resolve?
  cases r.bound h <;> simp [Except.toOption]

end Registry

/-! ## The world -/

namespace World

theorem row?_eq_some_iff {w : World} {h : Handle} {row : Row} :
    w.row? h = some row ↔ w.rows.get? h.slot = some row ∧ row.handle = h := by
  simp [row?, Option.filter_eq_some_iff]

theorem get?_rows_modify (w : World) (h : Handle) (f : Row → Row) (i : Nat) :
    (w.modify h f).rows.get? i =
      if i = h.slot ∧ (w.row? h).isSome then (w.rows.get? i).map f else w.rows.get? i := by
  unfold modify
  cases hr : w.row? h with
  | none => simp
  | some row =>
    simp only [Slots.get?_modify, Option.isSome_some, and_true]

theorem spawn_of_free {w : World} {h : Handle} (hw : w.rows.get? h.slot = none) :
    w.spawn h = { rows := w.rows.put h.slot { handle := h }, size := w.size + 1 } := by
  simp [spawn, hw]

theorem despawn_of_row? {w : World} {h : Handle} {row : Row} (hw : w.row? h = some row) :
    w.despawn h = { rows := w.rows.clear h.slot, size := w.size - 1 } := by
  simp [despawn, hw]

@[simp] theorem size_modify (w : World) (h : Handle) (f : Row → Row) :
    (w.modify h f).size = w.size := by
  unfold modify
  split <;> rfl

@[simp] theorem size_rows_modify (w : World) (h : Handle) (f : Row → Row) :
    (w.modify h f).rows.size = w.rows.size := by
  unfold modify
  split <;> simp

end World

end Tether
