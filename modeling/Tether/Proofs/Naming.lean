import Tether.Proofs.Registration

/-!
# Names and numbers of components

However often names are registered, in whatever order, a name has one number and a number one name.
The numbers that are given are `0, 1, 2, …`, in this order, each at the first call for its name, and
what a name or a number is asked for later is what the calls have answered
(`ComponentNames.numbered_registerAll`).

A name is looked up in the map, a number among the records, and the next number is that of the
counter. That the three agree comes from one fact, which each call keeps
(`ComponentNames.holds_registerAll`) : all of them hold the names of the calls without repetitions,
and the answer to a call is the place of its name among these.
-/

namespace Tether

/-- Where different elements have different images, repetitions are those of the elements. -/
theorem eraseDups_map {α β : Type} [DecidableEq α] [DecidableEq β] {f : α → β} {xs : List α}
    (h : ∀ x ∈ xs, ∀ y ∈ xs, f x = f y → x = y) :
    (xs.map f).eraseDups = xs.eraseDups.map f := by
  induction xs using List.reverseRecOn with
  | nil => rfl
  | append_singleton xs x ih =>
    have hmem : f x ∈ xs.map f ↔ x ∈ xs := by
      refine ⟨fun hx => ?_, List.mem_map_of_mem⟩
      obtain ⟨y, hy, heq⟩ := List.mem_map.mp hx
      rwa [← h y (List.mem_append_left _ hy) x (by simp) heq]
    have ih := ih fun y hy z hz =>
      h y (List.mem_append_left _ hy) z (List.mem_append_left _ hz)
    rw [List.map_append, List.map_singleton, eraseDups_concat, eraseDups_concat, ih]
    simp only [hmem]
    split
    · rfl
    · rw [List.map_append, List.map_singleton]

namespace ComponentNames

/-- Register names one after another. The answer is the numbers that are given. -/
def registerAll : List String → ComponentNames → List ComponentId × ComponentNames
  | [], c => ([], c)
  | name :: names, c =>
    let (id, c) := c.register name
    let (ids, c) := registerAll names c
    (id :: ids, c)

/-- Where map, records and counter hold the names of a list, they hold further ones as well, and
each is given its number among all of them. -/
theorem holds_registerAll (before : List String) {c : ComponentNames} (h : c.Holds before)
    (names : List String) : (registerAll names c).1 = names.map (numberIn (before ++ names)) ∧
      (registerAll names c).2.Holds (before ++ names) := by
  induction names generalizing c before with
  | nil => exact ⟨rfl, by rw [List.append_nil]; exact h⟩
  | cons name names ih =>
    obtain ⟨hnumber, hnames⟩ := h.register name
    obtain ⟨hids, hall⟩ := ih _ hnames
    have hsplit : before ++ [name] ++ names = before ++ name :: names := by
      rw [List.append_assoc, List.singleton_append]
    rw [hsplit] at hids hall
    have hlater : (c.register name).1 = numberIn (before ++ name :: names) name := by
      rw [hnumber, ← hsplit, numberIn_append (List.mem_append_right _ List.mem_cons_self)]
    exact ⟨List.cons_eq_cons.mpr ⟨hlater, hids⟩, hall⟩

/-- The names that were registered, call by call, and the numbers that were given for them, are what
is held in the end. -/
structure Numbered (names : List String) (ids : List ComponentId) (c : ComponentNames) : Prop where
  answered : ids.length = names.length
  /-- New numbers are given in their order, and none is left out. -/
  issued : ids.eraseDups.map (fun id => id.number.toNat) = List.range c.size
  size : c.size = names.eraseDups.length
  /-- The counter has come as far as there are names, -/
  counter : c.next = UInt32.ofNat c.size
  /-- and so have the records, of which none is empty. -/
  records : c.records.size = c.size ∧ none ∉ c.records
  /-- A name has the number that was given for it, and none if it was never registered. -/
  find : ∀ name id, c.find? name = some id ↔ (name, id) ∈ names.zip ids
  /-- A number has the name that it was given for, and none if it was never given. -/
  name : ∀ id name, c.name? id = some name ↔ (name, id) ∈ names.zip ids
  info : ∀ id info, c.info? id = some info ↔ info.id = id ∧ (info.name, id) ∈ names.zip ids
  /-- A name that is registered again is given its number again, and nothing changes. -/
  again : ∀ name ∈ names, ∃ id, (name, id) ∈ names.zip ids ∧ c.register name = (id, c)

/-- As long as the numbers last, a number is the place of its name. -/
theorem toNat_numberIn {names : List String} (hsize : names.eraseDups.length ≤ 2 ^ 32)
    {name : String} (hname : name ∈ names) :
    (numberIn names name).number.toNat = names.eraseDups.idxOf name := by
  have hplace := List.idxOf_lt_length_of_mem (List.mem_eraseDups.mpr hname)
  exact UInt32.toNat_ofNat_of_lt' (Nat.lt_of_lt_of_le hplace hsize)

theorem numbered_toNat (id : ComponentId) : numbered id.number.toNat = id := by
  rw [numbered, UInt32.ofNat_toNat]

section Held

variable {c : ComponentNames} {names : List String} (h : c.Holds names)
  (hsize : names.eraseDups.length ≤ 2 ^ 32)
include h hsize

/-- The record under a number is of that number and of the name at its place. -/
theorem Holds.info?_eq (id : ComponentId) :
    c.info? id = names.eraseDups[id.number.toNat]?.map fun name => ⟨id, name⟩ := by
  rw [info?, ← Array.getElem?_toList, h.records hsize, List.getElem?_mapIdx, numbered_toNat]
  cases names.eraseDups[id.number.toNat]? <;> rfl

theorem Holds.info?_eq_some_iff (id : ComponentId) (info : ComponentInfo) :
    c.info? id = some info ↔
      info.id = id ∧ info.name ∈ names ∧ id = numberIn names info.name := by
  rw [h.info?_eq hsize, Option.map_eq_some_iff]
  constructor
  · rintro ⟨name, hplace, rfl⟩
    have hname := List.mem_of_getElem? hplace
    refine ⟨rfl, List.mem_eraseDups.mp hname, ?_⟩
    rw [numberIn, (idxOf_eq_iff (nodup_eraseDups names) hname).mpr hplace, numbered_toNat]
  · rintro ⟨rfl, hname, hid⟩
    refine ⟨info.name, ?_, rfl⟩
    rw [hid, toNat_numberIn hsize hname]
    exact List.getElem?_idxOf (List.mem_eraseDups.mpr hname)

theorem Holds.name?_eq_some_iff (id : ComponentId) (name : String) :
    c.name? id = some name ↔ name ∈ names ∧ id = numberIn names name := by
  rw [name?, Option.map_eq_some_iff]
  constructor
  · rintro ⟨info, hinfo, rfl⟩
    exact ((h.info?_eq_some_iff hsize id info).mp hinfo).2
  · exact fun hname => ⟨⟨id, name⟩, (h.info?_eq_some_iff hsize id _).mpr ⟨rfl, hname⟩, rfl⟩

theorem Holds.records_full : c.records.size = c.size ∧ none ∉ c.records := by
  rw [← Array.length_toList, Array.mem_def, h.records hsize, List.length_mapIdx, h.size]
  exact ⟨rfl, by simp [List.mem_mapIdx]⟩

end Held

/-- The numbers that names are given, in the order in which they are new. -/
theorem issued_of_names {names : List String} (hsize : names.eraseDups.length ≤ 2 ^ 32) :
    (names.map (numberIn names)).eraseDups.map (fun id => id.number.toNat) =
      List.range names.eraseDups.length := by
  rw [eraseDups_map fun name hname other hother => (numberIn_inj hsize hname hother).mp,
    List.map_map]
  refine List.ext_getElem (by simp) fun n hn _ => ?_
  rw [List.length_map] at hn
  have hmem := List.mem_eraseDups.mp (List.getElem_mem hn)
  rw [List.getElem_map, List.getElem_range, Function.comp_apply, toNat_numberIn hsize hmem,
    (nodup_eraseDups names).idxOf_getElem]

/-- Registering names numbers them one to one, by their first calls. -/
theorem numbered_registerAll (names : List String) (hsize : names.eraseDups.length ≤ 2 ^ 32) :
    Numbered names (registerAll names {}).1 (registerAll names {}).2 := by
  obtain ⟨hids, h⟩ := holds_registerAll [] holds_empty names
  rw [List.nil_append] at hids h
  generalize (registerAll names {}).1 = ids at hids
  generalize (registerAll names {}).2 = c at h
  subst hids
  have hgiven (name : String) (id : ComponentId) :
      (name, id) ∈ names.zip (names.map (numberIn names)) ↔
        name ∈ names ∧ id = numberIn names name := by
    rw [← List.map_prod_left_eq_zip, List.mem_map]
    simp [eq_comm]
  constructor
  case answered => exact List.length_map ..
  case issued => rw [h.size, issued_of_names hsize]
  case size => exact h.size
  case counter => rw [h.next, h.size]
  case records => exact h.records_full hsize
  case find =>
    intro name id
    rw [hgiven, h.find]
    simp [eq_comm]
  case name => exact fun id name => (h.name?_eq_some_iff hsize id name).trans (hgiven name id).symm
  case info =>
    intro id info
    rw [hgiven]
    exact h.info?_eq_some_iff hsize id info
  case again =>
    intro name hin
    refine ⟨_, (hgiven name _).mpr ⟨hin, rfl⟩, register_known ?_⟩
    rw [h.find, if_pos hin]

/-- Two components, one of them registered again. -/
theorem numbered_registerAll_again :
    let names := ["Position", "Health", "Position"]
    names.eraseDups.length ≤ 2 ^ 32 ∧
      (registerAll names {}).1 = [⟨0⟩, ⟨1⟩, ⟨0⟩] ∧
      Numbered names (registerAll names {}).1 (registerAll names {}).2 :=
  ⟨by decide, by decide +kernel, numbered_registerAll _ (by decide)⟩

end ComponentNames

end Tether
