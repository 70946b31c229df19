import Mathlib.Data.List.Forall2
import Mathlib.Data.List.Induction
import Mathlib.Data.List.Nodup
import Tether.Settings.Basic

/-!
# Registration

Component names are numbered in the order in which they first occur, and a rule is refused exactly
if its capability is tied to its component already. A table keeps the names in a map, in records
and in a counter, which agree (`ComponentNames.Holds`), and beside the bindings the pairs that are
taken, which are theirs (`Table.Orderly`).

So what comes of the bindings of settings can be read off the list (`Table.Built`). The table is
built if every merge function is known and no pair occurs twice, and then it has a binding for each
entry. Otherwise the first entry that offends is the one that is reported. A refused rule leaves the
table as it was (`Table.registration`).

Component numbers have 32 bits. As long as they last, two names never share a number.
-/

namespace Tether

/-! ## First occurrences -/

theorem nodup_snoc {α : Type} {xs : List α} (hxs : xs.Nodup) {x : α} (hx : x ∉ xs) :
    (xs ++ [x]).Nodup := by
  rw [← List.concat_eq_append]
  exact hxs.concat hx

/-- An element at the end is kept if it is new. -/
theorem eraseDups_concat {α : Type} [DecidableEq α] (xs : List α) (x : α) :
    (xs ++ [x]).eraseDups = if x ∈ xs then xs.eraseDups else xs.eraseDups ++ [x] := by
  rw [List.eraseDups_append]
  split <;> simp [List.removeAll, List.eraseDups_cons, *]

theorem nodup_eraseDups {α : Type} [DecidableEq α] (xs : List α) : xs.eraseDups.Nodup := by
  induction xs using List.reverseRecOn with
  | nil => exact List.nodup_nil
  | append_singleton xs x ih =>
    rw [eraseDups_concat]
    split
    · exact ih
    · rename_i hx
      exact nodup_snoc ih fun h => hx (List.mem_eraseDups.mp h)

/-- Without repetitions, the place of an element is the one where it is. -/
theorem idxOf_eq_iff {α : Type} [DecidableEq α] {xs : List α} (hxs : xs.Nodup) {x : α}
    (hx : x ∈ xs) {n : Nat} : xs.idxOf x = n ↔ xs[n]? = some x := by
  constructor
  · rintro rfl
    exact List.getElem?_idxOf hx
  · intro h
    obtain ⟨hn, rfl⟩ := List.getElem?_eq_some_iff.mp h
    exact hxs.idxOf_getElem n hn

/-! ## Numbers of names -/

namespace ComponentNames

/-- The number that a name has in a list of names, by its first occurrence. -/
def numberIn (names : List String) (name : String) : ComponentId :=
  numbered (names.eraseDups.idxOf name)

/-- Names that come later do not change the number of a name. -/
theorem numberIn_append {names : List String} {name : String} (h : name ∈ names)
    (later : List String) : numberIn (names ++ later) name = numberIn names name := by
  rw [numberIn, List.eraseDups_append, List.idxOf_append_of_mem (List.mem_eraseDups.mpr h),
    numberIn]

/-- Different numbers up to 2³² are different numbers of components. -/
theorem numbered_inj {m n : Nat} (hm : m < 2 ^ 32) (hn : n < 2 ^ 32) :
    numbered m = numbered n ↔ m = n := by
  refine ⟨fun h => ?_, congrArg numbered⟩
  have h' := congrArg (fun id : ComponentId => id.number.toNat) h
  simpa [numbered, Nat.mod_eq_of_lt hm, Nat.mod_eq_of_lt hn] using h'

/-- As long as the numbers last, two names never share one. -/
theorem numberIn_inj {names : List String} (hsize : names.eraseDups.length ≤ 2 ^ 32)
    {name other : String} (hname : name ∈ names) (hother : other ∈ names) :
    numberIn names name = numberIn names other ↔ name = other := by
  have hlt {n : String} (hn : n ∈ names) : names.eraseDups.idxOf n < 2 ^ 32 :=
    Nat.lt_of_lt_of_le (List.idxOf_lt_length_of_mem (List.mem_eraseDups.mpr hn)) hsize
  rw [numberIn, numberIn, numbered_inj (hlt hname) (hlt hother),
    List.idxOf_inj (List.mem_eraseDups.mpr hname)]

/-- What is kept when the names of a list were registered. -/
structure Holds (c : ComponentNames) (names : List String) : Prop where
  /-- The map has the number of each name, and nothing else. -/
  find : ∀ name, c.find? name = if name ∈ names then some (numberIn names name) else none
  size : c.size = names.eraseDups.length
  /-- The counter has come as far as there are names. -/
  next : c.next = UInt32.ofNat names.eraseDups.length
  /-- As long as the numbers last, the records are those of the names, without a gap. -/
  records : names.eraseDups.length ≤ 2 ^ 32 →
    c.records.toList = names.eraseDups.mapIdx fun n name => some ⟨numbered n, name⟩

theorem holds_empty : ({} : ComponentNames).Holds [] where
  find _ := by simp [find?]
  size := by simp [ComponentNames.size]
  next := rfl
  records _ := rfl

variable {c : ComponentNames} {names : List String}

theorem Holds.eq_of_find? (h : c.Holds names) {name : String} {id : ComponentId}
    (hfind : c.find? name = some id) : name ∈ names ∧ id = numberIn names name := by
  rw [h.find] at hfind
  split at hfind
  · exact ⟨‹_›, (Option.some.inj hfind).symm⟩
  · cases hfind

/-- A name that is there already changes nothing. -/
theorem Holds.append_known (h : c.Holds names) {name : String} (hname : name ∈ names) :
    c.Holds (names ++ [name]) := by
  have hnames : (names ++ [name]).eraseDups = names.eraseDups := by
    rw [eraseDups_concat, if_pos hname]
  refine ⟨fun other => ?_, hnames ▸ h.size, hnames ▸ h.next, hnames ▸ h.records⟩
  have hmem : other ∈ names ++ [name] ↔ other ∈ names := by
    simp only [List.mem_append, List.mem_singleton, or_iff_left_iff_imp]
    exact fun heq => heq ▸ hname
  simp only [h.find, hmem, numberIn, hnames]

/-- A new name goes to the end of the records, under the number that the counter has come to. -/
theorem Holds.append_new (h : c.Holds names) {name : String} (hname : name ∉ names) :
    Holds
      { numbers := c.numbers.insert name ⟨c.next⟩
        records := place c.records ⟨⟨c.next⟩, name⟩
        next := c.next + 1 } (names ++ [name]) := by
  have hnames : (names ++ [name]).eraseDups = names.eraseDups ++ [name] := by
    rw [eraseDups_concat, if_neg hname]
  have hnew : name ∉ names.eraseDups := mt List.mem_eraseDups.mp hname
  have habsent : c.numbers[name]? = none := (h.find name).trans (if_neg hname)
  have hlength : (names ++ [name]).eraseDups.length = names.eraseDups.length + 1 := by
    rw [hnames, List.length_append, List.length_singleton]
  constructor
  case find =>
    intro other
    simp only [find?, Std.TreeMap.getElem?_insert, Std.LawfulEqCmp.compare_eq_iff_eq]
    by_cases heq : name = other
    · subst heq
      rw [if_pos rfl, if_pos (List.mem_append_right _ List.mem_cons_self), numberIn, hnames,
        List.idxOf_append_of_notMem hnew, List.idxOf_cons_self, Nat.add_zero, numbered, h.next]
    · have hmem : other ∈ names ++ [name] ↔ other ∈ names := by simp [Ne.symm heq]
      rw [if_neg heq, show c.numbers[other]? = _ from h.find other]
      simp only [hmem]
      split
      · rw [numberIn_append ‹_›]
      · rfl
  case size =>
    rw [hlength, ← h.size]
    show (c.numbers.insert name _).size = c.numbers.size + 1
    rw [Std.TreeMap.size_insert, if_neg]
    rw [Std.TreeMap.contains_eq_isSome_getElem?, habsent]
    exact Bool.false_ne_true
  case next =>
    rw [hlength, UInt32.ofNat_add, h.next]
    rfl
  case records =>
    rw [hlength]
    intro hsize
    have hrecords := h.records (Nat.le_of_succ_le hsize)
    have hcount : c.records.size = names.eraseDups.length := by
      rw [← Array.length_toList, hrecords, List.length_mapIdx]
    have hplace : c.next.toNat = c.records.size := by
      rw [h.next, hcount, UInt32.toNat_ofNat_of_lt' (show _ < 2 ^ 32 from hsize)]
    rw [place_next hplace, Array.toList_push, hrecords, hnames, List.mapIdx_append, h.next,
      List.mapIdx_singleton, Nat.zero_add, numbered]

/-- One more name is given its number among all, and is kept. -/
theorem Holds.register (h : c.Holds names) (name : String) :
    (c.register name).1 = numberIn (names ++ [name]) name ∧
      (c.register name).2.Holds (names ++ [name]) := by
  have hfind := h.find name
  split at hfind
  · rename_i hname
    rw [register_known hfind, numberIn_append hname]
    exact ⟨rfl, h.append_known hname⟩
  · rename_i hname
    have hnew := h.append_new hname
    rw [register_new hfind]
    refine ⟨?_, hnew⟩
    rw [h.next, numberIn, eraseDups_concat, if_neg hname,
      List.idxOf_append_of_notMem (mt List.mem_eraseDups.mp hname), List.idxOf_cons_self]
    rfl

end ComponentNames

/-! ## Tables -/

/-- The tables that registering rules and component names leads to. -/
inductive Table.Registered : Table → Prop
  | empty : Registered {}
  | rule {t : Table} (h : Registered t) (rule : Rule) : Registered (t.register rule).2
  | component {t : Table} (h : Registered t) (name : String) :
    Registered (t.registerComponent name).2

/-- The pair that a binding ties. -/
def Binding.pair (b : Binding) : Capability × ComponentId := (b.capability, b.component)

namespace Table

/-- What ties the names, the bindings and the pairs of a table together. -/
structure Orderly (t : Table) : Prop where
  names : ∃ names, t.components.Holds names
  /-- The pairs that are taken are those of the bindings, -/
  pairs : ∀ p, p ∈ t.pairs ↔ p ∈ t.bindings.map Binding.pair
  /-- each of one binding, -/
  nodup : (t.bindings.map Binding.pair).Nodup
  /-- and a binding has the number of its component's name. -/
  numbers : ∀ b ∈ t.bindings, t.components.find? b.componentName = some b.component

/-- What registering a rule comes to. -/
theorem register_eq (t : Table) (rule : Rule) :
    t.register rule =
      if (rule.capability, (t.components.register rule.component).1) ∈ t.pairs then
        (.error (.duplicateBinding rule.capability rule.component),
          { t with components := (t.components.register rule.component).2 })
      else
        (.ok (t.components.register rule.component).1,
          { components := (t.components.register rule.component).2
            bindings := t.bindings ++
              [⟨rule.capability, (t.components.register rule.component).1, rule.component,
                rule.direction, rule.policy⟩]
            pairs := (rule.capability, (t.components.register rule.component).1) :: t.pairs }) :=
  rfl

theorem Orderly.registerComponent {t : Table} (h : t.Orderly) (name : String) :
    (t.registerComponent name).2.Orderly := by
  obtain ⟨names, hnames⟩ := h.names
  obtain ⟨-, hmore⟩ := hnames.register name
  refine ⟨⟨_, hmore⟩, h.pairs, h.nodup, fun b hb => ?_⟩
  obtain ⟨hmem, hid⟩ := hnames.eq_of_find? (h.numbers b hb)
  show (t.components.register name).2.find? _ = _
  rw [hmore.find, if_pos (List.mem_append_left _ hmem),
    ComponentNames.numberIn_append hmem, hid]

theorem Orderly.register {t : Table} (h : t.Orderly) (rule : Rule) :
    (t.register rule).2.Orderly := by
  have hnamed := h.registerComponent rule.component
  rw [register_eq]
  split
  · exact hnamed
  · rename_i hfree
    refine ⟨hnamed.names, fun p => ?_, ?_, fun b hb => ?_⟩
    · simp [h.pairs, Binding.pair, or_comm]
    · rw [List.map_append, List.map_singleton]
      exact nodup_snoc h.nodup (mt (h.pairs _).mpr hfree)
    · rcases List.mem_append.mp hb with hb | hb
      · exact hnamed.numbers b hb
      · obtain ⟨names, hnames⟩ := h.names
        obtain ⟨hid, hmore⟩ := hnames.register rule.component
        rw [List.mem_singleton.mp hb]
        show (t.components.register rule.component).2.find? rule.component = some _
        rw [hmore.find, if_pos (List.mem_append_right _ List.mem_cons_self), hid]

theorem Registered.orderly {t : Table} (h : Registered t) : t.Orderly := by
  induction h with
  | empty => exact ⟨⟨[], ComponentNames.holds_empty⟩, by simp, List.nodup_nil, by simp⟩
  | rule _ rule ih => exact ih.register rule
  | component _ name ih => exact ih.registerComponent name

/-- What a refused rule comes to : it repeats a pair, and leaves the table as it was. Bindings and
pairs are left whatever happens; a name that is new is refused only if there is no number left for
it, since one that has come round may be taken. -/
structure Refuses (t : Table) (rule : Rule) (error : Error) : Prop where
  duplicate : error = .duplicateBinding rule.capability rule.component
  bindings : (t.register rule).2.bindings = t.bindings
  pairs : (t.register rule).2.pairs = t.pairs
  kept : (t.register rule).2 = t ∨ 2 ^ 32 ≤ t.components.size

theorem Orderly.refuses {t : Table} (h : t.Orderly) {rule : Rule} {error : Error}
    (herror : (t.register rule).1 = .error error) : t.Refuses rule error := by
  rw [register_eq] at herror
  split at herror
  · rename_i htaken
    cases herror
    have hafter := congrArg Prod.snd ((t.register_eq rule).trans (if_pos htaken))
    refine ⟨rfl, by rw [hafter], by rw [hafter], ?_⟩
    cases hfind : t.components.find? rule.component with
    | some id =>
      left
      rw [hafter, ComponentNames.register_known hfind]
    | none =>
      -- a new name has a number that no binding has, unless numbers have come round
      right
      obtain ⟨names, hnames⟩ := h.names
      rw [ComponentNames.register_new hfind] at htaken
      obtain ⟨b, hb, hpair⟩ := List.mem_map.mp ((h.pairs _).mp htaken)
      obtain ⟨hmem, hnumber⟩ := hnames.eq_of_find? (h.numbers b hb)
      have hplace := List.idxOf_lt_length_of_mem (List.mem_eraseDups.mpr hmem)
      have heq : ComponentNames.numbered (names.eraseDups.idxOf b.componentName) =
          ComponentNames.numbered names.eraseDups.length := by
        rw [← ComponentNames.numberIn, ← hnumber, (Prod.mk.inj hpair).2, hnames.next]
        rfl
      by_contra hsize
      rw [hnames.size, Nat.not_le] at hsize
      rw [ComponentNames.numbered_inj (Nat.lt_trans hplace hsize) hsize] at heq
      exact absurd heq (Nat.ne_of_lt hplace)
  · cases herror

end Table

/-! ## Merge functions by name -/

namespace Resolvers

/-- A merge function is the one that was registered last under a name. -/
def Gives (r : Resolvers) (name : String) (resolver : Resolver) : Prop :=
  ∃ later earlier, r.entries = later ++ (name, resolver) :: earlier ∧ ∀ e ∈ later, e.1 ≠ name

/-- No merge function was registered under a name. -/
def Lacks (r : Resolvers) (name : String) : Prop := ∀ e ∈ r.entries, e.1 ≠ name

variable {r : Resolvers} {name : String}

theorem find?_eq_some_iff {resolver : Resolver} :
    r.find? name = some resolver ↔ r.Gives name resolver := by
  rw [find?, Option.map_eq_some_iff]
  constructor
  · rintro ⟨⟨other, _⟩, hfind, rfl⟩
    obtain ⟨hname, later, earlier, hentries, hlater⟩ := List.find?_eq_some_iff_append.mp hfind
    obtain rfl : other = name := of_decide_eq_true hname
    exact ⟨later, earlier, hentries, fun e he => by simpa using hlater e he⟩
  · rintro ⟨later, earlier, hentries, hlater⟩
    refine ⟨_, List.find?_eq_some_iff_append.mpr ⟨by simp, later, earlier, hentries, ?_⟩, rfl⟩
    exact fun e he => by simpa using hlater e he

theorem find?_eq_none_iff : r.find? name = none ↔ r.Lacks name := by
  simp [find?, Lacks]

end Resolvers

/-- The policy that a setting asks for : itself, or the merge function of a name. -/
inductive PolicySetting.Asks (resolvers : Resolvers) : PolicySetting → Policy → Prop
  | hostWins : Asks resolvers .hostWins .hostWins
  | ecsWins : Asks resolvers .ecsWins .ecsWins
  | merge {name : String} {resolver : Resolver} (h : resolvers.Gives name resolver) :
    Asks resolvers (.merge name) (.merge name resolver)

/-- What a setting asks for is found, unless it is a merge function that there is none of. -/
theorem PolicySetting.resolve_cases (resolvers : Resolvers) (p : PolicySetting) :
    (∃ policy, p.resolve resolvers = .ok policy ∧ p.Asks resolvers policy ∧
        ∀ name, p = .merge name → ¬resolvers.Lacks name) ∨
      ∃ name, p.resolve resolvers = .error (.unknownResolver name) ∧ p = .merge name ∧
        resolvers.Lacks name := by
  cases p with
  | hostWins => exact .inl ⟨_, rfl, .hostWins, nofun⟩
  | ecsWins => exact .inl ⟨_, rfl, .ecsWins, nofun⟩
  | merge name =>
    simp only [resolve, Resolvers.policy]
    cases hfind : resolvers.find? name with
    | some resolver =>
      refine .inl ⟨_, rfl, .merge (Resolvers.find?_eq_some_iff.mp hfind), ?_⟩
      rintro _ ⟨⟩ hlacks
      rw [Resolvers.find?_eq_none_iff.mpr hlacks] at hfind
      cases hfind
    | none => exact .inr ⟨name, rfl, rfl, Resolvers.find?_eq_none_iff.mp hfind⟩

/-! ## Settings -/

section Settings

variable (resolvers : Resolvers) (all : List BindingSetting)

/-- The pair of a capability and a component that an entry of a list ties. -/
def BindingSetting.pair (b : BindingSetting) : Capability × ComponentId :=
  (b.capability, ComponentNames.numberIn (all.map BindingSetting.component) b.component)

/-- An entry asks for a merge function that there is none of. -/
def BindingSetting.Misses (b : BindingSetting) (name : String) : Prop :=
  b.policy = .merge name ∧ resolvers.Lacks name

/-- A binding is what an entry of a list asks for. -/
structure Binding.Of (b : BindingSetting) (x : Binding) : Prop where
  capability : x.capability = b.capability
  name : x.componentName = b.component
  component : x.component = ComponentNames.numberIn (all.map BindingSetting.component) b.component
  direction : x.direction = b.direction
  policy : b.policy.Asks resolvers x.policy

/-- An error tells how the entry `b` offends that stands behind `before`. A missing merge function
comes first. -/
inductive BindingSetting.Offends (before : List BindingSetting) (b : BindingSetting) : Error → Prop
  | unknown {name : String} (h : b.Misses resolvers name) :
    Offends before b (.unknownResolver name)
  | duplicate (h : ∀ name, ¬b.Misses resolvers name) (hpair : b.pair all ∈ before.map (pair all)) :
    Offends before b (.duplicateBinding b.capability b.component)

/-- No entry offends. -/
structure BindingSetting.Sound (bs : List BindingSetting) : Prop where
  known : ∀ b ∈ bs, ∀ name, ¬b.Misses resolvers name
  pairs : (bs.map (pair all)).Nodup

/-- What building a table from a list of entries comes to. -/
structure Table.Built (result : Except Error Table) : Prop where
  ok_iff : (∃ t, result = .ok t) ↔ BindingSetting.Sound resolvers all all
  /-- The table has a binding for each entry, their pairs, and their component names. -/
  built : ∀ t, result = .ok t → t.Registered ∧
    List.Forall₂ (Binding.Of resolvers all) all t.bindings ∧
      (∀ p, p ∈ t.pairs ↔ p ∈ all.map (BindingSetting.pair all)) ∧
      t.components.Holds (all.map BindingSetting.component)
  /-- Otherwise the first entry that offends is told of. -/
  refused : ∀ error, result = .error error → ∃ before b after, all = before ++ b :: after ∧
    BindingSetting.Sound resolvers all before ∧ b.Offends resolvers all before error
  /-- While component numbers last, pairs differ where the names do. -/
  pairs_iff : (all.map BindingSetting.component).eraseDups.length ≤ 2 ^ 32 →
    ((all.map (BindingSetting.pair all)).Nodup ↔
      (all.map fun b => (b.capability, b.component)).Nodup)

/-- A table that has the bindings of the entries at the front of a list. -/
structure Table.Follows (before : List BindingSetting) (t : Table) : Prop where
  registered : t.Registered
  names : t.components.Holds (before.map BindingSetting.component)
  bindings : List.Forall₂ (Binding.Of resolvers all) before t.bindings
  known : ∀ b ∈ before, ∀ name, ¬b.Misses resolvers name
  pairs : (before.map (BindingSetting.pair all)).Nodup

variable {resolvers all}

namespace Table.Follows

variable {before : List BindingSetting} {t : Table}

theorem sound (h : t.Follows resolvers all before) : BindingSetting.Sound resolvers all before :=
  ⟨h.known, h.pairs⟩

/-- The pairs that are taken are those of the entries. -/
theorem mem_pairs_iff (h : t.Follows resolvers all before) (p : Capability × ComponentId) :
    p ∈ t.pairs ↔ p ∈ before.map (BindingSetting.pair all) := by
  have hbindings : t.bindings.map Binding.pair = before.map (BindingSetting.pair all) := by
    refine (List.forall₂_eq_eq_eq ▸ List.forall₂_map_left_iff.mpr
      (List.forall₂_map_right_iff.mpr (h.bindings.flip.imp fun x b hx => ?_)) :)
    exact Prod.ext hx.capability hx.component
  rw [h.registered.orderly.pairs, hbindings]

variable {b : BindingSetting} {rest : List BindingSetting}

/-- The next entry adds its binding, unless its pair is taken. -/
theorem addRule (h : t.Follows resolvers all before) (hall : all = before ++ b :: rest)
    {policy : Policy} (hpolicy : b.policy.Asks resolvers policy)
    (hknown : ∀ name, ¬b.Misses resolvers name) (j : Journal) :
    if b.pair all ∈ before.map (BindingSetting.pair all) then
      ∃ t', Table.addRule (b.toRule policy) t j =
        (.error (.duplicateBinding b.capability b.component), t', j)
    else
      ∃ id t' j', Table.addRule (b.toRule policy) t j = (.ok id, t', j') ∧
        t'.Follows resolvers all (before ++ [b]) := by
  obtain ⟨hnumber, hnames⟩ := h.names.register b.component
  have hpair : ((b.toRule policy).capability,
      (t.components.register (b.toRule policy).component).1) = b.pair all := by
    rw [BindingSetting.pair, hall, List.append_cons, List.map_append,
      ComponentNames.numberIn_append (by simp), List.map_append]
    exact congrArg _ hnumber
  have htaken : ((b.toRule policy).capability,
      (t.components.register (b.toRule policy).component).1) ∈ t.pairs ↔
        b.pair all ∈ before.map (BindingSetting.pair all) := by
    rw [h.mem_pairs_iff, hpair]
  have hregistered := h.registered.rule (b.toRule policy)
  rw [Table.register_eq] at hregistered
  rw [Table.addRule, Table.register_eq]
  split
  · rename_i hduplicate
    rw [if_pos (htaken.mpr hduplicate)]
    exact ⟨_, rfl⟩
  · rename_i hfresh
    rw [if_neg (mt htaken.mp hfresh)] at hregistered ⊢
    refine ⟨_, _, _, rfl, hregistered, ?_, ?_, ?_, ?_⟩
    · rw [List.map_append]
      exact hnames
    · refine List.rel_append h.bindings (.cons ⟨rfl, rfl, ?_, rfl, hpolicy⟩ .nil)
      exact congrArg Prod.snd hpair
    · intro x hx
      rcases List.mem_append.mp hx with hx | hx
      · exact h.known x hx
      · exact List.mem_singleton.mp hx ▸ hknown
    · rw [List.map_append, List.map_singleton]
      exact nodup_snoc h.pairs hfresh

/-- Going through further entries ends behind the last one, or at the first that offends. -/
theorem addSettings (rest : List BindingSetting) (h : t.Follows resolvers all before)
    (hall : all = before ++ rest) (j : Journal) :
    (∃ t', (Table.addSettings resolvers rest t j).1 = .ok t' ∧ t'.Follows resolvers all all) ∨
      ∃ error front b after, (Table.addSettings resolvers rest t j).1 = .error error ∧
        all = front ++ b :: after ∧ BindingSetting.Sound resolvers all front ∧
          b.Offends resolvers all front error := by
  induction rest generalizing before t j with
  | nil => exact .inl ⟨t, rfl, by rwa [hall, List.append_nil] at h ⊢⟩
  | cons b rest ih =>
    rw [Table.addSettings]
    rcases b.policy.resolve_cases resolvers with
      ⟨policy, hpolicy, hasks, hgiven⟩ | ⟨name, hpolicy, hmisses⟩
    · have hknown : ∀ name, ¬b.Misses resolvers name := fun name h => hgiven name h.1 h.2
      have hadd := h.addRule hall hasks hknown j
      rw [hpolicy]
      dsimp only
      split at hadd
      · rename_i hpair
        obtain ⟨t', hadd⟩ := hadd
        rw [hadd]
        exact .inr ⟨_, before, b, rest, rfl, hall, h.sound, .duplicate hknown hpair⟩
      · obtain ⟨id, t', j', hadd, hnext⟩ := hadd
        rw [hadd]
        exact ih hnext (by rw [hall, List.append_assoc, List.singleton_append]) j'
    · rw [hpolicy]
      exact .inr ⟨_, before, b, rest, rfl, hall, h.sound, .unknown hmisses⟩

end Table.Follows

/-- An entry that offends spoils every list in which it stands there. -/
theorem BindingSetting.Offends.not_sound {before : List BindingSetting} {b : BindingSetting}
    {error : Error} (h : b.Offends resolvers all before error) (after : List BindingSetting) :
    ¬Sound resolvers all (before ++ b :: after) := by
  rintro ⟨hknown, hpairs⟩
  cases h with
  | unknown hmisses => exact hknown b (by simp) _ hmisses
  | duplicate _ hpair =>
    rw [List.map_append, List.map_cons] at hpairs
    exact List.disjoint_of_nodup_append hpairs hpair List.mem_cons_self

/-- While component numbers last, pairs differ where the names do. -/
theorem BindingSetting.nodup_pairs_iff
    (hsize : (all.map BindingSetting.component).eraseDups.length ≤ 2 ^ 32) :
    (all.map (pair all)).Nodup ↔ (all.map fun b => (b.capability, b.component)).Nodup := by
  rw [List.Nodup, List.Nodup, List.pairwise_map, List.pairwise_map]
  refine List.Pairwise.iff_of_mem fun {a b} ha hb => not_congr ?_
  rw [pair, pair, Prod.mk.injEq, Prod.mk.injEq, ComponentNames.numberIn_inj hsize
    (List.mem_map_of_mem ha) (List.mem_map_of_mem hb)]

end Settings

/-- What comes of the bindings of settings. -/
theorem Table.built_ofSettings (resolvers : Resolvers) (bindings : List BindingSetting)
    (j : Journal) : Table.Built resolvers bindings (Table.ofSettings bindings resolvers j).1 := by
  have hempty : ({} : Table).Follows resolvers bindings [] :=
    ⟨.empty, ComponentNames.holds_empty, .nil, by simp, List.nodup_nil⟩
  rcases hempty.addSettings bindings rfl j with
    ⟨t, hok, hfollows⟩ | ⟨error, before, b, after, herror, hall, hsound, hoffends⟩
  · rw [ofSettings, hok]
    refine ⟨iff_of_true ⟨t, rfl⟩ hfollows.sound, fun t' ht' => ?_, fun error herror => ?_,
      BindingSetting.nodup_pairs_iff⟩
    · cases ht'
      exact ⟨hfollows.registered, hfollows.bindings, hfollows.mem_pairs_iff, hfollows.names⟩
    · cases herror
  · rw [ofSettings, herror]
    refine ⟨iff_of_false ?_ ?_, fun t ht => ?_, fun error' herror' => ?_,
      BindingSetting.nodup_pairs_iff⟩
    · rintro ⟨t, ht⟩
      cases ht
    · have hspoilt := hoffends.not_sound after
      rwa [← hall] at hspoilt
    · cases ht
    · cases herror'
      exact ⟨before, b, after, hall, hsound, hoffends⟩

/-- What registering comes to : a table is built from settings exactly if no entry offends, every
table is orderly, and a table refuses a rule without a trace. -/
structure Table.Registration (resolvers : Resolvers) (bindings : List BindingSetting)
    (j : Journal) : Prop where
  settings : Table.Built resolvers bindings (Table.ofSettings bindings resolvers j).1
  orderly : ∀ t : Table, t.Registered → t.Orderly
  refused : ∀ t : Table, t.Registered → ∀ rule error, (t.register rule).1 = .error error →
    t.Refuses rule error

theorem Table.registration (resolvers : Resolvers) (bindings : List BindingSetting) (j : Journal) :
    Table.Registration resolvers bindings j :=
  ⟨Table.built_ofSettings resolvers bindings j, fun _ ht => ht.orderly,
    fun _ ht _ _ herror => ht.orderly.refuses herror⟩

/-- Two entries for one component are built. A third that repeats the first one is refused, and for
its merge function first, if that is missing; and the table that there is refuses it without a
trace. -/
theorem Table.registration_repeated :
    let health : BindingSetting := { capability := "health", component := "Health" }
    let shield : BindingSetting := { capability := "shield", component := "Health" }
    let median : BindingSetting := { health with policy := .merge "median" }
    (∃ t, (Table.ofSettings [health, shield] .builtin {}).1 = .ok t ∧
      t.bindings.map Binding.pair = [("health", ⟨0⟩), ("shield", ⟨0⟩)] ∧
      t.register (health.toRule .ecsWins) = (.error (.duplicateBinding "health" "Health"), t)) ∧
      ∃ before b after, [health, shield, median] = before ++ b :: after ∧
        b.Offends .builtin [health, shield, median] before (.unknownResolver "median") := by
  intro health shield median
  refine ⟨?_, ?_⟩
  · obtain ⟨hbuilt, -, hrefused⟩ := Table.registration .builtin [health, shield] {}
    have hsound : BindingSetting.Sound .builtin [health, shield] [health, shield] := by
      refine ⟨fun b hb name hmisses => ?_, by decide⟩
      rcases List.mem_pair.mp hb with rfl | rfl <;> cases hmisses.1
    obtain ⟨t, ht⟩ := hbuilt.ok_iff.mpr hsound
    obtain ⟨hregistered, -, -, hnames⟩ := hbuilt.built t ht
    have hsize : t.components.size < 2 ^ 32 := by
      rw [hnames.size]
      decide
    have hevaluated : t = _ := (Except.ok.inj ht).symm
    have hnone : (t.register (health.toRule .ecsWins)).1.toOption = none := by
      rw [hevaluated]
      decide
    cases herror : (t.register (health.toRule .ecsWins)).1 with
    | ok id =>
      rw [herror] at hnone
      cases hnone
    | error error =>
      have hrefuses := hrefused t hregistered _ _ herror
      refine ⟨t, ht, by rw [hevaluated]; decide, Prod.ext ?_ ?_⟩
      · rw [herror, hrefuses.duplicate]
        rfl
      · exact hrefuses.kept.resolve_right (Nat.not_le.mpr hsize)
  · obtain ⟨before, b, after, hall, -, hoffends⟩ :=
      (Table.registration .builtin [health, shield, median] {}).settings.refused _ rfl
    exact ⟨before, b, after, hall, hoffends⟩

end Tether
