import Mathlib.Data.Nat.Bitwise
import Tether.Proofs.Delays
import Tether.Proofs.Registration

/-!
# Names of a frame

The record of a frame holds the first names that were raised since it began, as many as a word has
bits, and for each entity the bits of the names that were raised for it. The bit of a name is its
place among them, so no two names share one, and a bit is set for an entity exactly if the name at
its place was raised for it (`Lookup.Tracks`). Raising one more name keeps it so
(`Lookup.Tracks.record`), whether the name is known, new, or too late to have a bit.

What calls come to is the list of the names that they raise, at once or when they are due, each with
the entities that it reaches (`NamedSignals.deliveries`). Listeners are told of all of them, and the
record of the frame attributes the first sixty-four names (`NamedSignals.attributes_run`).
-/

namespace Tether

/-- An element is found at its first place. -/
theorem findIdx?_eq_idxOf {α : Type} [DecidableEq α] (xs : Array α) (x : α) :
    xs.findIdx? (fun y => decide (y = x)) =
      if x ∈ xs.toList then some (xs.toList.idxOf x) else none := by
  obtain ⟨xs⟩ := xs
  rw [List.findIdx?_toArray]
  split
  · rename_i h
    exact List.findIdx?_eq_some_iff_findIdx_eq.mpr ⟨List.idxOf_lt_length_of_mem h, rfl⟩
  · rename_i h
    exact List.findIdx?_eq_none_iff.mpr fun y hy => decide_eq_false fun heq => h (heq ▸ hy)

/-- A name that is raised, with the entities that it is raised for. -/
structure Mention where
  name : String
  entities : List Handle

namespace Mention

/-- The names that a frame keeps apart : the first sixty-four that were raised. -/
def kept (xs : List Mention) : List String := (xs.map name).eraseDups.take 64

variable {xs : List Mention} {x : Mention}

/-- As long as there is room, all names are kept. -/
theorem kept_of_room (h : (kept xs).length < 64) : kept xs = (xs.map name).eraseDups := by
  rw [kept, List.length_take] at h
  exact List.take_of_length_le (by omega)

theorem mem_names_of_mem_kept {name : String} (h : name ∈ kept xs) : name ∈ xs.map Mention.name :=
  List.mem_eraseDups.mp (List.mem_of_mem_take h)

/-- One more name is kept if it is new and there is room. -/
theorem kept_concat (xs : List Mention) (x : Mention) :
    kept (xs ++ [x]) =
      if x.name ∈ kept xs then kept xs
      else if 64 ≤ (kept xs).length then kept xs
      else kept xs ++ [x.name] := by
  have hnames : ((xs ++ [x]).map name).eraseDups = if x.name ∈ xs.map name
      then (xs.map name).eraseDups else (xs.map name).eraseDups ++ [x.name] := by
    rw [List.map_append, List.map_singleton, eraseDups_concat]
  split
  · rename_i hx
    rw [kept, hnames, if_pos (mem_names_of_mem_kept hx), kept]
  · split
    · rename_i hfull
      have hlong : 64 ≤ (xs.map name).eraseDups.length := by
        rw [kept, List.length_take] at hfull
        omega
      rw [kept, hnames]
      split
      · rfl
      · exact List.take_append_of_le_length hlong
    · rename_i hx hroom
      have hkept := kept_of_room (Nat.lt_of_not_le hroom)
      rw [hkept, List.mem_eraseDups] at hx
      rw [hkept] at hroom ⊢
      rw [kept, hnames, if_neg hx]
      exact List.take_of_length_le (by rw [List.length_append, List.length_singleton]; omega)

/-- A name that was raised before has its place, or none, whatever is raised later. -/
theorem getElem?_kept_concat {y : Mention} (hy : y ∈ xs) (i : Nat) :
    (kept (xs ++ [x]))[i]? = some y.name ↔ (kept xs)[i]? = some y.name := by
  rw [kept_concat]
  split
  · rfl
  · split
    · rfl
    · rename_i hx hroom
      rw [kept_of_room (Nat.lt_of_not_le hroom), List.mem_eraseDups] at hx
      have hne : x.name ≠ y.name := fun heq => hx (heq ▸ List.mem_map_of_mem hy)
      rcases Nat.lt_or_ge i (kept xs).length with hi | hi
      · rw [List.getElem?_append_left hi]
      · rw [List.getElem?_append_right hi, List.getElem?_eq_none hi]
        refine iff_of_false (fun heq => hne ?_) (fun heq => nomatch heq)
        exact (List.mem_singleton.mp (List.mem_of_getElem? heq)).symm

end Mention

namespace Lookup

/-! ## Bits of a word -/

section Bits

variable {mask : UInt64} {i j : Nat}

theorem toNat_bit (hi : i < 64) : (bit i).toNat = 2 ^ i := by
  have hword : i < 2 ^ 64 := Nat.lt_trans hi (by decide)
  rw [bit, UInt64.toNat_shiftLeft, UInt64.toNat_ofNat_of_lt' hword, Nat.mod_eq_of_lt hi]
  show 1 <<< i % 2 ^ 64 = 2 ^ i
  rw [Nat.one_shiftLeft, Nat.mod_eq_of_lt (Nat.pow_lt_pow_right (by decide) hi)]

theorem bit_ne_zero (hi : i < 64) : bit i ≠ 0 := by
  intro h
  have hpow := toNat_bit hi
  rw [h] at hpow
  exact Nat.ne_of_lt (Nat.two_pow_pos i) hpow

theorem and_bit_ne_zero_iff (hi : i < 64) : mask &&& bit i ≠ 0 ↔ mask.toNat.testBit i = true := by
  rw [ne_eq, ← UInt64.toNat_inj, UInt64.toNat_and, toNat_bit hi, Nat.and_two_pow]
  cases mask.toNat.testBit i <;> simp

theorem testBit_or_bit (hi : i < 64) :
    (mask ||| bit i).toNat.testBit j = (mask.toNat.testBit j || decide (i = j)) := by
  rw [UInt64.toNat_or, toNat_bit hi, Nat.testBit_or, Nat.testBit_two_pow]

end Bits

/-! ## Marks of entities -/

/-- Whether an entity has the bit of a place. -/
def marks (l : Lookup) (entity : Handle) (i : Nat) : Bool :=
  ((l.masks[entity]?).getD 0).toNat.testBit i

/-- The names of an entity are those at the places that it is marked with. -/
theorem signalsFor_eq {l : Lookup} (hsize : l.names.size ≤ 64) (entity : Handle) :
    l.signalsFor entity =
      (l.names.toList.zipIdx.filter fun n => l.marks entity n.2).map Prod.fst := by
  unfold signalsFor marks
  cases l.masks[entity]? with
  | none => simp
  | some mask =>
    refine congrArg (List.map Prod.fst) (List.filter_congr fun n hn => ?_)
    have hplace := List.snd_lt_of_mem_zipIdx hn
    rw [Array.length_toList] at hplace
    rw [Bool.eq_iff_iff, decide_eq_true_eq, and_bit_ne_zero_iff (by omega)]
    rfl

theorem marks_add {l : Lookup} {i : Nat} (hi : i < 64) (e entity : Handle) (j : Nat) :
    (l.add e (bit i)).marks entity j =
      (l.marks entity j || (decide (e = entity) && decide (i = j))) := by
  unfold add marks
  rw [if_neg (bit_ne_zero hi)]
  dsimp only
  rw [Std.HashMap.getElem?_insert]
  by_cases h : e = entity
  · subst h
    simp only [beq_self_eq_true, ↓reduceIte, Option.getD_some, testBit_or_bit hi, decide_true,
      Bool.true_and]
  · simp [h]

theorem names_foldl_add (l : Lookup) (entities : List Handle) (flag : UInt64) :
    (entities.foldl (fun l e => l.add e flag) l).names = l.names := by
  induction entities generalizing l with
  | nil => rfl
  | cons e entities ih =>
    rw [List.foldl_cons, ih, add]
    split <;> rfl

theorem foldl_add_zero (l : Lookup) (entities : List Handle) :
    entities.foldl (fun l e => l.add e 0) l = l := by
  induction entities with
  | nil => rfl
  | cons e entities ih =>
    rw [List.foldl_cons, add, if_pos rfl, ih]

theorem marks_foldl_add {l : Lookup} {i : Nat} (hi : i < 64) (entities : List Handle)
    (entity : Handle) (j : Nat) :
    (entities.foldl (fun l e => l.add e (bit i)) l).marks entity j =
      (l.marks entity j || (decide (entity ∈ entities) && decide (i = j))) := by
  induction entities generalizing l with
  | nil => simp
  | cons e entities ih =>
    rw [List.foldl_cons, ih, marks_add hi]
    simp only [List.mem_cons, eq_comm (a := entity)]
    cases decide (i = j) <;> simp [Bool.or_assoc]

/-! ## Recording a mention -/

/-- Remember a name for the entities that it is raised for. -/
def record (l : Lookup) (x : Mention) : Lookup :=
  x.entities.foldl (fun after e => after.add e (l.flag x.name).1) (l.flag x.name).2

theorem flag_eq (l : Lookup) (name : String) :
    l.flag name =
      if name ∈ l.names.toList then (bit (l.names.toList.idxOf name), l)
      else if 64 ≤ l.names.size then (0, l)
      else (bit l.names.size, { l with names := l.names.push name }) := by
  rw [flag, findIdx?_eq_idxOf]
  by_cases h : name ∈ l.names.toList
  · simp only [h, ↓reduceIte]
  · simp only [h, ↓reduceIte]
    rfl

theorem names_record (l : Lookup) (x : Mention) : (l.record x).names.toList =
    if x.name ∈ l.names.toList then l.names.toList
    else if 64 ≤ l.names.toList.length then l.names.toList
    else l.names.toList ++ [x.name] := by
  rw [record, names_foldl_add, flag_eq, Array.length_toList]
  split
  · rfl
  · split
    · rfl
    · exact Array.toList_push

/-- The entities that a name is mentioned for are marked at its place, if it has one. -/
theorem marks_record {l : Lookup} (hnames : l.names.toList.Nodup) (hsize : l.names.size ≤ 64)
    (x : Mention) (entity : Handle) (i : Nat) :
    (l.record x).marks entity i = true ↔ l.marks entity i = true ∨
      (l.record x).names.toList[i]? = some x.name ∧ entity ∈ x.entities := by
  rw [names_record, record, flag_eq, Array.length_toList]
  by_cases hknown : x.name ∈ l.names.toList
  · have hplace := List.idxOf_lt_length_of_mem hknown
    rw [Array.length_toList] at hplace
    simp only [hknown, ↓reduceIte]
    rw [marks_foldl_add (Nat.lt_of_lt_of_le hplace hsize), ← idxOf_eq_iff hnames hknown]
    simp [and_comm]
  · simp only [hknown, ↓reduceIte]
    by_cases hfull : 64 ≤ l.names.size
    · simp only [hfull, ↓reduceIte, foldl_add_zero]
      exact (or_iff_left fun h => hknown (List.mem_of_getElem? h.1)).symm
    · simp only [hfull, ↓reduceIte]
      rw [marks_foldl_add (Nat.lt_of_not_le hfull),
        ← idxOf_eq_iff (nodup_snoc hnames hknown) (List.mem_append_right _ List.mem_cons_self),
        List.idxOf_append_of_notMem hknown, List.idxOf_cons_self, Nat.add_zero,
        Array.length_toList]
      simp [and_comm, marks]

/-- What is held of the mentions of a frame : the first names, and at the place of each the entities
that it was mentioned for. -/
structure Tracks (xs : List Mention) (l : Lookup) : Prop where
  names : l.names.toList = Mention.kept xs
  marks : ∀ entity, ∀ i < 64, l.marks entity i = true ↔
    ∃ x ∈ xs, l.names.toList[i]? = some x.name ∧ entity ∈ x.entities

theorem tracks_empty : Tracks [] {} := by
  refine ⟨rfl, fun entity i _ => iff_of_false ?_ (by simp)⟩
  simp [Lookup.marks]

namespace Tracks

variable {xs : List Mention} {l : Lookup} (h : Tracks xs l)

include h

theorem size_le : l.names.size ≤ 64 := by
  rw [← Array.length_toList, h.names]
  exact List.length_take_le ..

theorem nodup : l.names.toList.Nodup := by
  rw [h.names]
  exact (nodup_eraseDups _).sublist (List.take_sublist ..)

/-- One more mention is tracked, be its name known, new, or too late to be kept. -/
theorem record (x : Mention) : Tracks (xs ++ [x]) (l.record x) := by
  have hnames : (l.record x).names.toList = Mention.kept (xs ++ [x]) := by
    rw [names_record, h.names, Mention.kept_concat]
  refine ⟨hnames, fun entity i hi => ?_⟩
  have hbefore : (∃ y ∈ xs, l.names.toList[i]? = some y.name ∧ entity ∈ y.entities) ↔
      ∃ y ∈ xs, (l.record x).names.toList[i]? = some y.name ∧ entity ∈ y.entities := by
    refine exists_congr fun y => and_congr_right fun hy => and_congr_left fun _ => ?_
    rw [hnames, h.names, Mention.getElem?_kept_concat hy]
  rw [marks_record h.nodup h.size_le, h.marks entity i hi, hbefore]
  simp [or_and_right, exists_or]

theorem foldl_record (ys : List Mention) : Tracks (xs ++ ys) (ys.foldl Lookup.record l) := by
  induction ys generalizing xs l with
  | nil => rwa [List.append_nil]
  | cons y ys ih =>
    have hrest := ih (h.record y)
    rwa [List.append_assoc, List.singleton_append] at hrest

/-- An entity is attributed the kept names that were mentioned for it, in order. -/
theorem signalsFor_eq (entity : Handle) :
    l.signalsFor entity =
      (Mention.kept xs).filter fun name => ∃ x ∈ xs, x.name = name ∧ entity ∈ x.entities := by
  have hmarks : ∀ n ∈ l.names.toList.zipIdx, l.marks entity n.2 =
      decide (∃ x ∈ xs, x.name = n.1 ∧ entity ∈ x.entities) := by
    intro n hn
    have hplace := List.snd_lt_of_mem_zipIdx hn
    have hsize := h.size_le
    rw [Array.length_toList] at hplace
    rw [Bool.eq_iff_iff, decide_eq_true_eq, h.marks entity n.2 (by omega),
      List.mem_zipIdx_iff_getElem?.mp hn]
    simp only [Option.some.injEq, eq_comm]
  rw [Lookup.signalsFor_eq h.size_le, List.filter_congr hmarks, ← h.names]
  conv_rhs => rw [← List.zipIdx_map_fst 0 l.names.toList, List.filter_map]
  rfl

end Tracks

end Lookup

/-! ## Calls -/

namespace NamedSignals

variable {σ : Type}

/-- A call that may raise names. -/
inductive Call
  | signal (name : String) (entities : List Handle)
  | delay (name : String) (entities : List Handle) (wait now : Duration)
  | tick (now : Duration) (isLive : Handle → Bool)

/-- What a call leads to. -/
def Raising.act (r : Raising σ) : Call → Raising σ
  | .signal name entities => (raise name entities r).2
  | .delay name entities wait now => (schedule name entities wait now r).2
  | .tick now isLive => (tick now isLive r).2

/-- What calls lead to, one after another. -/
def Raising.run (r : Raising σ) (calls : List Call) : Raising σ := calls.foldl Raising.act r

namespace Call

/-- What waits after a call. -/
def next (ds : List Delayed) : Call → List Delayed
  | .signal _ _ => ds
  | .delay name entities wait now => ds ++ (Delayed.after? now name entities wait).toList
  | .tick now _ => ds.filter fun d => !d.due.le now

/-- The names that a call is to raise where signals wait : the one that it gives, or those that are
due by then, for the entities that are live. -/
def attempts (ds : List Delayed) : Call → List Mention
  | .signal name entities => [⟨name, entities⟩]
  | .delay _ _ _ _ => []
  | .tick now isLive =>
    (ds.filter fun d => d.due.le now).map fun d => ⟨d.name, d.entities.filter isLive⟩

end Call

/-- All that calls raise, in order, each for some entities : for none nothing is raised. -/
def deliveries : List Delayed → List Call → List Mention
  | _, [] => []
  | ds, call :: calls =>
    ((call.attempts ds).filter fun x => !x.entities.isEmpty) ++ deliveries (call.next ds) calls

/-- Who is called for a mention : everybody who is subscribed to its name, in order of subscription,
with all entities of it. -/
def callsOf (n : NamedSignals σ) (x : Mention) : List (NamedCall σ) := n.callsTo x.name x.entities

/-- Raising mentions leads from one state to another, in which other signals may wait. -/
structure Raises (r : Raising σ) (xs : List Mention) (ds : List Delayed) (r' : Raising σ) :
    Prop where
  signals : r'.signals =
    { r.signals with delayed := ds, lookup := xs.foldl Lookup.record r.signals.lookup }
  told : (r'.ambient, r'.queue) =
    (xs.flatMap r.signals.callsOf).foldl NamedCall.result (r.ambient, r.queue)

theorem Raises.append {r r' r'' : Raising σ} {xs ys : List Mention} {ds ds' : List Delayed}
    (h : Raises r xs ds r') (h' : Raises r' ys ds' r'') : Raises r (xs ++ ys) ds' r'' := by
  have hcalls : r'.signals.callsOf = r.signals.callsOf := by
    rw [h.signals]
    rfl
  refine ⟨?_, ?_⟩
  · rw [h'.signals, h.signals, List.foldl_append]
  · rw [h'.told, h.told, hcalls, List.flatMap_append, List.foldl_append]

/-- A signal is raised for its entities, if there are any. -/
theorem raises_raise (name : String) (entities : List Handle) (r : Raising σ) :
    Raises r ([⟨name, entities⟩].filter fun x : Mention => !x.entities.isEmpty) r.signals.delayed
      (raise name entities r).2 := by
  cases h : entities.isEmpty with
  | true =>
    simp only [raise, h, List.filter_cons, Bool.not_true, Bool.false_eq_true, ↓reduceIte]
    exact ⟨rfl, rfl⟩
  | false =>
    simp only [raise, h, List.filter_cons, Bool.not_false, Bool.false_eq_true, ↓reduceIte,
      List.filter_nil]
    refine ⟨rfl, ?_⟩
    simp only [List.flatMap_cons, List.flatMap_nil, List.append_nil]
    exact invoke_eq _ _ _ _

theorem raises_schedule (name : String) (entities : List Handle) (wait now : Duration)
    (r : Raising σ) :
    Raises r [] (r.signals.delayed ++ (Delayed.after? now name entities wait).toList)
      (schedule name entities wait now r).2 := by
  unfold schedule NamedSignals.delay Delayed.after?
  cases now.add? wait with
  | none => exact ⟨by rw [Option.map_none, Option.toList_none, List.append_nil]; rfl, rfl⟩
  | some due => exact ⟨rfl, rfl⟩

theorem raises_release (isLive : Handle → Bool) (count : Nat) (r : Raising σ) (d : Delayed) :
    Raises r ([⟨d.name, d.entities.filter isLive⟩].filter fun x : Mention => !x.entities.isEmpty)
      r.signals.delayed (release isLive (count, r) d).2 := by
  have hraise := raises_raise d.name (d.entities.filter isLive) r
  unfold release
  dsimp only
  split
  · rename_i hempty
    simp only [List.filter_cons, hempty, Bool.not_true, Bool.false_eq_true, ↓reduceIte]
    exact ⟨rfl, rfl⟩
  · exact hraise

theorem raises_foldl_release (isLive : Handle → Bool) (ds : List Delayed) (count : Nat)
    (r : Raising σ) :
    Raises r ((ds.map fun d => ⟨d.name, d.entities.filter isLive⟩).filter
      fun x : Mention => !x.entities.isEmpty) r.signals.delayed
      (ds.foldl (release isLive) (count, r)).2 := by
  induction ds generalizing count r with
  | nil => exact ⟨rfl, rfl⟩
  | cons d ds ih =>
    have hone := raises_release isLive count r d
    rw [List.foldl_cons]
    generalize release isLive (count, r) d = next at hone
    obtain ⟨count', r'⟩ := next
    have hall := hone.append (ih count' r')
    rwa [← List.filter_append, hone.signals] at hall

theorem raises_act (r : Raising σ) (call : Call) :
    Raises r ((call.attempts r.signals.delayed).filter fun x => !x.entities.isEmpty)
      (call.next r.signals.delayed) (r.act call) := by
  cases call with
  | signal name entities => exact raises_raise name entities r
  | delay name entities wait now => exact raises_schedule name entities wait now r
  | tick now isLive =>
    -- the due signals are taken off the schedule before they are raised
    obtain ⟨hsignals, htold⟩ := raises_foldl_release isLive
      (r.signals.delayed.filter fun d => d.due.le now) 0
      { r with signals :=
        { r.signals with delayed := r.signals.delayed.filter fun d => !d.due.le now } }
    exact ⟨hsignals, htold⟩

theorem raises_run (r : Raising σ) (calls : List Call) :
    Raises r (deliveries r.signals.delayed calls) (calls.foldl Call.next r.signals.delayed)
      (r.run calls) := by
  induction calls generalizing r with
  | nil => exact ⟨rfl, rfl⟩
  | cons call calls ih =>
    have hone := raises_act r call
    have hall := hone.append (ih (r.act call))
    rwa [hone.signals] at hall

/-- The state at the beginning of a frame. -/
def Raising.begin (r : Raising σ) : Raising σ := { r with signals := r.signals.endFrame }

/-- What is told and remembered of the mentions of a frame. -/
structure Attributes (r : Raising σ) (xs : List Mention) (r' : Raising σ) : Prop where
  /-- Every mention is told to everybody who listens to its name, whether the name is kept or not,
  and to nobody else. -/
  told : (r'.ambient, r'.queue) =
    (xs.flatMap r.signals.callsOf).foldl NamedCall.result (r.ambient, r.queue)
  /-- To an entity those names are attributed that are kept and were raised for it, in the order in
  which they were first raised at all. -/
  attributed : ∀ entity, r'.signals.lookup.signalsFor entity =
    (Mention.kept xs).filter fun name => ∃ x ∈ xs, x.name = name ∧ entity ∈ x.entities
  /-- A kept name is attributed to the entities that it was raised for, and to no others. -/
  kept : ∀ name ∈ Mention.kept xs, ∀ entity,
    name ∈ r'.signals.lookup.signalsFor entity ↔ ∃ x ∈ xs, x.name = name ∧ entity ∈ x.entities
  /-- A name that came too late is attributed to none. -/
  late : ∀ name ∉ Mention.kept xs, ∀ entity, name ∉ r'.signals.lookup.signalsFor entity

/-- Whatever is raised in a frame, at once or when it is due, its record is exact up to its cap. -/
theorem attributes_run (r : Raising σ) (calls : List Call) :
    Attributes r (deliveries r.signals.delayed calls) (r.begin.run calls) := by
  have hraises := raises_run r.begin calls
  have htracks := Lookup.tracks_empty.foldl_record (deliveries r.signals.delayed calls)
  rw [List.nil_append] at htracks
  have hattributed (entity : Handle) : (r.begin.run calls).signals.lookup.signalsFor entity =
      (Mention.kept (deliveries r.signals.delayed calls)).filter fun name =>
        ∃ x ∈ deliveries r.signals.delayed calls, x.name = name ∧ entity ∈ x.entities := by
    rw [hraises.signals]
    exact htracks.signalsFor_eq entity
  refine ⟨hraises.told, hattributed, fun name hname entity => ?_,
    fun name hname entity hin => ?_⟩
  · rw [hattributed, List.mem_filter, decide_eq_true_eq]
    exact and_iff_right hname
  · rw [hattributed] at hin
    exact hname (List.mem_filter.mp hin).1

end NamedSignals

end Tether
