import Mathlib.Data.List.Nodup
import Tether.Proofs.Entities

/-!
# Handles in circulation

An allocator is asked to issue handles and to take handles back, in any order and with any
handles. `Allocator.history` is what it answered, and the history alone tells which handles are
out (`Allocator.outstanding`), which slots wait to be used again, and in which order
(`Allocator.waiting`), and how often a slot was given back (`Allocator.returns`).

As long as only handles that are out are taken back, an allocator does as its history says
(`Allocator.Keeps`), however often generations come round. If they do not, a handle is issued
only once, and `Allocator.accounts_run` says which handles an allocator would take back : those
that are out, and the one under which a waiting slot is to be issued next. The latter was never
issued. Where it is taken back all the same, its slot waits twice and a handle is issued twice
(`Allocator.issued_twice`).
-/

set_option linter.unusedSectionVars false

namespace Tether

/-! ## Events that are not revoked -/

section Unrevoked

variable {ε δ : Type}

/-- The events that no later event revokes, in order. -/
def unrevoked (revokes : ε → ε → Bool) : List ε → List ε
  | [] => []
  | e :: later =>
    if later.any (revokes · e) then unrevoked revokes later else e :: unrevoked revokes later

theorem mem_unrevoked {revokes : ε → ε → Bool} {past : List ε} {e : ε} :
    e ∈ unrevoked revokes past ↔
      ∃ before after, past = before ++ e :: after ∧ ∀ d ∈ after, revokes d e = false := by
  induction past with
  | nil => simp [unrevoked]
  | cons d past ih =>
    -- the event is the first one, or it occurs further on
    have hsplit : (∃ before after, d :: past = before ++ e :: after ∧
        ∀ f ∈ after, revokes f e = false) ↔
        (d = e ∧ ∀ f ∈ past, revokes f e = false) ∨ e ∈ unrevoked revokes past := by
      rw [ih]
      constructor
      · rintro ⟨before, after, heq, hnone⟩
        cases before with
        | nil =>
          obtain ⟨rfl, rfl⟩ := List.cons.inj heq
          exact .inl ⟨rfl, hnone⟩
        | cons _ before =>
          obtain ⟨rfl, rfl⟩ := List.cons.inj heq
          exact .inr ⟨before, after, rfl, hnone⟩
      · rintro (⟨rfl, hnone⟩ | ⟨before, after, rfl, hnone⟩)
        · exact ⟨[], past, rfl, hnone⟩
        · exact ⟨d :: before, after, rfl, hnone⟩
    rw [hsplit]
    by_cases hany : past.any (revokes · d) = true
    · rw [unrevoked, if_pos hany]
      refine ⟨.inr, fun h => h.resolve_left ?_⟩
      rintro ⟨rfl, hnone⟩
      obtain ⟨f, hf, hrevokes⟩ := List.any_eq_true.mp hany
      exact Bool.noConfusion ((hnone f hf).symm.trans hrevokes)
    · rw [unrevoked, if_neg hany, List.mem_cons]
      refine or_congr_left ⟨?_, fun h => h.1.symm⟩
      rintro rfl
      exact ⟨rfl, fun f hf => Bool.eq_false_iff.mpr fun h => hany (List.any_eq_true.mpr ⟨f, hf, h⟩)⟩

/-- One more event takes away those that it revokes. -/
theorem unrevoked_concat (revokes : ε → ε → Bool) (past : List ε) (e : ε) :
    unrevoked revokes (past ++ [e]) =
      (unrevoked revokes past).filter (fun d => !revokes e d) ++ [e] := by
  induction past with
  | nil => simp [unrevoked]
  | cons d past ih =>
    simp only [List.cons_append, unrevoked, List.any_append, List.any_cons, List.any_nil,
      Bool.or_false, ih]
    by_cases hany : past.any (revokes · d) = true
    · simp [hany]
    · by_cases hrevokes : revokes e d = true <;> simp [hany, hrevokes]

/-- Of what is read off the events that are left, one more event keeps what it does not revoke. -/
theorem filterMap_unrevoked_concat {revokes : ε → ε → Bool} {f : ε → Option δ} {e : ε}
    (keeps : δ → Bool) (hkeeps : ∀ d x, f d = some x → keeps x = !revokes e d) (past : List ε) :
    (unrevoked revokes (past ++ [e])).filterMap f =
      ((unrevoked revokes past).filterMap f).filter keeps ++ (f e).toList := by
  rw [unrevoked_concat, List.filterMap_append, List.filterMap_filter, List.filter_filterMap]
  congr 1
  refine List.filterMap_congr fun d _ => ?_
  cases hf : f d with
  | none => simp
  | some x => cases hrevokes : revokes e d <;> simp [hkeeps d x hf, hrevokes, Option.filter]

/-- An event that revokes nothing of it takes nothing away. -/
theorem filterMap_unrevoked_concat_of_kept {revokes : ε → ε → Bool} {f : ε → Option δ} {e : ε}
    (hkept : ∀ d x, f d = some x → revokes e d = false) (past : List ε) :
    (unrevoked revokes (past ++ [e])).filterMap f =
      (unrevoked revokes past).filterMap f ++ (f e).toList := by
  rw [filterMap_unrevoked_concat (fun _ => true) fun d x hf => by rw [hkept d x hf]; rfl,
    List.filter_eq_self.mpr fun _ _ => rfl]

theorem unrevoked_map (revokes : δ → δ → Bool) (f : ε → δ) (past : List ε) :
    unrevoked revokes (past.map f) =
      (unrevoked (fun d e => revokes (f d) (f e)) past).map f := by
  induction past with
  | nil => rfl
  | cons e past ih =>
    simp only [List.map_cons, unrevoked, List.any_map, Function.comp_def, ih]
    split <;> rfl

end Unrevoked

namespace Allocator

/-! ## Calls and their history -/

/-- What may be asked of an allocator. -/
inductive Call
  | alloc
  | free (h : Handle)

/-- What an allocator answered. -/
inductive Event
  | issued (h : Handle)
  /-- A handle was given back, and was taken or not. -/
  | returned (h : Handle) (taken : Bool)
  deriving DecidableEq

/-- The state after a call. -/
def act (a : Allocator) : Call → Allocator
  | .alloc => a.alloc.2
  | .free h => (a.free h).2

/-- The answer to a call. -/
def event (a : Allocator) : Call → Event
  | .alloc => .issued a.alloc.1
  | .free h => .returned h (a.free h).1

/-- The state after a list of calls. -/
def run (a : Allocator) (calls : List Call) : Allocator := calls.foldl act a

/-- The answers to a list of calls, in order. -/
def history : Allocator → List Call → List Event
  | _, [] => []
  | a, call :: calls => a.event call :: (a.act call).history calls

/-- A handle that is taken back ends its issue, and issuing a slot ends its wait. -/
def Event.revokes : Event → Event → Bool
  | .returned h true, .issued d => d = h
  | .issued h, .returned d true => d.index = h.index
  | _, _ => false

/-- The handle that was issued. -/
def Event.issued? : Event → Option Handle
  | .issued h => some h
  | .returned _ _ => none

/-- The handle that was taken back. -/
def Event.returned? : Event → Option Handle
  | .returned h true => some h
  | _ => none

/-- All handles that were ever issued, in order. -/
def issued (past : List Event) : List Handle := past.filterMap Event.issued?

/-- All handles that were ever taken back, in order. -/
def returned (past : List Event) : List Handle := past.filterMap Event.returned?

/-- The handles that were issued and not taken back since. -/
def outstanding (past : List Event) : List Handle :=
  (unrevoked Event.revokes past).filterMap Event.issued?

/-- The slots that were given back and not issued since, in the order in which they were given
back. -/
def waiting (past : List Event) : List UInt32 :=
  ((unrevoked Event.revokes past).filterMap Event.returned?).map Handle.index

/-- How often a slot was given back. -/
def returns (past : List Event) (i : UInt32) : Nat := (returned past).countP fun h => h.index = i

/-- The slot that is to be issued next : the one that waits longest or, if none waits, the first
one that was never issued. -/
def Next (past : List Event) (i : UInt32) : Prop :=
  match waiting past with
  | j :: _ => i = j
  | [] => (∀ h ∈ issued past, h.index ≠ i) ∧ ∀ j, j < i → ∃ h ∈ issued past, h.index = j

/-- The handle under which a waiting slot is to be issued next. -/
def Awaited (past : List Event) (h : Handle) : Prop :=
  h.index ∈ waiting past ∧ h.generation.toNat = returns past h.index

theorem mem_issued {past : List Event} {h : Handle} :
    h ∈ issued past ↔ Event.issued h ∈ past := by
  rw [issued, List.mem_filterMap]
  constructor
  · rintro ⟨e, he, heq⟩
    cases e with
    | issued d => rwa [← Option.some.inj heq]
    | returned => cases heq
  · exact fun h => ⟨_, h, rfl⟩

theorem mem_returned {past : List Event} {h : Handle} :
    h ∈ returned past ↔ Event.returned h true ∈ past := by
  rw [returned, List.mem_filterMap]
  constructor
  · rintro ⟨e, he, heq⟩
    cases e with
    | issued => cases heq
    | returned d taken =>
      cases taken with
      | true => rwa [← Option.some.inj heq]
      | false => cases heq
  · exact fun h => ⟨_, h, rfl⟩

/-- A handle is out if it was issued and not taken back since. -/
theorem mem_outstanding {past : List Event} {h : Handle} :
    h ∈ outstanding past ↔
      ∃ before after, past = before ++ .issued h :: after ∧ Event.returned h true ∉ after := by
  have hrevokes (d : Event) : d.revokes (.issued h) = false ↔ d ≠ .returned h true := by
    cases d with
    | issued d => simp [Event.revokes]
    | returned d taken => cases taken <;> simp [Event.revokes, @eq_comm _ h]
  have hmem : h ∈ outstanding past ↔ Event.issued h ∈ unrevoked Event.revokes past := mem_issued
  rw [hmem, mem_unrevoked]
  simp only [hrevokes]
  exact exists₂_congr fun before after => and_congr_right fun _ =>
    ⟨fun hall hin => hall _ hin rfl, fun hnot d hd heq => hnot (heq ▸ hd)⟩

/-! ### One more event -/

section Concat

variable (past : List Event) (h : Handle)

@[simp] theorem issued_concat_issued : issued (past ++ [.issued h]) = issued past ++ [h] := by
  simp [issued, Event.issued?]

@[simp] theorem issued_concat_returned (taken : Bool) :
    issued (past ++ [.returned h taken]) = issued past := by
  simp [issued, Event.issued?]

@[simp] theorem returned_concat_issued : returned (past ++ [.issued h]) = returned past := by
  simp [returned, Event.returned?]

@[simp] theorem returned_concat_taken :
    returned (past ++ [.returned h true]) = returned past ++ [h] := by
  simp [returned, Event.returned?]

@[simp] theorem returned_concat_refused :
    returned (past ++ [.returned h false]) = returned past := by
  simp [returned, Event.returned?]

@[simp] theorem returns_concat_issued (i : UInt32) :
    returns (past ++ [.issued h]) i = returns past i := by
  simp [returns]

@[simp] theorem returns_concat_taken (i : UInt32) :
    returns (past ++ [.returned h true]) i =
      returns past i + if i = h.index then 1 else 0 := by
  simp [returns, List.countP_append, List.countP_singleton, @eq_comm _ i]

@[simp] theorem returns_concat_refused (i : UInt32) :
    returns (past ++ [.returned h false]) i = returns past i := by
  simp [returns]

@[simp] theorem outstanding_concat_issued :
    outstanding (past ++ [.issued h]) = outstanding past ++ [h] := by
  refine filterMap_unrevoked_concat_of_kept (fun d x hd => ?_) past
  cases d with
  | issued d => rfl
  | returned d taken => cases hd

@[simp] theorem outstanding_concat_taken :
    outstanding (past ++ [.returned h true]) = (outstanding past).filter (· ≠ h) := by
  refine (filterMap_unrevoked_concat (· ≠ h) (fun d x hd => ?_) past).trans (List.append_nil _)
  cases d with
  | issued d => simp [Event.revokes, Option.some.inj hd]
  | returned d taken => cases hd

@[simp] theorem waiting_concat_issued :
    waiting (past ++ [.issued h]) = (waiting past).filter (· ≠ h.index) := by
  rw [waiting, waiting, List.filter_map]
  congr 1
  refine (filterMap_unrevoked_concat _ (fun d x hd => ?_) past).trans (List.append_nil _)
  cases d with
  | issued d => cases hd
  | returned d taken =>
    cases taken with
    | true => simp [Event.revokes, Option.some.inj hd]
    | false => cases hd

@[simp] theorem waiting_concat_taken :
    waiting (past ++ [.returned h true]) = waiting past ++ [h.index] := by
  rw [waiting, filterMap_unrevoked_concat_of_kept, List.map_append]
  · rfl
  · intro d x hd
    cases d with
    | issued d => cases hd
    | returned d taken => rfl

/-- A handle that is not taken back changes nothing. -/
theorem filterMap_unrevoked_concat_refused {α : Type} (f : Event → Option α)
    (hf : f (.returned h false) = none) :
    (unrevoked Event.revokes (past ++ [.returned h false])).filterMap f =
      (unrevoked Event.revokes past).filterMap f := by
  rw [filterMap_unrevoked_concat_of_kept (fun d _ _ => by cases d <;> rfl), hf,
    Option.toList_none, List.append_nil]

@[simp] theorem outstanding_concat_refused :
    outstanding (past ++ [.returned h false]) = outstanding past :=
  filterMap_unrevoked_concat_refused past h _ rfl

@[simp] theorem waiting_concat_refused :
    waiting (past ++ [.returned h false]) = waiting past :=
  congrArg (List.map Handle.index) (filterMap_unrevoked_concat_refused past h _ rfl)

end Concat

/-- A handle that was issued is out, or it was taken back. -/
theorem outstanding_or_returned {past : List Event} {h : Handle} (hin : h ∈ issued past) :
    h ∈ outstanding past ∨ h ∈ returned past := by
  obtain ⟨before, after, rfl⟩ := List.mem_iff_append.mp (mem_issued.mp hin)
  by_cases hback : Event.returned h true ∈ after
  · exact .inr (mem_returned.mpr (by simp [hback]))
  · exact .inl (mem_outstanding.mpr ⟨before, after, rfl, hback⟩)

theorem returns_le_length (past : List Event) (i : UInt32) :
    returns past i ≤ (returned past).length :=
  List.countP_le_length

/-! ## An allocator and its history -/

/-- An allocator does as its history says : the generation of a slot is how often it was given
back, the pool is the slots that wait, and a slot that was issued waits or is out under its
generation. -/
structure Keeps (past : List Event) (a : Allocator) : Prop where
  used : ∀ i, i.toNat < a.capacity ↔ ∃ h ∈ issued past, h.index = i
  current : ∀ i, i.toNat < a.capacity → a.current? i = some (UInt32.ofNat (returns past i))
  pool : a.pool = waiting past
  nodup : (waiting past).Nodup
  waits : ∀ i ∈ waiting past, i.toNat < a.capacity
  out : ∀ h, h ∈ outstanding past ↔ h.index.toNat < a.capacity ∧ h.index ∉ waiting past ∧
    h.generation = UInt32.ofNat (returns past h.index)
  distinct : (outstanding past).Nodup
  /-- Each time it was given back, a slot carried the generation of that time. -/
  left : ∀ h ∈ returned past, ∃ n < returns past h.index, h.generation = UInt32.ofNat n
  filled : ∀ i, ∀ n < returns past i, ⟨i, UInt32.ofNat n⟩ ∈ returned past
  held : ∀ h ∈ returned past, h ∈ issued past

theorem keeps_empty : Keeps [] {} := by
  constructor <;> simp [issued, returned, outstanding, waiting, unrevoked, returns, capacity]

section Keeps

variable {past : List Event} {a : Allocator}

theorem capacity_alloc_le (a : Allocator) : a.alloc.2.capacity ≤ a.capacity + 1 := by
  unfold alloc
  split <;> simp [capacity]

theorem pool_alloc {a : Allocator} (hnd : a.pool.Nodup) :
    a.alloc.2.pool = a.pool.filter (· ≠ a.alloc.1.index) := by
  cases hp : a.pool with
  | nil => simp [alloc, hp]
  | cons i pool =>
    rw [hp, List.nodup_cons] at hnd
    have hrest : pool.filter (· ≠ i) = pool :=
      List.filter_eq_self.mpr fun j hj => decide_eq_true fun heq => hnd.1 (heq ▸ hj)
    simpa [alloc, hp] using hrest.symm

theorem Keeps.issued_alloc (k : Keeps past a) (hcap : a.alloc.2.capacity ≤ 2 ^ 32) :
    a.Issued a.alloc.1 a.alloc.2 := by
  refine Allocator.issued_alloc (k.pool ▸ k.nodup) (fun i hi => ?_) hcap
  exact (current?_isSome_iff a i).mpr (k.waits i (k.pool ▸ hi))

/-- A slot that was never issued was never given back. -/
theorem Keeps.returns_eq_zero (k : Keeps past a) {i : UInt32} (hi : ¬ i.toNat < a.capacity) :
    returns past i = 0 := by
  rcases Nat.eq_zero_or_pos (returns past i) with h0 | hpos
  · exact h0
  · exact absurd ((k.used i).mpr ⟨_, k.held _ (k.filled i 0 hpos), rfl⟩) hi

/-- A handle is issued under the generation of its slot. -/
theorem Keeps.generation_alloc (k : Keeps past a) (hcap : a.alloc.2.capacity ≤ 2 ^ 32) :
    a.alloc.1.generation = UInt32.ofNat (returns past a.alloc.1.index) := by
  have hi := k.issued_alloc hcap
  by_cases hlt : a.alloc.1.index.toNat < a.capacity
  · exact (hi.kept _ (k.current _ hlt)).symm
  · have hnone : a.current? a.alloc.1.index = none := by
      rw [← Option.not_isSome_iff_eq_none, current?_isSome_iff]
      exact hlt
    rw [hi.fresh hnone, k.returns_eq_zero hlt]
    rfl

/-- The slot of a handle that is issued waited, or was never issued. -/
theorem Keeps.waiting_or_unused (k : Keeps past a) (hcap : a.alloc.2.capacity ≤ 2 ^ 32) :
    a.alloc.1.index ∈ waiting past ∨ ¬ a.alloc.1.index.toNat < a.capacity := by
  rcases (k.issued_alloc hcap).free with hin | hnone
  · exact .inl (k.pool ▸ hin)
  · refine .inr fun hlt => ?_
    rw [← current?_isSome_iff, hnone] at hlt
    exact Bool.noConfusion hlt

/-- Handles that are out have different slots. -/
theorem Keeps.eq_of_index (k : Keeps past a) {h d : Handle} (hh : h ∈ outstanding past)
    (hd : d ∈ outstanding past) (hi : h.index = d.index) : h = d := by
  have hg := ((k.out h).mp hh).2.2
  rw [hi, ← ((k.out d).mp hd).2.2] at hg
  cases h
  cases d
  exact congr (congrArg Handle.mk hi) hg

theorem Keeps.index_ne_alloc (k : Keeps past a) (hcap : a.alloc.2.capacity ≤ 2 ^ 32)
    {d : Handle} (hd : d ∈ outstanding past) : d.index ≠ a.alloc.1.index := by
  obtain ⟨hlt, hnot, -⟩ := (k.out d).mp hd
  intro hi
  rw [hi] at hlt hnot
  exact (k.waiting_or_unused hcap).elim hnot fun hge => hge hlt

/-- The slot that is issued is the one whose turn it is. -/
theorem Keeps.next_alloc (k : Keeps past a) (hcap : a.capacity < 2 ^ 32) :
    Next past a.alloc.1.index := by
  unfold Next
  rw [← k.pool]
  cases hp : a.pool with
  | cons i pool => simp [alloc, hp]
  | nil =>
    have hindex : a.alloc.1.index.toNat = a.capacity := by
      simp only [alloc, hp]
      exact toNat_ofNat_size hcap
    refine ⟨fun h hin heq => ?_, fun j hj => ?_⟩
    · have hlt := (k.used h.index).mpr ⟨h, hin, rfl⟩
      rw [heq, hindex] at hlt
      exact Nat.lt_irrefl _ hlt
    · rw [UInt32.lt_iff_toNat_lt, hindex] at hj
      exact (k.used j).mp hj

/-- One more handle is issued. -/
theorem Keeps.alloc (k : Keeps past a) (hcap : a.alloc.2.capacity ≤ 2 ^ 32) :
    Keeps (past ++ [.issued a.alloc.1]) a.alloc.2 := by
  have hi := k.issued_alloc hcap
  have hgen := k.generation_alloc hcap
  have hne : ∀ d ∈ outstanding past, d.index ≠ a.alloc.1.index := fun d => k.index_ne_alloc hcap
  -- a slot is in use if it was before, or if it is the one that is issued
  have hused : ∀ i, i.toNat < a.alloc.2.capacity ↔ i.toNat < a.capacity ∨ i = a.alloc.1.index := by
    intro i
    rw [← current?_isSome_iff, ← current?_isSome_iff]
    by_cases hii : i = a.alloc.1.index
    · simp [hii, hi.current]
    · simp [hii, hi.others i hii]
  constructor
  case used =>
    intro i
    rw [hused, k.used]
    simp only [issued_concat_issued, List.mem_append, List.mem_singleton, or_and_right,
      exists_or, exists_eq_left, @eq_comm _ i]
  case current =>
    intro i hlt
    rw [returns_concat_issued]
    by_cases hii : i = a.alloc.1.index
    · rw [hii, hi.current, hgen]
    · rw [hi.others i hii]
      exact k.current i (((hused i).mp hlt).resolve_right hii)
  case pool => rw [pool_alloc (k.pool ▸ k.nodup), k.pool, waiting_concat_issued]
  case nodup =>
    rw [waiting_concat_issued]
    exact k.nodup.filter _
  case waits =>
    intro i hin
    rw [waiting_concat_issued, List.mem_filter] at hin
    exact (hused i).mpr (.inl (k.waits i hin.1))
  case out =>
    intro h
    rw [outstanding_concat_issued, waiting_concat_issued, returns_concat_issued, hused,
      List.mem_append, List.mem_singleton, List.mem_filter, decide_eq_true_eq]
    constructor
    · rintro (hin | rfl)
      · obtain ⟨hlt, hnot, hg⟩ := (k.out h).mp hin
        exact ⟨.inl hlt, fun hw => hnot hw.1, hg⟩
      · exact ⟨.inr rfl, fun hw => hw.2 rfl, hgen⟩
    · rintro ⟨hlt, hnot, hg⟩
      by_cases hii : h.index = a.alloc.1.index
      · refine .inr ?_
        rw [hii, ← hgen] at hg
        cases h
        exact congr (congrArg Handle.mk hii) hg
      · exact .inl ((k.out h).mpr ⟨hlt.resolve_right hii, fun hw => hnot ⟨hw, hii⟩, hg⟩)
  case distinct =>
    rw [outstanding_concat_issued, List.nodup_append]
    refine ⟨k.distinct, List.nodup_singleton _, fun d hd e he heq => ?_⟩
    rw [List.mem_singleton.mp he] at heq
    exact hne d hd (congrArg Handle.index heq)
  case left =>
    simp only [returned_concat_issued, returns_concat_issued]
    exact k.left
  case filled =>
    simp only [returned_concat_issued, returns_concat_issued]
    exact k.filled
  case held =>
    intro h hin
    rw [returned_concat_issued] at hin
    rw [issued_concat_issued, List.mem_append]
    exact .inl (k.held h hin)

/-- A handle that is out carries the current generation of its slot. -/
theorem Keeps.current_of_outstanding (k : Keeps past a) {h : Handle}
    (hin : h ∈ outstanding past) : a.current? h.index = some h.generation := by
  obtain ⟨hlt, -, hg⟩ := (k.out h).mp hin
  rw [k.current _ hlt, hg]

/-- A handle that is out is taken back. -/
theorem Keeps.takeBack (k : Keeps past a) {h : Handle} (hin : h ∈ outstanding past) :
    Keeps (past ++ [.returned h true]) (a.free h).2 := by
  have hcur := k.current_of_outstanding hin
  obtain ⟨hlt, hnot, hg⟩ := (k.out h).mp hin
  have hissued : h ∈ issued past := by
    obtain ⟨before, after, rfl, -⟩ := mem_outstanding.mp hin
    exact mem_issued.mpr (by simp)
  constructor
  case used =>
    intro i
    rw [capacity_free, issued_concat_returned]
    exact k.used i
  case current =>
    intro i hi
    rw [capacity_free] at hi
    rw [current?_free hcur, returns_concat_taken]
    split
    · rename_i hih
      rw [hih, UInt32.ofNat_add, ← hg]
      rfl
    · exact k.current i hi
  case pool => rw [pool_free hcur, k.pool, waiting_concat_taken]
  case nodup =>
    rw [waiting_concat_taken, List.nodup_append]
    refine ⟨k.nodup, List.nodup_singleton _, fun i hi j hj heq => ?_⟩
    rw [List.mem_singleton.mp hj] at heq
    exact hnot (heq ▸ hi)
  case waits =>
    intro i hi
    rw [waiting_concat_taken, List.mem_append, List.mem_singleton] at hi
    rw [capacity_free]
    rcases hi with hi | rfl
    · exact k.waits i hi
    · exact hlt
  case out =>
    intro d
    rw [capacity_free, outstanding_concat_taken, waiting_concat_taken, returns_concat_taken,
      List.mem_filter, decide_eq_true_eq, List.mem_append, List.mem_singleton]
    constructor
    · rintro ⟨hd, hne⟩
      have hindex : d.index ≠ h.index := fun heq => hne (k.eq_of_index hd hin heq)
      obtain ⟨hdlt, hdnot, hdg⟩ := (k.out d).mp hd
      exact ⟨hdlt, fun hw => hw.elim hdnot hindex, by rw [if_neg hindex]; exact hdg⟩
    · rintro ⟨hdlt, hdnot, hdg⟩
      have hindex : d.index ≠ h.index := fun heq => hdnot (.inr heq)
      rw [if_neg hindex] at hdg
      exact ⟨(k.out d).mpr ⟨hdlt, fun hw => hdnot (.inl hw), hdg⟩,
        fun heq => hindex (congrArg Handle.index heq)⟩
  case distinct =>
    rw [outstanding_concat_taken]
    exact k.distinct.filter _
  case left =>
    intro d hd
    rw [returned_concat_taken, List.mem_append, List.mem_singleton] at hd
    rw [returns_concat_taken]
    rcases hd with hd | rfl
    · obtain ⟨n, hn, hdg⟩ := k.left d hd
      exact ⟨n, Nat.lt_of_lt_of_le hn (Nat.le_add_right _ _), hdg⟩
    · exact ⟨returns past d.index, by simp, hg⟩
  case filled =>
    intro i n hn
    rw [returns_concat_taken] at hn
    rw [returned_concat_taken, List.mem_append, List.mem_singleton]
    by_cases hlt : n < returns past i
    · exact .inl (k.filled i n hlt)
    · have hi : i = h.index := by
        by_contra hi
        rw [if_neg hi] at hn
        exact hlt hn
      rw [if_pos hi] at hn
      have hn' : n = returns past i := by omega
      right
      rw [hn', hi, ← hg]
  case held =>
    intro d hd
    rw [returned_concat_taken, List.mem_append, List.mem_singleton] at hd
    rw [issued_concat_returned]
    rcases hd with hd | rfl
    · exact k.held d hd
    · exact hissued

/-- A handle that is not taken back leaves all as it is. -/
theorem Keeps.refuse (k : Keeps past a) (h : Handle) : Keeps (past ++ [.returned h false]) a := by
  constructor <;> simp only [issued_concat_returned, returned_concat_refused,
    returns_concat_refused, outstanding_concat_refused, waiting_concat_refused]
  exacts [k.used, k.current, k.pool, k.nodup, k.waits, k.out, k.distinct, k.left, k.filled, k.held]

/-- A handle would be taken back if it carries the generation of its slot. -/
theorem Keeps.free_iff (k : Keeps past a) (h : Handle) :
    (a.free h).1 = true ↔
      h.index.toNat < a.capacity ∧ h.generation = UInt32.ofNat (returns past h.index) := by
  rw [free_fst, isCurrent, decide_eq_true_eq]
  constructor
  · intro hcur
    have hlt : h.index.toNat < a.capacity := by
      rw [← current?_isSome_iff, hcur]
      rfl
    rw [k.current _ hlt] at hcur
    exact ⟨hlt, (Option.some.inj hcur).symm⟩
  · rintro ⟨hlt, hg⟩
    rw [k.current _ hlt, hg]

end Keeps

/-! ## Runs -/

theorem capacity_le_act (a : Allocator) (call : Call) : a.capacity ≤ (a.act call).capacity := by
  cases call with
  | alloc => exact a.capacity_le_alloc
  | free h => exact Nat.le_of_eq (a.capacity_free h).symm

theorem capacity_le_run (a : Allocator) (calls : List Call) :
    a.capacity ≤ (a.run calls).capacity := by
  induction calls generalizing a with
  | nil => exact Nat.le_refl _
  | cons call calls ih => exact Nat.le_trans (a.capacity_le_act call) (ih _)

theorem Keeps.act {past : List Event} {a : Allocator} (k : Keeps past a) (call : Call)
    (hcap : (a.act call).capacity ≤ 2 ^ 32)
    (hout : ∀ h, a.event call = .returned h true → h ∈ outstanding past) :
    Keeps (past ++ [a.event call]) (a.act call) := by
  cases call with
  | alloc => exact k.alloc hcap
  | free h =>
    cases htaken : (a.free h).1 with
    | true =>
      have hin := hout h (by rw [event, htaken])
      rw [event, htaken]
      exact k.takeBack hin
    | false =>
      have hsame : (a.free h).2 = a := by
        rw [free_of_not_isCurrent ((a.free_fst h).symm.trans htaken)]
      rw [event, htaken, Allocator.act, hsame]
      exact k.refuse h

theorem Keeps.run {past : List Event} {a : Allocator} (k : Keeps past a) (calls : List Call)
    (hcap : (a.run calls).capacity ≤ 2 ^ 32)
    (hout : ∀ before h after, a.history calls = before ++ .returned h true :: after →
      h ∈ outstanding (past ++ before)) :
    Keeps (past ++ a.history calls) (a.run calls) := by
  induction calls generalizing past a with
  | nil => simpa [history, Allocator.run] using k
  | cons call calls ih =>
    have hone := k.act call (Nat.le_trans (capacity_le_run _ calls) hcap) fun h heq => by
      simpa using hout [] h _ (congrArg (· :: (a.act call).history calls) heq)
    have hmore := ih hone hcap fun before h after heq => by
      simpa using hout (a.event call :: before) h after (congrArg (a.event call :: ·) heq)
    simpa [history, Allocator.run] using hmore

/-! ## Which handles are taken back -/

/-- What an allocator would do next, told from its history. -/
structure Accounts (past : List Event) (a : Allocator) : Prop where
  /-- A handle is taken back exactly if it was issued and not taken back since, or if it is the
  one under which its slot is to be issued next. -/
  takes : ∀ h, (a.free h).1 = true ↔ h ∈ outstanding past ∨ Awaited past h
  /-- The latter was never issued. -/
  unissued : ∀ h, Awaited past h → h ∉ issued past
  refuses : ∀ h, (a.free h).1 = false → (a.free h).2 = a
  distinct : (outstanding past).Nodup
  /-- The next handle to be issued was not issued before. -/
  fresh : a.alloc.1 ∉ issued past

section Accounts

variable {past : List Event} {a : Allocator}

theorem toNat_ofNat_of_le_returns (hfew : (returned past).length < 2 ^ 32) {i : UInt32} {n : Nat}
    (hn : n ≤ returns past i) : (UInt32.ofNat n).toNat = n :=
  UInt32.toNat_ofNat_of_lt'
    (Nat.lt_of_le_of_lt (Nat.le_trans hn (returns_le_length past i)) hfew)

/-- A handle that was issued is out, or its slot has moved on to a later generation. -/
theorem Keeps.outstanding_or_lt (k : Keeps past a) (hfew : (returned past).length < 2 ^ 32)
    {h : Handle} (hin : h ∈ issued past) :
    h ∈ outstanding past ∨ h.generation.toNat < returns past h.index := by
  refine (outstanding_or_returned hin).imp_right fun hback => ?_
  obtain ⟨n, hn, hg⟩ := k.left h hback
  rw [hg, toNat_ofNat_of_le_returns hfew (Nat.le_of_lt hn)]
  exact hn

/-- Nothing was issued under the present generation of a slot that is not out. -/
theorem Keeps.not_issued (k : Keeps past a) (hfew : (returned past).length < 2 ^ 32)
    {h : Handle} (hslot : h.index ∈ waiting past ∨ ¬ h.index.toNat < a.capacity)
    (hg : h.generation.toNat = returns past h.index) : h ∉ issued past := by
  intro hin
  rcases k.outstanding_or_lt hfew hin with hout | hlt
  · obtain ⟨hlt, hnot, -⟩ := (k.out h).mp hout
    exact hslot.elim hnot fun hge => hge hlt
  · omega

theorem Keeps.accounts (k : Keeps past a) (hcap : a.capacity < 2 ^ 32)
    (hfew : (returned past).length < 2 ^ 32) : Accounts past a where
  takes h := by
    rw [k.free_iff, k.out]
    constructor
    · rintro ⟨hlt, hg⟩
      by_cases hw : h.index ∈ waiting past
      · exact .inr ⟨hw, by rw [hg, toNat_ofNat_of_le_returns hfew (Nat.le_refl _)]⟩
      · exact .inl ⟨hlt, hw, hg⟩
    · rintro (⟨hlt, -, hg⟩ | ⟨hw, hg⟩)
      · exact ⟨hlt, hg⟩
      · refine ⟨k.waits _ hw, UInt32.toNat_inj.mp ?_⟩
        rw [hg, toNat_ofNat_of_le_returns hfew (Nat.le_refl _)]
  unissued h hw := k.not_issued hfew (.inl hw.1) hw.2
  refuses h hno := by rw [free_of_not_isCurrent ((a.free_fst h).symm.trans hno)]
  distinct := k.distinct
  fresh := by
    have hnext : a.alloc.2.capacity ≤ 2 ^ 32 := Nat.le_trans a.capacity_alloc_le hcap
    refine k.not_issued hfew (k.waiting_or_unused hnext) ?_
    rw [k.generation_alloc hnext, toNat_ofNat_of_le_returns hfew (Nat.le_refl _)]

end Accounts

/-- As long as slot numbers and generations last and nothing is taken back that nobody holds, an
allocator knows the handles that are out from all others but those that it is to issue next. -/
theorem accounts_run (calls : List Call) (hcap : (run {} calls).capacity < 2 ^ 32)
    (hfew : (returned (history {} calls)).length < 2 ^ 32)
    (hout : ∀ before h after, history {} calls = before ++ .returned h true :: after →
      h ∈ outstanding before) : Accounts (history {} calls) (run {} calls) := by
  have hkeeps := keeps_empty.run calls (Nat.le_of_lt hcap) hout
  exact Keeps.accounts hkeeps hcap hfew

/-- A handle comes back, comes back once more, and its slot is issued again. Handles of a later
generation and of a slot that was never issued are not taken back either. -/
theorem accounts_run_reissued :
    let calls : List Call :=
      [.alloc, .alloc, .free ⟨0, 0⟩, .free ⟨0, 0⟩, .free ⟨1, 3⟩, .free ⟨7, 0⟩, .alloc]
    (run {} calls).capacity < 2 ^ 32 ∧ (returned (history {} calls)).length < 2 ^ 32 ∧
      outstanding (history {} calls) = [⟨1, 0⟩, ⟨0, 1⟩] ∧
      Accounts (history {} calls) (run {} calls) := by
  intro calls
  have hhistory : history {} calls = [.issued ⟨0, 0⟩, .issued ⟨1, 0⟩, .returned ⟨0, 0⟩ true,
      .returned ⟨0, 0⟩ false, .returned ⟨1, 3⟩ false, .returned ⟨7, 0⟩ false,
      .issued ⟨0, 1⟩] := by decide
  have hout : ∀ before h after, history {} calls = before ++ .returned h true :: after →
      h ∈ outstanding before := by
    intro before h after heq
    rw [hhistory] at heq
    have hone : before = [.issued ⟨0, 0⟩, .issued ⟨1, 0⟩] ∧ h = ⟨0, 0⟩ ∧
        after = [.returned ⟨0, 0⟩ false, .returned ⟨1, 3⟩ false, .returned ⟨7, 0⟩ false,
          .issued ⟨0, 1⟩] := by
      simpa [List.cons_eq_append_iff] using heq
    rw [hone.1, hone.2.1]
    decide
  exact ⟨by decide, by decide, by decide, accounts_run calls (by decide) (by decide) hout⟩

/-! ## A handle that is taken back too early -/

/-- With slots that wait, handles are issued for them in turn. -/
theorem history_alloc_pool {a : Allocator} {pool : List UInt32} (hp : a.pool = pool) :
    a.history (List.replicate pool.length .alloc) =
      pool.map fun i => .issued ⟨i, (a.current? i).getD 0⟩ := by
  induction pool generalizing a with
  | nil => rfl
  | cons i pool ih =>
    have halloc : a.alloc = (⟨i, (a.current? i).getD 0⟩, { a with pool }) := by simp [alloc, hp]
    have hrest : ({ a with pool } : Allocator).history (List.replicate pool.length .alloc) =
        pool.map fun i => .issued ⟨i, (a.current? i).getD 0⟩ := ih rfl
    rw [List.length_cons, List.replicate_succ, history, event, act, halloc, List.map_cons, hrest]

/-- Once the handle is taken back under which a waiting slot is to be issued next, the slot waits
twice, and the handle after that is issued twice. -/
theorem issued_again {past : List Event} {a : Allocator} (k : Keeps past a)
    (hfew : (returned past).length < 2 ^ 32) {h : Handle} (hw : Awaited past h) :
    ((a.free h).2.history (List.replicate (a.pool.length + 1) .alloc)).count
      (.issued ⟨h.index, h.generation + 1⟩) = 2 := by
  have hgen : h.generation = UInt32.ofNat (returns past h.index) :=
    UInt32.toNat_inj.mp (by rw [hw.2, toNat_ofNat_of_le_returns hfew (Nat.le_refl _)])
  have hcur : a.current? h.index = some h.generation := by
    rw [k.current _ (k.waits _ hw.1), hgen]
  have hpool : (a.free h).2.pool = a.pool ++ [h.index] := pool_free hcur
  have hnext : (a.free h).2.current? h.index = some (h.generation + 1) := by
    rw [current?_free hcur, if_pos rfl]
  have hlen : a.pool.length + 1 = (a.pool ++ [h.index]).length := by simp
  have hcount : a.pool.count h.index = 1 :=
    List.count_eq_one_of_mem (k.pool ▸ k.nodup) (k.pool ▸ hw.1)
  rw [hlen, history_alloc_pool hpool, List.count_eq_countP, List.countP_map]
  have hsame : ∀ i, ((· == Event.issued ⟨h.index, h.generation + 1⟩) ∘
      fun i => Event.issued ⟨i, ((a.free h).2.current? i).getD 0⟩) i = (i == h.index) := by
    intro i
    by_cases hi : i = h.index
    · simp [hi, hnext]
    · simp [hi]
  rw [List.countP_congr fun i _ => by rw [hsame], ← List.count_eq_countP]
  simp [hcount]

/-- A handle that was never issued is taken back, and a later one is issued twice. -/
theorem issued_twice :
    let calls : List Call := [.alloc, .free ⟨0, 0⟩, .free ⟨0, 1⟩, .alloc, .alloc]
    history {} calls = [.issued ⟨0, 0⟩, .returned ⟨0, 0⟩ true, .returned ⟨0, 1⟩ true,
        .issued ⟨0, 2⟩, .issued ⟨0, 2⟩] ∧
      ⟨0, 1⟩ ∉ issued (history {} calls) ∧
      outstanding (history {} calls) = [⟨0, 2⟩, ⟨0, 2⟩] := by
  decide

end Allocator

end Tether
