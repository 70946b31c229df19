import Tether.Proofs.Circulation

/-!
# Who was bound, and who is

A registry is asked to bind host objects and to unbind handles. `Registry.history` is what it
did, failures left out. It tells who is bound to which handle (`Registry.tenancies`) and, read as
the history of an allocator (`Registry.Event.circulation`), which slots wait to be used again and
how often each was unbound.

A registry does as its history says (`Registry.Mirrors`). So it is a map with a list of slots in
which the first slot to be given back is the first to be used again (`Registry.refines_run`),
however often generations come round.

If they do not, the history also tells why a handle finds nothing (`Registry.classifies_run`). A
handle whose entity is gone is stale, and one that was never bound is not bound. There is one
exception : a handle that is ahead of its slot (`Registry.Ahead`) was never bound, and is stale.
-/

set_option linter.unusedSectionVars false

namespace Tether

namespace Registry

/-! ## Calls and their history -/

/-- What may be asked of a registry. -/
inductive Call
  | bind (host : HostRef)
  | unbind (h : Handle)

/-- What a registry did. -/
inductive Event
  | bound (host : HostRef) (h : Handle)
  | unbound (host : HostRef) (h : Handle)

/-- What a call does, and the state after it. -/
def step (r : Registry) : Call → Except Error (Event × Registry)
  | .bind host => (r.bind host).map fun x => (.bound host x.1, x.2)
  | .unbind h => (r.unbind h).map fun x => (.unbound x.1 h, x.2)

/-- The state after a call. A call that fails leaves the registry as it is. -/
def act (r : Registry) (call : Call) : Registry :=
  match r.step call with
  | .ok (_, r) => r
  | .error _ => r

/-- What a call did, if it did anything. -/
def events (r : Registry) (call : Call) : List Event :=
  match r.step call with
  | .ok (e, _) => [e]
  | .error _ => []

/-- The state after a list of calls. -/
def run (r : Registry) (calls : List Call) : Registry := calls.foldl act r

/-- What a list of calls did, in order. -/
def history : Registry → List Call → List Event
  | _, [] => []
  | r, call :: calls => r.events call ++ (r.act call).history calls

/-- What an event is to the allocator : binding issues a handle, unbinding gives it back. -/
def Event.circulation : Event → Allocator.Event
  | .bound _ h => .issued h
  | .unbound _ h => .returned h true

/-- The binding that came about. -/
def Event.tenancy? : Event → Option (HostRef × Handle)
  | .bound host h => some (host, h)
  | .unbound _ _ => none

/-- The bindings that were not undone since, in the order in which they came about. -/
def tenancies (past : List Event) : List (HostRef × Handle) :=
  (unrevoked (fun d e => d.circulation.revokes e.circulation) past).filterMap Event.tenancy?

/-- How often an entity of a slot was unbound. -/
def unbindings (past : List Event) (i : UInt32) : Nat :=
  Allocator.returns (past.map Event.circulation) i

/-- How often entities were unbound. -/
def totalUnbindings (past : List Event) : Nat :=
  (Allocator.returned (past.map Event.circulation)).length

theorem mem_tenancies {past : List Event} {host : HostRef} {h : Handle} :
    (host, h) ∈ tenancies past ↔ ∃ before after, past = before ++ .bound host h :: after ∧
      ∀ other, Event.unbound other h ∉ after := by
  have hrevokes (d : Event) : d.circulation.revokes (Event.circulation (.bound host h)) = false ↔
      ∀ other, d ≠ .unbound other h := by
    cases d <;> simp [Event.circulation, Allocator.Event.revokes, @eq_comm _ h]
  have hmem : (host, h) ∈ tenancies past ↔ Event.bound host h ∈
      unrevoked (fun d e => d.circulation.revokes e.circulation) past := by
    rw [tenancies, List.mem_filterMap]
    constructor
    · rintro ⟨e, he, heq⟩
      cases e with
      | bound other d =>
        obtain ⟨rfl, rfl⟩ := Prod.mk.inj (Option.some.inj heq)
        exact he
      | unbound => cases heq
    · exact fun he => ⟨_, he, rfl⟩
  rw [hmem, mem_unrevoked]
  simp only [hrevokes]
  exact exists₂_congr fun before after => and_congr_right fun _ =>
    ⟨fun hall other hin => hall _ hin other rfl, fun hnot d hd other heq => hnot other (heq ▸ hd)⟩

/-- The handles of the bindings are the handles that are out. -/
theorem map_snd_tenancies (past : List Event) :
    (tenancies past).map Prod.snd = Allocator.outstanding (past.map Event.circulation) := by
  rw [tenancies, Allocator.outstanding, unrevoked_map, List.map_filterMap, List.filterMap_map]
  exact List.filterMap_congr fun e _ => by cases e <;> rfl

theorem tenancies_concat_bound (past : List Event) (host : HostRef) (h : Handle) :
    tenancies (past ++ [.bound host h]) = tenancies past ++ [(host, h)] := by
  refine filterMap_unrevoked_concat_of_kept (fun d x hd => ?_) past
  cases d with
  | bound other d => rfl
  | unbound => cases hd

theorem tenancies_concat_unbound (past : List Event) (host : HostRef) (h : Handle) :
    tenancies (past ++ [.unbound host h]) = (tenancies past).filter (·.2 ≠ h) := by
  refine (filterMap_unrevoked_concat (·.2 ≠ h) (fun d x hd => ?_) past).trans
    (List.append_nil _)
  cases d with
  | bound other d =>
    rw [← Option.some.inj hd]
    simp [Event.circulation, Allocator.Event.revokes]
  | unbound => cases hd

/-! ## A registry and its history -/

/-- An entity of the handle was bound, and unbound again. -/
def Parted (past : List Event) (h : Handle) : Prop :=
  ∃ host before after, past = before ++ .bound host h :: after ∧ Event.unbound host h ∈ after

theorem Parted.append {past : List Event} {h : Handle} (hp : Parted past h) (es : List Event) :
    Parted (past ++ es) h := by
  obtain ⟨host, before, after, rfl, hin⟩ := hp
  exact ⟨host, before, after ++ es, by simp, by simp [hin]⟩

/-- A registry does as its history says. -/
structure Mirrors (past : List Event) (r : Registry) : Prop where
  circulation : Allocator.Keeps (past.map Event.circulation) r.allocator
  entries : ∀ {i e}, r.entries.get? i = some e ↔
    ∃ t ∈ tenancies past, t.2.slot = i ∧ e = ⟨t.2, t.1, .binding, false⟩
  mapped : ∀ {id h}, r.handleOf? id = some h ↔ ∃ t ∈ tenancies past, t.1.id = id ∧ t.2 = h
  size : r.size = (tenancies past).length
  /-- Only what was bound is unbound. -/
  parted : ∀ {host h}, Event.unbound host h ∈ past → Parted past h

theorem mirrors_empty : Mirrors [] {} where
  circulation := Allocator.keeps_empty
  entries := by simp [tenancies, unrevoked]
  mapped := by simp [tenancies, unrevoked, handleOf?]
  size := rfl
  parted := by simp

section Mirrors

variable {past : List Event} {r : Registry} (m : Mirrors past r)
include m

theorem Mirrors.mem_outstanding {h : Handle} :
    h ∈ Allocator.outstanding (past.map Event.circulation) ↔ ∃ t ∈ tenancies past, t.2 = h := by
  rw [← map_snd_tenancies, List.mem_map]

theorem Mirrors.nodup_handles : ((tenancies past).map Prod.snd).Nodup := by
  rw [map_snd_tenancies]
  exact m.circulation.distinct

/-- A handle has one binding, and so has a slot. -/
theorem Mirrors.eq_of_slot {s t : HostRef × Handle} (hs : s ∈ tenancies past)
    (ht : t ∈ tenancies past) (hslot : s.2.slot = t.2.slot) : s = t := by
  have hhandle : s.2 = t.2 := m.circulation.eq_of_index (m.mem_outstanding.mpr ⟨s, hs, rfl⟩)
    (m.mem_outstanding.mpr ⟨t, ht, rfl⟩) (UInt32.toNat_inj.mp hslot)
  exact List.inj_on_of_nodup_map m.nodup_handles hs ht hhandle

/-- A host identity has one binding. -/
theorem Mirrors.eq_of_id {s t : HostRef × Handle} (hs : s ∈ tenancies past)
    (ht : t ∈ tenancies past) (hid : s.1.id = t.1.id) : s = t := by
  have hmap := m.mapped.mpr ⟨s, hs, hid, rfl⟩
  rw [m.mapped.mpr ⟨t, ht, rfl, rfl⟩] at hmap
  exact m.eq_of_slot hs ht (congrArg Handle.slot (Option.some.inj hmap).symm)

theorem Mirrors.find?_eq_some_iff {h : Handle} {e : Entry} :
    r.find? h = some e ↔ ∃ t ∈ tenancies past, t.2 = h ∧ e = ⟨t.2, t.1, .binding, false⟩ := by
  rw [Registry.find?_eq_some_iff, m.entries]
  constructor
  · rintro ⟨⟨t, ht, -, rfl⟩, rfl⟩
    exact ⟨t, ht, rfl, rfl⟩
  · rintro ⟨t, ht, rfl, rfl⟩
    exact ⟨⟨t, ht, rfl, rfl⟩, rfl⟩

theorem Mirrors.handleOf?_eq_none {id : HostId} (hid : ∀ t ∈ tenancies past, t.1.id ≠ id) :
    r.handleOf? id = none := by
  rw [Option.eq_none_iff_forall_ne_some]
  intro h hsome
  obtain ⟨t, ht, heq, -⟩ := m.mapped.mp hsome
  exact hid t ht heq

/-- A host object that is not bound gets a handle. -/
theorem Mirrors.bind {host : HostRef} (hid : ∀ t ∈ tenancies past, t.1.id ≠ host.id)
    (hcap : r.allocator.alloc.2.capacity ≤ 2 ^ 32) :
    Mirrors (past ++ [.bound host r.allocator.alloc.1]) (r.opened host) := by
  have hnone := m.handleOf?_eq_none hid
  have hslot : ∀ t ∈ tenancies past, t.2.slot ≠ r.allocator.alloc.1.slot := fun t ht heq =>
    m.circulation.index_ne_alloc hcap (m.mem_outstanding.mpr ⟨t, ht, rfl⟩)
      (UInt32.toNat_inj.mp heq)
  constructor
  case circulation =>
    rw [List.map_append]
    exact m.circulation.alloc hcap
  case entries =>
    intro i e
    simp only [opened, Slots.get?_put, tenancies_concat_bound, List.mem_append,
      List.mem_singleton, or_and_right, exists_or, exists_eq_left]
    by_cases hi : i = r.allocator.alloc.1.slot
    · rw [if_pos hi, hi, Option.some.injEq]
      refine ⟨fun heq => .inr ⟨rfl, heq.symm⟩, ?_⟩
      rintro (⟨t, ht, heq, -⟩ | ⟨-, rfl⟩)
      · exact absurd heq (hslot t ht)
      · rfl
    · rw [if_neg hi, m.entries]
      exact ⟨.inl, fun h => h.resolve_right fun h => hi h.1.symm⟩
  case mapped =>
    intro id h
    rw [handleOf?_of_insert (show (r.opened host).byHost = _ from rfl)]
    simp only [tenancies_concat_bound, List.mem_append, List.mem_singleton, or_and_right,
      exists_or, exists_eq_left]
    by_cases hi : id = host.id
    · rw [if_pos hi, hi, Option.some.injEq]
      refine ⟨fun heq => .inr ⟨rfl, heq⟩, ?_⟩
      rintro (⟨t, ht, heq, -⟩ | ⟨-, heq⟩)
      · exact absurd heq (hid t ht)
      · exact heq
    · rw [if_neg hi, m.mapped]
      exact ⟨.inl, fun h => h.resolve_right fun h => hi h.1.symm⟩
  case size =>
    rw [tenancies_concat_bound, List.length_append, ← m.size]
    exact size_insert_byHost hnone _
  case parted =>
    intro other h hin
    have hpast : Event.unbound other h ∈ past := by simpa using hin
    exact (m.parted hpast).append _

/-- An entity that is bound is unbound. -/
theorem Mirrors.unbind {t : HostRef × Handle} (ht : t ∈ tenancies past) :
    Mirrors (past ++ [.unbound t.1 t.2])
      { allocator := (r.allocator.free t.2).2
        entries := r.entries.clear t.2.slot
        byHost := r.byHost.erase t.1.id.number } := by
  have hsome := m.mapped.mpr ⟨t, ht, rfl, rfl⟩
  constructor
  case circulation =>
    rw [List.map_append]
    exact m.circulation.takeBack (m.mem_outstanding.mpr ⟨t, ht, rfl⟩)
  case entries =>
    intro i e
    simp only [Slots.get?_clear, tenancies_concat_unbound, List.mem_filter, decide_eq_true_eq]
    by_cases hi : i = t.2.slot
    · rw [if_pos hi, hi]
      refine ⟨by simp, ?_⟩
      rintro ⟨s, ⟨hs, hne⟩, hslot, -⟩
      exact absurd (congrArg Prod.snd (m.eq_of_slot hs ht hslot)) hne
    · rw [if_neg hi, m.entries]
      constructor
      · rintro ⟨s, hs, hslot, he⟩
        exact ⟨s, ⟨hs, fun heq => hi (hslot ▸ congrArg Handle.slot heq)⟩, hslot, he⟩
      · rintro ⟨s, ⟨hs, -⟩, hslot, he⟩
        exact ⟨s, hs, hslot, he⟩
  case mapped =>
    intro id h
    rw [handleOf?_of_erase rfl]
    simp only [tenancies_concat_unbound, List.mem_filter, decide_eq_true_eq]
    by_cases hi : id = t.1.id
    · rw [if_pos hi, hi]
      refine ⟨by simp, ?_⟩
      rintro ⟨s, ⟨hs, hne⟩, hid, -⟩
      exact absurd (congrArg Prod.snd (m.eq_of_id hs ht hid)) hne
    · rw [if_neg hi]
      refine m.mapped.trans ⟨?_, ?_⟩
      · rintro ⟨s, hs, hid, heq⟩
        refine ⟨s, ⟨hs, fun hst => hi ?_⟩, hid, heq⟩
        rw [← hid, m.eq_of_slot hs ht (congrArg Handle.slot hst)]
      · rintro ⟨s, ⟨hs, -⟩, hid, heq⟩
        exact ⟨s, hs, hid, heq⟩
  case size =>
    have hlen : ((tenancies past).filter (·.2 ≠ t.2)).length = (tenancies past).length - 1 := by
      have hmap : ((tenancies past).filter (·.2 ≠ t.2)).map Prod.snd =
          ((tenancies past).map Prod.snd).erase t.2 := by
        rw [m.nodup_handles.erase_eq_filter, List.filter_map]
        exact congrArg _ (List.filter_congr fun s _ => by simp [bne, beq_eq_decide])
      rw [← List.length_map Prod.snd, hmap,
        List.length_erase_of_mem (List.mem_map_of_mem ht), List.length_map]
    rw [tenancies_concat_unbound, hlen, ← m.size]
    exact size_erase_byHost hsome
  case parted =>
    intro host h hin
    rcases List.mem_append.mp hin with hin | hin
    · exact (m.parted hin).append _
    · obtain ⟨rfl, rfl⟩ := Event.unbound.inj (List.mem_singleton.mp hin)
      obtain ⟨before, after, heq, -⟩ := Registry.mem_tenancies.mp ht
      exact ⟨t.1, before, after ++ [.unbound t.1 t.2], by simp [heq], by simp⟩

/-- Binding is refused to a host identity that is bound, and gives a handle to any other. -/
theorem Mirrors.bind_of_taken {host : HostRef} {t : HostRef × Handle} (ht : t ∈ tenancies past)
    (hid : t.1.id = host.id) : r.bind host = .error (.alreadyBound host.id t.2) := by
  rw [Registry.bind, m.mapped.mpr ⟨t, ht, hid, rfl⟩]

theorem Mirrors.unbind_of_mem {t : HostRef × Handle} (ht : t ∈ tenancies past) :
    r.unbind t.2 = .ok (t.1, { allocator := (r.allocator.free t.2).2
                               entries := r.entries.clear t.2.slot
                               byHost := r.byHost.erase t.1.id.number }) := by
  have hentry : r.entry t.2 = .ok ⟨t.2, t.1, .binding, false⟩ :=
    entry_eq_ok_iff.mpr (m.find?_eq_some_iff.mpr ⟨t, ht, rfl, rfl⟩)
  rw [Registry.unbind, hentry]

omit m in
/-- Unbinding fails as looking up the entry does. -/
theorem unbind_eq_error_iff {h : Handle} {error : Error} :
    r.unbind h = .error error ↔ r.entry h = .error error := by
  unfold Registry.unbind
  cases r.entry h <;> simp

theorem Mirrors.exists_error {h : Handle} (hh : ∀ t ∈ tenancies past, t.2 ≠ h) :
    ∃ error, r.unbind h = .error error := by
  simp only [unbind_eq_error_iff]
  cases hentry : r.entry h with
  | error error => exact ⟨error, rfl⟩
  | ok e =>
    obtain ⟨t, ht, heq, -⟩ := m.find?_eq_some_iff.mp (entry_eq_ok_iff.mp hentry)
    exact absurd heq (hh t ht)

/-- Whatever is called, the registry does as its history says. -/
theorem Mirrors.act (call : Call) (hcap : (r.act call).allocator.capacity ≤ 2 ^ 32) :
    Mirrors (past ++ r.events call) (r.act call) := by
  unfold Registry.act events at *
  cases call with
  | bind host =>
    by_cases hid : ∃ t ∈ tenancies past, t.1.id = host.id
    · obtain ⟨t, ht, hid⟩ := hid
      simp only [step, m.bind_of_taken ht hid, Except.map]
      simpa using m
    · have hfresh : ∀ t ∈ tenancies past, t.1.id ≠ host.id := fun t ht heq => hid ⟨t, ht, heq⟩
      simp only [step, bind_of_fresh (m.handleOf?_eq_none hfresh), Except.map] at hcap ⊢
      exact m.bind hfresh hcap
  | unbind h =>
    by_cases hh : ∃ t ∈ tenancies past, t.2 = h
    · obtain ⟨t, ht, rfl⟩ := hh
      simp only [step, m.unbind_of_mem ht, Except.map]
      exact m.unbind ht
    · obtain ⟨error, herror⟩ := m.exists_error fun t ht heq => hh ⟨t, ht, heq⟩
      simp only [step, herror, Except.map]
      simpa using m

end Mirrors

theorem capacity_le_act (r : Registry) (call : Call) :
    r.allocator.capacity ≤ (r.act call).allocator.capacity := by
  unfold act
  cases call with
  | bind host =>
    cases hf : r.handleOf? host.id with
    | some h => simp [step, Registry.bind, hf, Except.map]
    | none =>
      simp only [step, bind_of_fresh hf, Except.map]
      exact r.allocator.capacity_le_alloc
  | unbind h =>
    simp only [step, Registry.unbind]
    cases r.entry h with
    | error error => exact Nat.le_refl _
    | ok e => exact Nat.le_of_eq (Allocator.capacity_free _ _).symm

theorem capacity_le_run (r : Registry) (calls : List Call) :
    r.allocator.capacity ≤ (r.run calls).allocator.capacity := by
  induction calls generalizing r with
  | nil => exact Nat.le_refl _
  | cons call calls ih => exact Nat.le_trans (r.capacity_le_act call) (ih _)

theorem Mirrors.run {past : List Event} {r : Registry} (m : Mirrors past r) (calls : List Call)
    (hcap : (r.run calls).allocator.capacity ≤ 2 ^ 32) :
    Mirrors (past ++ r.history calls) (r.run calls) := by
  induction calls generalizing past r with
  | nil => simpa [history, Registry.run] using m
  | cons call calls ih =>
    have hone := m.act call (Nat.le_trans (capacity_le_run _ calls) hcap)
    have hmore := ih hone hcap
    simpa [history, Registry.run] using hmore

/-! ## A map with a list of slots -/

/-- What a registry would do next, told from its history. -/
structure Refines (past : List Event) (r : Registry) : Prop where
  /-- A host identity that is not bound gets the slot whose turn it is, under the number of
  times that it was unbound. -/
  bind : ∀ host, (∀ t ∈ tenancies past, t.1.id ≠ host.id) →
    ∃ i r', Allocator.Next (past.map Event.circulation) i ∧
      r.bind host = .ok (⟨i, UInt32.ofNat (unbindings past i)⟩, r') ∧
      ∀ id, r'.handleOf? id = if id = host.id then some ⟨i, UInt32.ofNat (unbindings past i)⟩
        else r.handleOf? id
  /-- One that is bound is refused, with its handle. -/
  taken : ∀ host, ∀ t ∈ tenancies past, t.1.id = host.id →
    r.bind host = .error (.alreadyBound host.id t.2)
  /-- A handle that is bound gives back its host object, whose identity alone is bound no
  longer. -/
  unbind : ∀ t ∈ tenancies past, ∃ r', r.unbind t.2 = .ok (t.1, r') ∧
    ∀ id, r'.handleOf? id = if id = t.1.id then none else r.handleOf? id
  /-- Any other handle is refused. -/
  unknown : ∀ h, (∀ t ∈ tenancies past, t.2 ≠ h) → ∃ error, r.unbind h = .error error
  refused : ∀ call error, r.step call = .error error → r.act call = r ∧ r.events call = []
  mapped : ∀ id h, r.handleOf? id = some h ↔ ∃ t ∈ tenancies past, t.1.id = id ∧ t.2 = h
  /-- Each identity that is bound counts once. -/
  distinct : ((tenancies past).map fun t => t.1.id).Nodup
  size : r.size = ((tenancies past).map fun t => t.1.id).length

theorem Mirrors.refines {past : List Event} {r : Registry} (m : Mirrors past r)
    (hcap : r.allocator.capacity < 2 ^ 32) : Refines past r where
  bind host hid := by
    have hnext : r.allocator.alloc.2.capacity ≤ 2 ^ 32 :=
      Nat.le_trans r.allocator.capacity_alloc_le hcap
    have hhandle : r.allocator.alloc.1 =
        ⟨r.allocator.alloc.1.index, UInt32.ofNat (unbindings past r.allocator.alloc.1.index)⟩ :=
      congrArg (Handle.mk _) (m.circulation.generation_alloc hnext)
    refine ⟨_, r.opened host, m.circulation.next_alloc hcap, ?_, fun id => ?_⟩
    · rw [bind_of_fresh (m.handleOf?_eq_none hid), ← hhandle]
    · rw [← hhandle]
      exact handleOf?_of_insert rfl id
  taken host t ht hid := m.bind_of_taken ht hid
  unbind t ht := ⟨_, m.unbind_of_mem ht, handleOf?_of_erase rfl⟩
  unknown h hh := m.exists_error hh
  refused call error herror := by simp [Registry.act, events, herror]
  mapped id h := m.mapped
  distinct := by
    refine List.Nodup.map_on (fun s hs t ht heq => m.eq_of_id hs ht heq) ?_
    exact m.nodup_handles.of_map _
  size := by rw [List.length_map, m.size]

/-- As long as slot numbers last, a registry is a map in which slots are used again in the order
in which they were given back. -/
theorem refines_run (calls : List Call) (hcap : (run {} calls).allocator.capacity < 2 ^ 32) :
    Refines (history {} calls) (run {} calls) := by
  have hmirrors := mirrors_empty.run calls (Nat.le_of_lt hcap)
  exact hmirrors.refines hcap

/-- Two host objects come, the first one goes, is asked to go once more, and a third one takes its
slot. The second one cannot be bound again. -/
theorem refines_run_third :
    let calls : List Call := [.bind ⟨⟨7⟩, 0⟩, .bind ⟨⟨8⟩, 1⟩, .unbind ⟨0, 0⟩, .unbind ⟨0, 0⟩,
      .bind ⟨⟨8⟩, 2⟩, .bind ⟨⟨9⟩, 3⟩]
    (run {} calls).allocator.capacity < 2 ^ 32 ∧
      tenancies (history {} calls) = [(⟨⟨8⟩, 1⟩, ⟨1, 0⟩), (⟨⟨9⟩, 3⟩, ⟨0, 1⟩)] ∧
      Refines (history {} calls) (run {} calls) :=
  ⟨by decide, by decide, refines_run _ (by decide)⟩

/-! ## Why a handle finds nothing -/

/-- The slot of a handle was bound before, but not as often as the handle says. -/
def Ahead (past : List Event) (h : Handle) : Prop :=
  (∃ host d, Event.bound host d ∈ past ∧ d.index = h.index) ∧
    unbindings past h.index < h.generation.toNat

/-- What a registry says of a handle, told from its history. -/
structure Classifies (past : List Event) (r : Registry) (h : Handle) : Prop where
  /-- It finds the entry of a handle that is bound, -/
  bound : (∃ e, r.entry h = .ok e) ↔ ∃ t ∈ tenancies past, t.2 = h
  found : ∀ e, r.entry h = .ok e → e.handle = h ∧ (e.host, h) ∈ tenancies past
  /-- a handle that was bound and unbound is stale, and so is one that is ahead of its slot, -/
  stale : r.entry h = .error (.staleHandle h) ↔ Parted past h ∨ Ahead past h
  /-- and any other handle that was never bound is not bound. -/
  unknown : r.entry h = .error (.notBound (.handle h)) ↔
    (∀ host, Event.bound host h ∉ past) ∧ ¬ Ahead past h
  /-- Unbinding says the same. -/
  unbinds : (∃ x, r.unbind h = .ok x) ↔ ∃ t ∈ tenancies past, t.2 = h
  refuses : ∀ error, r.unbind h = .error error ↔ r.entry h = .error error
  /-- A handle that is ahead of its slot was never bound. -/
  ahead : Ahead past h → ∀ host, Event.bound host h ∉ past

/-- Where there is no entry, a handle is stale if its slot carries another generation. -/
theorem entry_of_none {r : Registry} {h : Handle} (hf : r.find? h = none) :
    (r.entry h = .error (.staleHandle h) ∧
      ∃ g, r.allocator.current? h.index = some g ∧ g ≠ h.generation) ∨
    (r.entry h = .error (.notBound (.handle h)) ∧
      ¬ ∃ g, r.allocator.current? h.index = some g ∧ g ≠ h.generation) := by
  unfold entry
  rw [hf]
  cases hc : r.allocator.current? h.index with
  | none => simp
  | some g => by_cases hg : g = h.generation <;> simp [hg]

theorem mem_issued_iff {past : List Event} {h : Handle} :
    h ∈ Allocator.issued (past.map Event.circulation) ↔ ∃ host, Event.bound host h ∈ past := by
  rw [Allocator.mem_issued, List.mem_map]
  constructor
  · rintro ⟨e, he, heq⟩
    cases e with
    | bound host d =>
      rw [← Allocator.Event.issued.inj heq]
      exact ⟨host, he⟩
    | unbound => cases heq
  · rintro ⟨host, hin⟩
    exact ⟨_, hin, rfl⟩

theorem mem_returned_iff {past : List Event} {h : Handle} :
    h ∈ Allocator.returned (past.map Event.circulation) ↔
      ∃ host, Event.unbound host h ∈ past := by
  rw [Allocator.mem_returned, List.mem_map]
  constructor
  · rintro ⟨e, he, heq⟩
    cases e with
    | bound => cases heq
    | unbound host d =>
      rw [← (Allocator.Event.returned.inj heq).1]
      exact ⟨host, he⟩
  · rintro ⟨host, hin⟩
    exact ⟨_, hin, rfl⟩

section Classifies

variable {past : List Event} {r : Registry} (m : Mirrors past r)
  (hfew : totalUnbindings past < 2 ^ 32) {h : Handle}
include m hfew

/-- A handle was unbound if its slot was unbound more often than the handle says. -/
theorem Mirrors.parted_iff : Parted past h ↔ h.generation.toNat < unbindings past h.index := by
  constructor
  · rintro ⟨host, before, after, rfl, hin⟩
    obtain ⟨n, hn, hg⟩ := m.circulation.left h (mem_returned_iff.mpr ⟨host, by simp [hin]⟩)
    rw [hg, Allocator.toNat_ofNat_of_le_returns hfew (Nat.le_of_lt hn)]
    exact hn
  · intro hlt
    have hback := m.circulation.filled h.index _ hlt
    rw [UInt32.ofNat_toNat] at hback
    obtain ⟨host, hin⟩ := mem_returned_iff.mp hback
    exact m.parted hin

/-- A handle was never bound if it is not bound now and was not unbound. -/
theorem Mirrors.not_bound_iff : (∀ host, Event.bound host h ∉ past) ↔
    (∀ t ∈ tenancies past, t.2 ≠ h) ∧ ¬ Parted past h := by
  rw [← not_exists, ← mem_issued_iff]
  constructor
  · intro hnot
    refine ⟨fun t ht heq => hnot ?_, ?_⟩
    · obtain ⟨before, after, hpast, -⟩ := Registry.mem_tenancies.mp ht
      exact mem_issued_iff.mpr ⟨t.1, by simp [hpast, heq]⟩
    · rintro ⟨host, before, after, rfl, -⟩
      exact hnot (mem_issued_iff.mpr ⟨host, by simp⟩)
  · rintro ⟨hno, hnot⟩ hin
    rcases Allocator.outstanding_or_returned hin with hout | hback
    · obtain ⟨t, ht, heq⟩ := m.mem_outstanding.mp hout
      exact hno t ht heq
    · obtain ⟨host, hin⟩ := mem_returned_iff.mp hback
      exact hnot (m.parted hin)

/-- A slot carries another generation than a handle if the handle was unbound or is ahead. -/
theorem Mirrors.moved_iff :
    (∃ g, r.allocator.current? h.index = some g ∧ g ≠ h.generation) ↔
      Parted past h ∨ Ahead past h := by
  have k := m.circulation
  have hused : (∃ host d, Event.bound host d ∈ past ∧ d.index = h.index) ↔
      h.index.toNat < r.allocator.capacity := by
    rw [k.used]
    simp only [mem_issued_iff]
    exact ⟨fun ⟨host, d, hin, heq⟩ => ⟨d, ⟨host, hin⟩, heq⟩,
      fun ⟨d, ⟨host, hin⟩, heq⟩ => ⟨host, d, hin, heq⟩⟩
  rw [m.parted_iff hfew, Ahead, hused]
  by_cases hlt : h.index.toNat < r.allocator.capacity
  · have hnat : (UInt32.ofNat (unbindings past h.index)).toNat = unbindings past h.index :=
      Allocator.toNat_ofNat_of_le_returns hfew (Nat.le_refl _)
    have hcur : r.allocator.current? h.index = some (UInt32.ofNat (unbindings past h.index)) :=
      k.current _ hlt
    simp only [hcur, Option.some.injEq, exists_eq_left', hlt, true_and]
    rw [ne_eq, ← UInt32.toNat_inj, hnat]
    omega
  · have hnone : r.allocator.current? h.index = none := by
      rw [← Option.not_isSome_iff_eq_none, Allocator.current?_isSome_iff]
      exact hlt
    have hzero : unbindings past h.index = 0 := k.returns_eq_zero hlt
    simp [hnone, hzero, hlt]

/-- A handle that is bound carries the generation of its slot. -/
theorem Mirrors.not_moved {t : HostRef × Handle} (ht : t ∈ tenancies past) :
    ¬ (Parted past t.2 ∨ Ahead past t.2) := by
  intro hmoved
  obtain ⟨g, hg, hne⟩ := (m.moved_iff hfew).mpr hmoved
  rw [m.circulation.current_of_outstanding (m.mem_outstanding.mpr ⟨t, ht, rfl⟩)] at hg
  exact hne (Option.some.inj hg).symm

/-- Of three things that a registry may say of a handle it says the one that is true. -/
theorem Mirrors.entry_cases (h : Handle) :
    (∃ t ∈ tenancies past, t.2 = h ∧ r.entry h = .ok ⟨h, t.1, .binding, false⟩) ∨
    ((∀ t ∈ tenancies past, t.2 ≠ h) ∧
      ((r.entry h = .error (.staleHandle h) ∧ (Parted past h ∨ Ahead past h)) ∨
        (r.entry h = .error (.notBound (.handle h)) ∧ ¬ (Parted past h ∨ Ahead past h)))) := by
  by_cases hb : ∃ t ∈ tenancies past, t.2 = h
  · obtain ⟨t, ht, rfl⟩ := hb
    exact .inl ⟨t, ht, rfl, entry_eq_ok_iff.mpr (m.find?_eq_some_iff.mpr ⟨t, ht, rfl, rfl⟩)⟩
  · have hno : ∀ t ∈ tenancies past, t.2 ≠ h := fun t ht heq => hb ⟨t, ht, heq⟩
    have hf : r.find? h = none := by
      rw [Option.eq_none_iff_forall_ne_some]
      intro e he
      obtain ⟨t, ht, heq, -⟩ := m.find?_eq_some_iff.mp he
      exact hno t ht heq
    rw [← m.moved_iff hfew]
    exact .inr ⟨hno, entry_of_none hf⟩

/-- A handle that is ahead of its slot was never bound. -/
theorem Mirrors.not_bound_of_ahead (ha : Ahead past h) : ∀ host, Event.bound host h ∉ past := by
  refine (m.not_bound_iff hfew).mpr ⟨?_, fun hp => ?_⟩
  · rintro t ht rfl
    exact m.not_moved hfew ht (.inr ha)
  · exact Nat.lt_asymm ha.2 ((m.parted_iff hfew).mp hp)

theorem Mirrors.classifies (h : Handle) : Classifies past r h := by
  have hcases := m.entry_cases hfew h
  have hbound : (∃ e, r.entry h = .ok e) ↔ ∃ t ∈ tenancies past, t.2 = h := by
    rcases hcases with ⟨t, ht, heq, he⟩ | ⟨hno, ⟨he, -⟩ | ⟨he, -⟩⟩
    · exact iff_of_true ⟨_, he⟩ ⟨t, ht, heq⟩
    · exact iff_of_false (by simp [he]) fun ⟨t, ht, heq⟩ => hno t ht heq
    · exact iff_of_false (by simp [he]) fun ⟨t, ht, heq⟩ => hno t ht heq
  refine ⟨hbound, fun e he => ?_, ?_, ?_, ?_, fun error => unbind_eq_error_iff,
    m.not_bound_of_ahead hfew⟩
  · obtain ⟨t, ht, rfl, rfl⟩ := m.find?_eq_some_iff.mp (entry_eq_ok_iff.mp he)
    exact ⟨rfl, ht⟩
  · rcases hcases with ⟨t, ht, rfl, he⟩ | ⟨-, ⟨he, hm⟩ | ⟨he, hm⟩⟩
    · exact iff_of_false (by simp [he]) (m.not_moved hfew ht)
    · exact iff_of_true he hm
    · exact iff_of_false (by simp [he]) hm
  · rw [m.not_bound_iff hfew, and_assoc, ← not_or]
    rcases hcases with ⟨t, ht, heq, he⟩ | ⟨hno, ⟨he, hm⟩ | ⟨he, hm⟩⟩
    · exact iff_of_false (by simp [he]) fun hand => hand.1 t ht heq
    · exact iff_of_false (by simp [he]) fun hand => hand.2 hm
    · exact iff_of_true he ⟨hno, hm⟩
  · rw [← hbound]
    unfold Registry.unbind
    cases r.entry h <;> simp

end Classifies

/-- As long as slot numbers and generations last, a registry tells of any handle whether it is
bound, was unbound or was never bound, but takes those that are ahead of their slots for stale. -/
theorem classifies_run (calls : List Call) (hcap : (run {} calls).allocator.capacity ≤ 2 ^ 32)
    (hfew : totalUnbindings (history {} calls) < 2 ^ 32) (h : Handle) :
    Classifies (history {} calls) (run {} calls) h := by
  have hmirrors := mirrors_empty.run calls hcap
  exact Mirrors.classifies hmirrors hfew h

/-- Of the handles of one slot, the one that was unbound is stale, the one that is bound is found
and the one after it is stale, though it was never bound. -/
theorem classifies_run_rebound :
    let calls : List Call := [.bind ⟨⟨7⟩, 0⟩, .unbind ⟨0, 0⟩, .bind ⟨⟨7⟩, 0⟩]
    (run {} calls).allocator.capacity ≤ 2 ^ 32 ∧ totalUnbindings (history {} calls) < 2 ^ 32 ∧
      Classifies (history {} calls) (run {} calls) ⟨0, 0⟩ ∧
      Classifies (history {} calls) (run {} calls) ⟨0, 1⟩ ∧
      Classifies (history {} calls) (run {} calls) ⟨0, 2⟩ := by
  intro calls
  have hcap : (run {} calls).allocator.capacity ≤ 2 ^ 32 := by decide
  have hfew : totalUnbindings (history {} calls) < 2 ^ 32 := by decide
  exact ⟨hcap, hfew, classifies_run calls hcap hfew _, classifies_run calls hcap hfew _,
    classifies_run calls hcap hfew _⟩

/-- A handle that no binding ever gave is refused as stale, though its slot has not moved on. -/
theorem stale_unbound :
    let calls : List Call := [.bind ⟨⟨7⟩, 0⟩]
    history {} calls = [.bound ⟨⟨7⟩, 0⟩ ⟨0, 0⟩] ∧
      (run {} calls).entry ⟨0, 1⟩ = .error (.staleHandle ⟨0, 1⟩) ∧
      ∀ host, Event.bound host ⟨0, 1⟩ ∉ history {} calls := by
  intro calls
  have hhistory : history {} calls = [.bound ⟨⟨7⟩, 0⟩ ⟨0, 0⟩] := by rfl
  refine ⟨hhistory, by rfl, fun host hin => ?_⟩
  rw [hhistory] at hin
  simp at hin

end Registry

end Tether
