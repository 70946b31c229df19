import Tether.Proofs.Flushing
import Tether.Proofs.Reaping
import Tether.Proofs.Staleness

/-!
# Requests about host objects

Through the queue a host object is asked to be bound, and a host identity to be torn down, in any
order and any number of times. `Coordinator.decided_run` says what a flush makes of that : for each
identity the last request about it wins (`lastRequest?`), a live host object that nobody asks about
keeps its entity, and whoever is bound has the handle that was issued to it last.

Each request is answered at once by the direct call for it (`Coordinator.answers_act`), and what a
list of requests comes to is put together from that (`Coordinator.Answers.append`). A handle that
was issued is in use or behind from then on (`Population.Spent`), so none is issued twice.
-/

set_option linter.unusedSectionVars false

namespace Tether

/-- Whether a mutation is a request about a host object. -/
def Mutation.isRequest : Mutation → Bool
  | .create _ | .destroy (.host _) => true
  | _ => false

/-- What a mutation asks for a host identity, if it is about it : to be bound, or not to be. -/
def Mutation.request? (id : HostId) : Mutation → Option Bool
  | .create host => if host.id = id then some true else none
  | .destroy (.host id') => if id' = id then some false else none
  | _ => none

/-- What the last of some mutations that is about a host identity asks for it. -/
def lastRequest? (id : HostId) (ms : List Mutation) : Option Bool :=
  (ms.filterMap (Mutation.request? id)).getLast?

theorem lastRequest?_append (id : HostId) (ms ns : List Mutation) :
    lastRequest? id (ms ++ ns) = (lastRequest? id ns).or (lastRequest? id ms) := by
  rw [lastRequest?, List.filterMap_append, List.getLast?_append]
  rfl

theorem lastRequest?_singleton (id : HostId) (m : Mutation) :
    lastRequest? id [m] = m.request? id := by
  cases hm : m.request? id <;> simp [lastRequest?, hm]

/-! ## Handles that are issued -/

/-- The handle that a signal tells to be issued to a host identity. -/
def Signal.issued? : Signal → Option (HostId × Handle)
  | .entityCreated h id => some (id, h)
  | _ => none

/-- The handles that some signals tell to be issued. -/
def issued (ss : List Signal) : List Handle := (ss.filterMap Signal.issued?).map Prod.snd

/-- The handles that some signals tell to be issued to a host identity. -/
def issuedTo (id : HostId) (ss : List Signal) : List Handle :=
  ((ss.filterMap Signal.issued?).filter fun x => x.1 = id).map Prod.snd

@[simp] theorem issued_append (ss ts : List Signal) :
    issued (ss ++ ts) = issued ss ++ issued ts := by
  simp [issued]

@[simp] theorem issuedTo_append (id : HostId) (ss ts : List Signal) :
    issuedTo id (ss ++ ts) = issuedTo id ss ++ issuedTo id ts := by
  simp [issuedTo]

theorem mem_issued {h : Handle} {ss : List Signal} :
    h ∈ issued ss ↔ ∃ id, .entityCreated h id ∈ ss := by
  simp only [issued, List.mem_map, List.mem_filterMap]
  constructor
  · rintro ⟨⟨id, h⟩, ⟨s, hs, heq⟩, rfl⟩
    cases s <;> cases heq
    exact ⟨id, hs⟩
  · rintro ⟨id, hs⟩
    exact ⟨(id, h), ⟨_, hs, rfl⟩, rfl⟩

/-- What a new entity is announced with. -/
theorem filterMap_issued?_attach (h : Handle) (id : HostId) (cells : List (ComponentId × Value)) :
    (Signal.entityCreated h id :: cells.map fun x => .componentAdded h x.1 x.2).filterMap
      Signal.issued? = [(id, h)] := by
  simp [Signal.issued?, List.filterMap_map, Function.comp_def]

/-- Where only ends are announced nothing is issued. -/
theorem filterMap_issued?_of_ends {ss : List Signal} (h : ∀ s ∈ ss, s.kind = .entityDestroying) :
    ss.filterMap Signal.issued? = [] := by
  refine List.filterMap_eq_nil_iff.mpr fun s hs => ?_
  have hkind := h s hs
  cases s with
  | entityDestroying _ _ _ => rfl
  | _ => cases hkind

namespace Population

/-- A handle is in use, or its slot has moved on. -/
def Spent (p : Population) (h : Handle) : Prop :=
  p.Retired h ∨ ∃ e, p.entryAt? h.slot = some e ∧ e.handle = h

section Changes

variable {p q : Population} {ss : List Signal} {n : Nat} {h : Handle}

/-- A handle in use stays in use, or its entity goes; it is not issued meanwhile. -/
theorem Change.spent_of_used (hc : Change p ss q) (hcap : q.capacity ≤ 2 ^ 32) (hp : p.Consistent)
    (hn : p.Bounded n) (hlt : n + teardowns ss < 2 ^ 32) {e : Entry}
    (he : p.entryAt? h.slot = some e) (hh : e.handle = h) : q.Spent h ∧ h ∉ issued ss := by
  cases hc with
  | quiet ha =>
    obtain ⟨d, hd, hdh, -⟩ := ha.symm_entry_of he
    exact ⟨.inr ⟨d, hd, hdh.trans hh⟩, by simp [issued]⟩
  | @attach j host cells _ _ _ ha =>
    have hfree := hp.entryAt?_of_issued (ha.allocator_issued hp hcap)
    have hslot : h.slot ≠ j.slot := fun heq => by simp [heq, hfree] at he
    refine ⟨.inr ⟨e, by rw [ha.entries, if_neg hslot, he], hh⟩, ?_⟩
    rw [issued, filterMap_issued?_attach]
    simpa using fun heq : h = j => hslot (congrArg Handle.slot heq)
  | @detach d row _ hd =>
    refine ⟨?_, by simp [issued, Signal.issued?]⟩
    by_cases hslot : h.slot = d.handle.slot
    · have heq : e = d := Option.some.inj (he.symm.trans (hslot ▸ hd.found))
      rw [← hh, heq]
      exact .inl (hd.retires hp hn hlt)
    · exact .inr ⟨e, by rw [hd.entries, if_neg hslot, he], hh⟩
  | add hs _ =>
    refine ⟨.inr ⟨e, ?_, hh⟩, by simp [issued, Signal.issued?]⟩
    rw [entryAt?, hs.registry]
    exact he
  | remove hs _ =>
    refine ⟨.inr ⟨e, ?_, hh⟩, by simp [issued, Signal.issued?]⟩
    rw [entryAt?, hs.registry]
    exact he

/-- A handle that is spent stays so, and is not issued. -/
theorem Change.spent (hc : Change p ss q) (hcap : q.capacity ≤ 2 ^ 32) (hp : p.Consistent)
    (hn : p.Bounded n) (hlt : n + teardowns ss < 2 ^ 32) (hs : p.Spent h) :
    q.Spent h ∧ h ∉ issued ss := by
  obtain hr | ⟨e, he, hh⟩ := hs
  · obtain ⟨hr, hss⟩ := hc.retired hcap hp hn hlt hr
    exact ⟨.inl hr, by simpa [mem_issued] using hss⟩
  · exact hc.spent_of_used hcap hp hn hlt he hh

/-- A change issues one handle at most, which is in use then. -/
theorem Change.spends (hc : Change p ss q) :
    (issued ss).Nodup ∧ ∀ h ∈ issued ss, q.Spent h := by
  cases hc with
  | @attach j _ _ _ _ _ ha =>
    rw [issued, filterMap_issued?_attach]
    refine ⟨List.pairwise_singleton _ _, fun h hh => ?_⟩
    obtain rfl := List.mem_singleton.mp hh
    exact .inr ⟨_, by rw [ha.entries, if_pos rfl], rfl⟩
  | _ => exact ⟨List.nodup_nil, by simp [issued, Signal.issued?]⟩

end Changes

section Series

variable {p q : Population} {es : List Raised} {n : Nat}

theorem Trace.spent (ht : Trace p es q) (hcap : q.capacity ≤ 2 ^ 32) (hp : p.Consistent)
    (hn : p.Bounded n) (hlt : n + teardowns (es.map Raised.signal) < 2 ^ 32) {h : Handle}
    (hs : p.Spent h) : h ∉ issued (es.map Raised.signal) := by
  induction ht generalizing n with
  | nil => simp [issued]
  | cons hc ht ih =>
    simp only [List.map_append, map_signal_raised, teardowns_append, issued_append] at hlt ⊢
    have hmid := Nat.le_trans ht.capacity_le hcap
    obtain ⟨hs, hss⟩ := hc.spent hmid hp hn (by omega) hs
    have hes := ih hcap (hc.consistent hmid hp) (hc.bounded hmid hp hn) (by omega) hs
    simpa [hss] using hes

/-- No handle is issued twice along a series of changes. -/
theorem Trace.nodup_issued (ht : Trace p es q) (hcap : q.capacity ≤ 2 ^ 32) (hp : p.Consistent)
    (hn : p.Bounded n) (hlt : n + teardowns (es.map Raised.signal) < 2 ^ 32) :
    (issued (es.map Raised.signal)).Nodup := by
  induction ht generalizing n with
  | nil => exact List.nodup_nil
  | cons hc ht ih =>
    simp only [List.map_append, map_signal_raised, teardowns_append, issued_append] at hlt ⊢
    have hmid := Nat.le_trans ht.capacity_le hcap
    have hp' := hc.consistent hmid hp
    have hn' := hc.bounded hmid hp hn
    obtain ⟨hnodup, hspent⟩ := hc.spends
    refine List.nodup_append.mpr ⟨hnodup, ih hcap hp' hn' (by omega), ?_⟩
    rintro h hh _ hlater rfl
    exact ht.spent hcap hp' hn' (by omega) (hspent h hh) hlater

end Series

end Population

/-- Putting an object back brings none into existence. -/
theorem Hosts.alive_of_putBack {ο : Type} [HostObject ο] {hosts : Hosts ο} {ref r : HostRef}
    {object : ο} (h : (hosts.putBack ref object).alive r = true) : hosts.alive r = true := by
  rw [alive, get?_putBack] at h
  split at h
  · obtain ⟨_, hcell⟩ := Option.isSome_iff_exists.mp h
    obtain ⟨_, hold, -⟩ := Option.bind_eq_some_iff.mp hcell
    exact Option.isSome_of_eq_some hold
  · exact h

namespace Coordinator

variable {ο σ : Type} [HostObject ο] {c d e : Coordinator ο σ}

/-! ## Binding and tearing down once more -/

theorem hosts_complete (c : Coordinator ο σ) (registry : Registry) (h : Handle) (host : HostRef)
    (components : List ComponentId) (failures : List Error) :
    (c.complete registry h host components failures).hosts = c.hosts := by
  obtain ⟨_, _, _, _, heq, -⟩ := c.complete_eq registry h host components failures
  rw [heq]
  rfl

/-- Binding brings no host object into existence. -/
theorem alive_of_bind {host r : HostRef} (h : (c.bind host).2.hosts.alive r = true) :
    c.hosts.alive r = true := by
  have hattach : (c.attach host).2.hosts.alive r = true := by
    rcases c.bind_snd host with heq | ⟨j, heq⟩ <;> rw [heq] at h
    · exact h
    · rwa [hosts_unbind] at h
  cases ho : c.hosts.find? host with
  | none => rwa [attach_of_gone ho] at hattach
  | some object =>
    cases hf : c.registry.handleOf? host.id with
    | some j => rwa [attach_of_bound ho hf] at hattach
    | none =>
      rw [attach_of_fresh ho hf] at hattach
      simp only [attached, hosts_complete, fill] at hattach
      split at hattach
      · exact hattach
      · exact Hosts.alive_of_putBack hattach

/-- A host object that had no entity and is there to the end gets one, for good. -/
theorem bind_of_alive {host : HostRef} (hf : c.registry.handleOf? host.id = none)
    (halive : (c.bind host).2.hosts.alive host = true) :
    ∃ object, c.hosts.find? host = some object ∧
      c.bind host = (.ok c.registry.allocator.alloc.1, c.attached host object) := by
  cases ho : c.hosts.find? host with
  | none =>
    rw [bind_of_gone ho, alive_iff, ho] at halive
    simp at halive
  | some object =>
    refine ⟨object, rfl, ?_⟩
    simp only [bind, attach_of_fresh ho hf] at halive ⊢
    split
    · rfl
    · rename_i hgone
      rw [if_neg hgone] at halive
      have hhosts := hosts_unbind ((c.attached host object).note
        (.droppedWhileBinding host.id c.registry.allocator.alloc.1)) c.registry.allocator.alloc.1
      generalize unbind _ _ = x at halive hhosts
      obtain ⟨answer, d⟩ := x
      have hd : d.hosts.alive host = true := by cases answer <;> exact halive
      rw [show d.hosts = (c.attached host object).hosts from hhosts] at hd
      exact absurd hd hgone

/-! ## One request after another -/

/-- What requests come to, from one state to another, with the signals that are raised. -/
structure Answers (c : Coordinator ο σ) (ms : List Mutation) (ss : List Signal)
    (d : Coordinator ο σ) : Prop where
  outbox : d.outbox.toList = c.outbox.toList ++ ss
  /-- The last request about a host identity wins. -/
  last : ∀ id bound, lastRequest? id ms = some bound → (d.registry.lookup? id).isSome = bound
  /-- Identities that nobody asks about keep what they have. -/
  others : ∀ id, lastRequest? id ms = none → d.registry.lookup? id = c.registry.lookup? id
  /-- The handle of an identity is the last that was issued to it, or the one from before. -/
  handles : ∀ id h, d.registry.lookup? id = some h →
    (issuedTo id ss).getLast?.or (c.registry.lookup? id) = some h
  /-- Whose entity it is was asked for, or was so before. -/
  objects : ∀ h host, d.registry.resolve? h = some host →
    .create host ∈ ms ∨ c.registry.resolve? h = some host

theorem Answers.nil (c : Coordinator ο σ) : c.Answers [] [] c where
  outbox := by simp
  last id bound h := by simp [lastRequest?] at h
  others _ _ := rfl
  handles id h hl := by simpa [issuedTo] using hl
  objects _ _ h := .inr h

theorem Answers.append {ms ns : List Mutation} {ss ts : List Signal} (h : c.Answers ms ss d)
    (h' : d.Answers ns ts e) : c.Answers (ms ++ ns) (ss ++ ts) e where
  outbox := by rw [h'.outbox, h.outbox, List.append_assoc]
  last id bound hlast := by
    rw [lastRequest?_append] at hlast
    cases hns : lastRequest? id ns with
    | some bound' =>
      rw [hns, Option.some_or, Option.some.injEq] at hlast
      exact hlast ▸ h'.last id bound' hns
    | none =>
      rw [hns, Option.none_or] at hlast
      rw [h'.others id hns]
      exact h.last id bound hlast
  others id hnone := by
    rw [lastRequest?_append, Option.or_eq_none_iff] at hnone
    rw [h'.others id hnone.1, h.others id hnone.2]
  handles id j hj := by
    have hlater := h'.handles id j hj
    rw [issuedTo_append, List.getLast?_append, Option.or_assoc]
    cases hts : (issuedTo id ts).getLast? with
    | some k =>
      rw [hts] at hlater
      exact hlater
    | none =>
      rw [hts, Option.none_or] at hlater
      exact h.handles id j hlater
  objects j host hj := by
    rcases h'.objects j host hj with hin | hj
    · exact .inl (List.mem_append_right _ hin)
    · exact (h.objects j host hj).imp_left (List.mem_append_left _)

theorem Answers.of_core {ms : List Mutation} {ss : List Signal} (h : c.Answers ms ss d)
    (hcore : e.core = d.core) : c.Answers ms ss e := by
  have hregistry : d.registry = e.registry := registry_of_core hcore
  have houtbox : d.outbox = e.outbox := (congrArg Core.outbox hcore).symm
  exact ⟨houtbox ▸ h.outbox, hregistry ▸ h.last, hregistry ▸ h.others, hregistry ▸ h.handles,
    hregistry ▸ h.objects⟩

/-- What one request comes to. -/
theorem Answers.single {m : Mutation} {ss : List Signal} {id : HostId} {bound : Bool}
    (hm : ∀ id', m.request? id' = if id = id' then some bound else none)
    (hout : d.outbox.toList = c.outbox.toList ++ ss)
    (hlast : (d.registry.lookup? id).isSome = bound)
    (hothers : ∀ id', id ≠ id' → d.registry.lookup? id' = c.registry.lookup? id')
    (hhandles : ∀ id' h, d.registry.lookup? id' = some h →
      (issuedTo id' ss).getLast?.or (c.registry.lookup? id') = some h)
    (hobjects : ∀ h host, d.registry.resolve? h = some host →
      m = .create host ∨ c.registry.resolve? h = some host) : c.Answers [m] ss d where
  outbox := hout
  last id' bound' h := by
    rw [lastRequest?_singleton, hm] at h
    split at h <;> cases h
    rename_i hid
    exact hid ▸ hlast
  others id' h := by
    rw [lastRequest?_singleton, hm] at h
    refine hothers id' fun hid => ?_
    rw [if_pos hid] at h
    cases h
  handles := hhandles
  objects h host hh := (hobjects h host hh).imp_left fun heq => by simp [heq]

/-- A request that finds things as it wants them. -/
theorem Answers.idle {m : Mutation} {id : HostId} {bound : Bool}
    (hm : ∀ id', m.request? id' = if id = id' then some bound else none)
    (hlast : (c.registry.lookup? id).isSome = bound) : c.Answers [m] [] c :=
  .single hm (by simp) hlast (fun _ _ => rfl) (fun id' h hl => by simpa [issuedTo] using hl)
    fun _ _ h => .inr h

section Consistent

variable (hp : c.population.Consistent)
include hp

/-- A host object that has an entity keeps it, and another one gets a new one. -/
theorem answers_bind {host : HostRef} (hcap : (c.bind host).2.registry.allocator.capacity ≤ 2 ^ 32)
    (halive : (c.bind host).2.hosts.alive host = true) :
    ∃ ss, c.Answers [.create host] ss (c.bind host).2 := by
  cases hf : c.registry.handleOf? host.id with
  | some j =>
    obtain ⟨object, ho⟩ := alive_iff.mp (alive_of_bind halive)
    rw [bind_of_bound ho hf]
    exact ⟨[], .idle (fun _ => rfl) (by rw [lookup?_eq hp, hf]; rfl)⟩
  | none =>
    obtain ⟨object, ho, hbind⟩ := bind_of_alive hf halive
    rw [hbind] at hcap ⊢
    obtain ⟨cells, row, degraded, ha, hout⟩ := attached_change object hp hf hcap
    have hp' := ha.consistent hp hcap
    have hlookup : ∀ id, (c.attached host object).registry.lookup? id =
        if id = host.id then some c.registry.allocator.alloc.1 else c.registry.lookup? id := by
      intro id
      rw [lookup?_eq hp', lookup?_eq hp]
      exact ha.byHost id
    refine ⟨_, .single (fun _ => rfl) hout ?_ (fun id hid => ?_) (fun id h hl => ?_)
      fun h host' hh => ?_⟩
    · rw [hlookup, if_pos rfl]
      rfl
    · rw [hlookup, if_neg (Ne.symm hid)]
    · rw [hlookup] at hl
      rw [issuedTo, filterMap_issued?_attach]
      split at hl
      · rename_i hid
        simpa [hid] using hl
      · rename_i hid
        simpa [Ne.symm hid] using hl
    · rw [resolve?_eq hp', show (c.attached host object).registry.find? h = _ from
        ha.find?_eq hp hcap h] at hh
      rw [resolve?_eq hp]
      split at hh
      · exact .inl (by simpa using hh)
      · exact .inr hh

/-- A host identity that has an entity loses it. -/
theorem answers_unbindHost (id : HostId) :
    ∃ ss, c.Answers [.destroy (.host id)] ss (c.unbindHost id).2 := by
  cases hl : c.registry.lookup? id with
  | none =>
    have hsame : (c.unbindHost id).2 = c := by simp [unbindHost, hl]
    rw [hsame]
    exact ⟨[], .idle (fun _ => rfl) (by rw [hl]; rfl)⟩
  | some h =>
    obtain ⟨host, hresolve, rfl⟩ := (lookup?_iff_resolve? hp).mp hl
    rw [resolve?_eq hp] at hresolve
    obtain ⟨e, hf, rfl⟩ := Option.map_eq_some_iff.mp hresolve
    obtain rfl := Registry.handle_of_find? hf
    have hbound := (bound_iff_find? hp).mpr hf
    obtain ⟨row, hd, -⟩ := detached_tornDown hp hbound
    have hp' := hd.consistent hp
    have hlookup : ∀ id, (c.tornDown e).registry.lookup? id =
        if id = e.host.id then none else c.registry.lookup? id := by
      intro id
      rw [lookup?_eq hp', lookup?_eq hp]
      exact hd.byHost id
    have hsame : (c.unbindHost e.host.id).2 = c.tornDown e := by
      simp only [unbindHost, hl, unbind_of_bound hbound]
    rw [hsame]
    refine ⟨[_], .single (fun _ => rfl) Array.toList_push ?_ (fun id hid => ?_) (fun id j hj => ?_)
      fun j host hj => ?_⟩
    · rw [hlookup, if_pos rfl]
      rfl
    · rw [hlookup, if_neg (Ne.symm hid)]
    · rw [hlookup] at hj
      split at hj
      · cases hj
      · exact hj
    · rw [resolve?_eq hp', show (c.tornDown e).registry.find? j = _ from hd.find?_eq j] at hj
      rw [resolve?_eq hp]
      split at hj
      · cases hj
      · exact .inr hj

/-- The direct call for a request answers it. -/
theorem answers_act {m : Mutation} (hm : m.isRequest = true)
    (hcap : (c.act m.direct).registry.allocator.capacity ≤ 2 ^ 32)
    (halive : ∀ host, m = .create host → (c.act m.direct).hosts.alive host = true) :
    ∃ ss, c.Answers [m] ss (c.act m.direct) := by
  cases m with
  | create host => exact answers_bind hp hcap (halive host rfl)
  | destroy target =>
    cases target with
    | handle h => cases hm
    | host id => exact answers_unbindHost hp id
  | _ => cases hm

end Consistent

/-- Only what binds or tears down touches the registry and the host objects. -/
theorem kept_of_act {m : Mutation} (hcreate : ∀ host, m ≠ .create host)
    (hdestroy : ∀ target, m ≠ .destroy target) :
    (c.act m.direct).registry = c.registry ∧ (c.act m.direct).hosts = c.hosts := by
  cases m with
  | create host => exact absurd rfl (hcreate host)
  | destroy target => exact absurd rfl (hdestroy target)
  | addComponent j id value =>
    simp only [Mutation.direct, act, addComponent]
    split
    · exact ⟨rfl, rfl⟩
    · split
      · exact ⟨rfl, rfl⟩
      · split <;> exact ⟨rfl, rfl⟩
  | removeComponent j id =>
    simp only [Mutation.direct, act, removeComponent]
    split
    · exact ⟨rfl, rfl⟩
    · split <;> exact ⟨rfl, rfl⟩
  | signal name entities delay =>
    simp only [Mutation.direct, act, delaySignal, NamedSignals.schedule]
    split <;> exact ⟨rfl, rfl⟩

theorem alive_of_act {m : Mutation} {r : HostRef}
    (h : (c.act m.direct).hosts.alive r = true) : c.hosts.alive r = true := by
  cases m with
  | create host => exact alive_of_bind h
  | destroy target =>
    cases target with
    | handle j => exact hosts_unbind c j ▸ h
    | host id =>
      simp only [Mutation.direct, act, unbindHost] at h
      split at h
      · exact h
      · rwa [hosts_unbind] at h
  | _ => rwa [(kept_of_act (by simp) (by simp)).2] at h

/-- Mutations bring no host object into existence. -/
theorem alive_of_run {ms : List Mutation} {r : HostRef}
    (h : (c.run (ms.map Mutation.direct)).hosts.alive r = true) : c.hosts.alive r = true := by
  induction ms generalizing c with
  | nil => exact h
  | cons m ms ih => exact alive_of_act (ih h)

/-- The direct calls for requests answer them, as long as the host objects to be bound are there
to the end. -/
theorem answers_run {ms : List Mutation} (hm : ∀ m ∈ ms, m.isRequest = true)
    (hp : c.population.Consistent)
    (hcap : (c.run (ms.map Mutation.direct)).registry.allocator.capacity ≤ 2 ^ 32)
    (halive : ∀ host, .create host ∈ ms →
      (c.run (ms.map Mutation.direct)).hosts.alive host = true) :
    ∃ ss, c.Answers ms ss (c.run (ms.map Mutation.direct)) := by
  induction ms generalizing c with
  | nil => exact ⟨[], .nil c⟩
  | cons m ms ih =>
    have hrest : ∀ m' ∈ ms, m'.isRequest = true := fun m' hm' => hm m' (List.mem_cons_of_mem _ hm')
    have hone : (c.act m.direct).population.capacity ≤ 2 ^ 32 :=
      Nat.le_trans (evolves_run (c.act m.direct) (ms.map Mutation.direct)).capacity_le hcap
    have hp' := ((c.evolves_act m.direct).trace hone hp).consistent hone hp
    obtain ⟨ss, hss⟩ := answers_act hp (hm m List.mem_cons_self) hone fun host hhost =>
      alive_of_run (halive host (by simp [hhost]))
    obtain ⟨ts, hts⟩ := ih hrest hp' hcap fun host hin => halive host (List.mem_cons_of_mem _ hin)
    exact ⟨ss ++ ts, hss.append hts⟩

/-! ## Flushes -/

/-- What a flush makes of the requests that wait in `c`. -/
structure Decided (c : Coordinator ο σ) (ss : List Signal) (d : Coordinator ο σ) : Prop where
  /-- The signals are raised. -/
  outbox : d.outbox.toList = c.outbox.toList ++ ss
  /-- An identity that was asked about is bound exactly if the last request was to bind it. -/
  last : ∀ id bound, lastRequest? id c.waiting = some bound →
    (d.registry.lookup? id).isSome = bound
  /-- One that nobody asked about keeps its handle, and the handle its host object, unless the
  object is gone. -/
  others : ∀ id, lastRequest? id c.waiting = none →
    (∀ h host, c.registry.lookup? id = some h → c.registry.resolve? h = some host →
      c.hosts.alive host = true) →
    d.registry.lookup? id = c.registry.lookup? id ∧
      ∀ h, c.registry.lookup? id = some h → d.registry.resolve? h = c.registry.resolve? h
  /-- No handle is issued twice. -/
  distinct : (issued ss).Nodup
  /-- The handle of an identity is the last that was issued to it by the flush; if none was, it is
  the handle from before. -/
  handles : ∀ id h, d.registry.lookup? id = some h →
    (issuedTo id ss).getLast?.or (c.registry.lookup? id) = some h
  /-- The host object of a handle was asked to be bound, or had the handle before. -/
  objects : ∀ h host, d.registry.resolve? h = some host →
    .create host ∈ c.waiting ∨ c.registry.resolve? h = some host

/-- Reaping, and then the answers to the requests. -/
theorem decided_of_answers {ss : List Signal} (hp : c.population.Consistent)
    (hd : d.population.Consistent) (h : c.reap.2.Answers c.waiting ss d) :
    ∃ ts, d.outbox.toList = c.outbox.toList ++ ts ∧
      ((issued ts).Nodup → c.Decided ts d) := by
  obtain ⟨ends, hout, hends⟩ := (sweeps_reap hp).2.outbox
  have hnone : ∀ id, issuedTo id ends = [] := fun id => by
    simp [issuedTo, filterMap_issued?_of_ends hends]
  have houtbox : d.outbox.toList = c.outbox.toList ++ (ends ++ ss) := by
    rw [h.outbox, hout, List.append_assoc]
  refine ⟨ends ++ ss, houtbox, fun hnodup => ⟨houtbox, h.last, fun id hid ha => ?_, hnodup,
    fun id j hj => ?_, fun j host hj => ?_⟩⟩
  · have hlookup : d.registry.lookup? id = c.registry.lookup? id := by
      rw [h.others id hid, lookup?_reap hp]
      cases hl : c.registry.lookup? id with
      | none => rfl
      | some j =>
        obtain ⟨host, hhost, -⟩ := (lookup?_iff_resolve? hp).mp hl
        simp [hhost, ha j host hl hhost]
    refine ⟨hlookup, fun j hj => ?_⟩
    obtain ⟨host, hhost, heq⟩ := (lookup?_iff_resolve? hp).mp hj
    obtain ⟨host', hhost', heq'⟩ := (lookup?_iff_resolve? hd).mp (hlookup.trans hj)
    rw [hhost, hhost']
    rcases h.objects j host' hhost' with hin | hold
    · -- a request about this identity there is none
      have hsome := List.filterMap_eq_nil_iff.mp (List.getLast?_eq_none_iff.mp hid) _ hin
      simp [Mutation.request?, heq'] at hsome
    · rw [resolve?_reap hp] at hold
      exact hhost ▸ (Option.filter_eq_some_iff.mp hold).1.symm
  · have hlast := h.handles id j hj
    rw [issuedTo_append, hnone, List.nil_append]
    cases hss : (issuedTo id ss).getLast? with
    | some k =>
      rw [hss] at hlast
      exact hlast
    | none =>
      rw [hss, Option.none_or, lookup?_reap hp] at hlast
      exact (Option.filter_eq_some_iff.mp hlast).1
  · refine (h.objects j host hj).imp_right fun hold => ?_
    rw [resolve?_reap hp] at hold
    exact (Option.filter_eq_some_iff.mp hold).1

/-- If all that waits are requests about host objects, and the objects that are to be bound are
there to the end, a flush goes through and decides the requests :

* a host identity that is asked about is bound afterwards exactly if the last request is to bind
  it, and every other one whose object is there keeps its handle;
* no handle is issued twice, and who is bound has the handle that the flush issued to it last, or
  the one from before if the flush issued none to it.

As in `inert_run` slot numbers and generations have to last : fewer than `2 ^ 32` entities were
torn down by the end of the flush. -/
theorem decided_run (table : Table) (settings : Settings) (surroundings : Surroundings ο σ)
    (journal : Journal) (as : List (Action ο σ)) :
    let start := withTable table settings surroundings journal
    let c := start.run as
    c.frame.flushed = false → (∀ m ∈ c.waiting, m.isRequest = true) →
    (∀ host, .create host ∈ c.waiting → c.flush.2.hosts.alive host = true) →
    c.flush.2.registry.allocator.capacity ≤ 2 ^ 32 →
    teardowns ((start.history (as ++ [.flush])).map Raised.signal) < 2 ^ 32 →
    ∃ report ss, c.flush.1 = .ok (.ok report) ∧ c.Decided ss c.flush.2 := by
  intro start c hf hm halive hcap hcount
  have hrun : start.run (as ++ [.flush]) = c.flush.2 := run_append start as [.flush]
  have hq : c.queue.Unbroken := unbroken_run table settings surroundings journal as
  have htime : ∀ m ∈ c.waiting, m.InTime c.frame.time := by
    rintro m hin name entities delay rfl
    cases hm _ hin
  obtain ⟨report, hreport, hflushes⟩ := flushes_flush (rfl : c.core = c.core) hq hf htime
  -- the flush and the direct calls end alike
  have hcore : c.flush.2.core = (c.reap.2.run (c.waiting.map Mutation.direct)).core :=
    hflushes.core
  have hregistry := registry_of_core hcore
  have hhosts := hosts_of_core hcore
  have hp' : c.flush.2.population.Consistent :=
    hrun ▸ consistent_run table settings surroundings journal (as ++ [.flush]) (by rwa [hrun])
  have hp : c.population.Consistent := by
    refine consistent_run table settings surroundings journal as (Nat.le_trans ?_ hcap)
    exact c.moves_flush.evolves.capacity_le
  obtain ⟨ss, hss⟩ := answers_run hm (sweeps_reap hp).2.consistent
    (hregistry ▸ hcap) fun host hin => hhosts ▸ halive host hin
  obtain ⟨ts, hts, hdecided⟩ := decided_of_answers hp hp' (hss.of_core hcore)
  refine ⟨report, ts, hreport, hdecided ?_⟩
  -- what the flush issues is part of what the whole run issues
  have htrace := (evolves_run start (as ++ [.flush])).trace (hrun ▸ hcap)
    Population.consistent_empty
  have hnodup := htrace.nodup_issued (hrun ▸ hcap) Population.consistent_empty
    Population.bounded_empty (by omega)
  have hraised : c.raisedByFlush.map Raised.signal = ts :=
    List.append_cancel_left (c.moves_flush.outbox.symm.trans hts)
  rw [history_append, List.map_append, issued_append] at hnodup
  have hflush : start.run as = c := rfl
  simp only [history, List.append_nil, raisedBy, hflush, hraised] at hnodup
  exact (List.nodup_append.mp hnodup).2.1

/-- One host object is torn down and bound again, and in between another one, which is asked for
twice, takes the slot that it leaves. -/
theorem decided_run_exchange :
    let as : List (Action PropertyBag Unit) := [.surround fun s =>
        { s with hosts := (s.hosts.create ⟨8⟩ ⟨[("health", .int 5)]⟩ true).2 },
      .bind ⟨⟨7⟩, 0⟩, .enqueue (.destroy (.host ⟨7⟩)), .enqueue (.create ⟨⟨8⟩, 1⟩),
      .enqueue (.create ⟨⟨7⟩, 0⟩), .enqueue (.create ⟨⟨8⟩, 1⟩)]
    let c := sample.run as
    c.frame.flushed = false ∧ (∀ m ∈ c.waiting, m.isRequest = true) ∧
      (∀ host, .create host ∈ c.waiting → c.flush.2.hosts.alive host = true) ∧
      c.flush.2.registry.allocator.capacity ≤ 2 ^ 32 ∧
      teardowns ((sample.history (as ++ [.flush])).map Raised.signal) < 2 ^ 32 ∧
      c.registry.lookup? ⟨7⟩ = some ⟨0, 0⟩ ∧ c.flush.2.registry.lookup? ⟨8⟩ = some ⟨0, 1⟩ ∧
      c.flush.2.registry.lookup? ⟨7⟩ = some ⟨1, 0⟩ ∧
      ∃ report ss, c.flush.1 = .ok (.ok report) ∧ c.Decided ss c.flush.2 := by
  intro as c
  have hf : c.frame.flushed = false := by decide +kernel
  have hwaiting : c.waiting = [.destroy (.host ⟨7⟩), .create ⟨⟨8⟩, 1⟩, .create ⟨⟨7⟩, 0⟩,
    .create ⟨⟨8⟩, 1⟩] := rfl
  have hm : ∀ m ∈ c.waiting, m.isRequest = true := by
    rw [hwaiting]
    decide
  -- what the flush leaves is read off the direct calls
  obtain ⟨_, -, hflushes⟩ := flushes_flush (rfl : c.core = c.core) (unbroken_run _ _ _ _ as) hf
    fun m hin name entities delay heq => by cases heq ▸ hm m hin
  have hcore := hflushes.core
  rw [hwaiting] at hcore
  have hregistry := registry_of_core hcore
  have hhosts := hosts_of_core hcore
  have houtbox : c.flush.2.outbox = _ := congrArg Core.outbox hcore
  have halive : ∀ host, .create host ∈ c.waiting → c.flush.2.hosts.alive host = true := by
    intro host hin
    rw [hwaiting] at hin
    simp only [List.mem_cons, reduceCtorEq, Mutation.create.injEq, List.not_mem_nil, or_false,
      false_or] at hin
    rw [← hhosts]
    rcases hin with rfl | rfl | rfl <;> decide +kernel
  have hcap : c.flush.2.registry.allocator.capacity ≤ 2 ^ 32 := by
    rw [← hregistry]
    decide +kernel
  have hcount : teardowns ((sample.history (as ++ [.flush])).map Raised.signal) < 2 ^ 32 := by
    have hout := outbox_run sample (as ++ [.flush])
    rw [run_append, show (sample.run as).run [.flush] = c.flush.2 from rfl, houtbox] at hout
    rw [show (sample.history (as ++ [.flush])).map Raised.signal = _ from hout]
    decide +kernel
  have hother : c.flush.2.registry.lookup? ⟨8⟩ = some ⟨0, 1⟩ := hregistry ▸ by decide +kernel
  have hagain : c.flush.2.registry.lookup? ⟨7⟩ = some ⟨1, 0⟩ := hregistry ▸ by decide +kernel
  exact ⟨hf, hm, halive, hcap, hcount, by decide +kernel, hother, hagain,
    decided_run sample.table sample.settings sample.surroundings sample.journal as hf hm halive
      hcap hcount⟩

end Coordinator

end Tether
