import Tether.Proofs.Structure

/-!
# Calls that fail

A call that answers with an error leaves the whole state as it was, the host objects in its
surroundings included (`Coordinator.act_of_failure`). Every call asks for all that it needs before
it changes anything : after the first change there are two more places at which binding could
stop and two at which tearing down could, and none of them is ever reached, since an entry that
was just made or just found is still there (`Coordinator.bound_attached`,
`Coordinator.unbind_of_bound`).

What a call can be refused for is said exactly by `Coordinator.Refusing`, and
`Coordinator.refusing_run` that it holds after every run.
-/

set_option linter.unusedSectionVars false

namespace Tether

/-- The error of an answer, if it is one. -/
def errorOf {α : Type} : Except Error α → Option Error
  | .error error => some error
  | .ok _ => none

theorem errorOf_map {α β : Type} (f : α → β) (answer : Except Error α) :
    errorOf (answer.map f) = errorOf answer := by
  cases answer <;> rfl

/-- The entity that an action asks for by its handle. -/
def Action.handle? {ο σ : Type} : Action ο σ → Option Handle
  | .unbind h | .addComponent h _ _ | .removeComponent h _ | .synchronize h _ => some h
  | _ => none

/-- Why a handle is not bound. -/
theorem Registry.error_of_bound {r : Registry} {h : Handle} {error : Error}
    (hb : r.bound h = .error error) :
    error = .staleHandle h ∨ error = .notBound (.handle h) := by
  unfold bound entry at hb
  cases hf : r.find? h with
  | some e =>
    simp only [hf] at hb
    split at hb <;> cases hb
    exact .inr rfl
  | none =>
    cases hg : r.allocator.current? h.index with
    | none =>
      simp only [hf, hg] at hb
      cases hb
      exact .inr rfl
    | some g =>
      simp only [hf, hg] at hb
      by_cases hgen : g = h.generation
      · rw [if_pos hgen] at hb
        cases hb
        exact .inr rfl
      · rw [if_neg hgen] at hb
        cases hb
        exact .inl rfl

namespace Coordinator

variable {ο σ : Type} [HostObject ο] {c : Coordinator ο σ}

/-- The error that a call is answered with, if it is one that can fail, and does. -/
def failure? (c : Coordinator ο σ) : Action ο σ → Option Error
  | .bind host => errorOf (c.bind host).1
  | .unbind h => errorOf (c.unbind h).1
  | .unbindHost id => errorOf (c.unbindHost id).1
  | .addComponent h id value => errorOf (c.addComponent h id value).1
  | .removeComponent h id => errorOf (c.removeComponent h id).1
  | .synchronize h direction => errorOf (c.synchronize h direction).1
  | .flush => c.flush.1.toOption.bind errorOf
  | _ => none

/-! ## Binding -/

theorem alive_iff {host : HostRef} :
    c.hosts.alive host = true ↔ ∃ object, c.hosts.find? host = some object := by
  rw [← Option.isSome_iff_exists, Hosts.find?, Option.isSome_map]
  rfl

/-- A new entity is bound, whatever could be read of its host object. -/
theorem bound_attached (c : Coordinator ο σ) (host : HostRef) (object : ο) :
    ∃ e, (c.attached host object).registry.bound c.registry.allocator.alloc.1 = .ok e := by
  obtain ⟨fine, hr⟩ := c.registry_attached host object
  refine ⟨⟨c.registry.allocator.alloc.1, host, .bound, !fine⟩, ?_⟩
  rw [hr, Registry.bound_eq_ok_iff, Registry.find?_eq_some_iff, Registry.get?_entries_flagged]
  exact ⟨⟨if_pos rfl, rfl⟩, rfl⟩

/-- If the host object goes away meanwhile, the new entity can be torn down. -/
theorem unbind_attached (c : Coordinator ο σ) (host : HostRef) (object : ο) (n : Notice) :
    (((c.attached host object).note n).unbind c.registry.allocator.alloc.1).1 = .ok () := by
  obtain ⟨e, he⟩ := c.bound_attached host object
  exact congrArg Prod.fst (unbind_of_bound (c := (c.attached host object).note n) he)

theorem bind_of_gone {host : HostRef} (ho : c.hosts.find? host = none) :
    c.bind host = (.error (.hostDropped host.id), c) := by
  simp only [bind, attach_of_gone ho]

theorem bind_of_bound {host : HostRef} {object : ο} {h : Handle}
    (ho : c.hosts.find? host = some object) (hh : c.registry.handleOf? host.id = some h) :
    c.bind host = (.error (.alreadyBound host.id h), c) := by
  simp only [bind, attach_of_bound ho hh]

/-- Nothing else can keep a host object from being bound. -/
theorem bind_of_fresh {host : HostRef} {object : ο} (ho : c.hosts.find? host = some object)
    (hf : c.registry.handleOf? host.id = none) :
    (c.bind host).1 = .ok c.registry.allocator.alloc.1 := by
  have hunbind := c.unbind_attached host object
    (.droppedWhileBinding host.id c.registry.allocator.alloc.1)
  simp only [bind, attach_of_fresh ho hf]
  split
  · rfl
  · generalize unbind _ _ = x at hunbind
    obtain ⟨answer, d⟩ := x
    obtain rfl : answer = .ok () := hunbind
    rfl

/-- The state that binding fails in, with the reason. -/
theorem bind_of_error {host : HostRef} {error : Error} (h : (c.bind host).1 = .error error) :
    (c.bind host).2 = c ∧
      ((c.hosts.alive host = false ∧ error = .hostDropped host.id) ∨
        ∃ j, c.hosts.alive host = true ∧ c.registry.handleOf? host.id = some j ∧
          error = .alreadyBound host.id j) := by
  cases ho : c.hosts.find? host with
  | none =>
    rw [bind_of_gone ho] at h ⊢
    cases h
    refine ⟨rfl, .inl ⟨?_, rfl⟩⟩
    rw [← Bool.not_eq_true, alive_iff, ho]
    simp
  | some object =>
    have halive := alive_iff.mpr ⟨object, ho⟩
    cases hf : c.registry.handleOf? host.id with
    | some j =>
      rw [bind_of_bound ho hf] at h ⊢
      cases h
      exact ⟨rfl, .inr ⟨j, halive, rfl, rfl⟩⟩
    | none =>
      rw [bind_of_fresh ho hf] at h
      cases h

/-! ## The other calls -/

theorem unbind_of_failure {h : Handle} {error : Error}
    (hu : errorOf (c.unbind h).1 = some error) :
    (c.unbind h).2 = c ∧ c.registry.bound h = .error error := by
  cases hb : c.registry.bound h with
  | error error' =>
    rw [unbind_of_error hb] at hu ⊢
    cases hu
    exact ⟨rfl, rfl⟩
  | ok e =>
    rw [unbind_of_bound hb] at hu
    cases hu

/-- The handle that is looked up is bound, so its entity can be torn down. -/
theorem unbindHost_of_failure {id : HostId} {error : Error}
    (hu : errorOf (c.unbindHost id).1 = some error) :
    (c.unbindHost id).2 = c ∧ c.registry.lookup? id = none ∧ error = .notBound (.host id) := by
  unfold unbindHost at hu ⊢
  cases hl : c.registry.lookup? id with
  | none =>
    simp only [hl] at hu ⊢
    cases hu
    exact ⟨trivial, trivial, rfl⟩
  | some h =>
    simp only [hl] at hu
    obtain ⟨j, -, e, hb, rfl⟩ := Registry.lookup?_eq_some_iff.mp hl
    rw [(Registry.find?_eq_some_iff.mp (Registry.bound_eq_ok_iff.mp hb).1).2] at hu
    rw [(unbind_of_failure hu).2] at hb
    cases hb

theorem addComponent_of_failure {h : Handle} {id : ComponentId} {value : Value} {error : Error}
    (ha : errorOf (c.addComponent h id value).1 = some error) :
    (c.addComponent h id value).2 = c ∧
      (error = .staleHandle h ∨ error = .notBound (.handle h)) := by
  unfold addComponent at ha ⊢
  cases hb : c.registry.bound h with
  | error error' =>
    simp only [hb] at ha ⊢
    cases ha
    exact ⟨trivial, Registry.error_of_bound hb⟩
  | ok e =>
    cases hrow : c.world.row? h with
    | none =>
      simp only [hb, hrow] at ha ⊢
      cases ha
      exact ⟨trivial, .inr rfl⟩
    | some row =>
      simp only [hb, hrow] at ha
      split at ha <;> cases ha

theorem removeComponent_of_failure {h : Handle} {id : ComponentId} {error : Error}
    (hr : errorOf (c.removeComponent h id).1 = some error) :
    (c.removeComponent h id).2 = c ∧
      (error = .staleHandle h ∨ error = .notBound (.handle h)) := by
  unfold removeComponent at hr ⊢
  cases hb : c.registry.bound h with
  | error error' =>
    simp only [hb] at hr ⊢
    cases hr
    exact ⟨trivial, Registry.error_of_bound hb⟩
  | ok e =>
    simp only [hb] at hr
    split at hr <;> cases hr

theorem synchronize_of_failure {h : Handle} {direction : Direction} {error : Error}
    (hs : errorOf (c.synchronize h direction).1 = some error) :
    (c.synchronize h direction).2 = c ∧
      (error = .staleHandle h ∨ error = .notBound (.handle h) ∨
        ∃ host, c.registry.resolve? h = some host ∧ c.hosts.alive host = false ∧
          error = .hostDropped host.id) := by
  unfold synchronize at hs ⊢
  cases hb : c.registry.bound h with
  | error error' =>
    simp only [hb] at hs ⊢
    cases hs
    exact ⟨trivial, (Registry.error_of_bound hb).imp_right .inl⟩
  | ok e =>
    cases ho : c.hosts.find? e.host with
    | none =>
      simp only [hb, ho] at hs ⊢
      cases hs
      have hgone : c.hosts.alive e.host = false := by
        rw [← Bool.not_eq_true, alive_iff, ho]
        simp
      have hresolve := Registry.resolve?_eq_some_iff.mpr ⟨e, hb, rfl⟩
      exact ⟨trivial, .inr (.inr ⟨e.host, hresolve, hgone, rfl⟩)⟩
    | some object =>
      cases hrow : c.world.row? h with
      | none =>
        simp only [hb, ho, hrow] at hs ⊢
        cases hs
        exact ⟨trivial, .inr (.inl rfl)⟩
      | some row =>
        simp only [hb, ho, hrow] at hs
        cases hs

/-- The one thing that a flush can be refused for is known before it begins. -/
theorem flush_of_failure {error : Error} (hf : c.failure? .flush = some error) :
    c.flush.2 = c ∧ c.frame.flushed = true ∧ error = .alreadyFlushed c.frame.number := by
  cases hflushed : c.frame.flushed with
  | true =>
    simp only [failure?, flush, hflushed, ↓reduceIte] at hf ⊢
    cases hf
    exact ⟨trivial, trivial, rfl⟩
  | false =>
    simp only [failure?, flush_eq hflushed] at hf
    generalize applyAll c.due { reaped := c.flushing.reap.1 } c.drained = r at hf
    obtain ⟨result, d⟩ := r
    cases result <;> cases hf

/-- A call that fails changes nothing. -/
theorem act_of_failure {a : Action ο σ} {error : Error} (h : c.failure? a = some error) :
    c.act a = c := by
  cases a with
  | bind host =>
    cases hb : (c.bind host).1 with
    | error error' => exact (bind_of_error hb).1
    | ok j =>
      simp only [failure?, hb] at h
      cases h
  | unbind j => exact (unbind_of_failure h).1
  | unbindHost id => exact (unbindHost_of_failure h).1
  | addComponent j id value => exact (addComponent_of_failure h).1
  | removeComponent j id => exact (removeComponent_of_failure h).1
  | synchronize j direction => exact (synchronize_of_failure h).1
  | flush => exact (flush_of_failure h).1
  | _ => cases h

/-! ## All calls together -/

/-- What calls can be refused for, and that a call that fails changes nothing. -/
structure Refusing (c : Coordinator ο σ) : Prop where
  /-- A call that fails leaves everything as it was. -/
  unchanged : ∀ a error, c.failure? a = some error → c.act a = c
  /-- Binding fails exactly for an object that is gone, -/
  gone : ∀ host, (c.bind host).1 = .error (.hostDropped host.id) ↔ c.hosts.alive host = false
  /-- and for one that is there exactly if its identity has a handle, which the error names, -/
  taken : ∀ host h, (c.bind host).1 = .error (.alreadyBound host.id h) ↔
    c.hosts.alive host = true ∧ c.registry.handleOf? host.id = some h
  /-- and for no other reason. -/
  binding : ∀ host error, (c.bind host).1 = .error error →
    error = .hostDropped host.id ∨ ∃ h, error = .alreadyBound host.id h
  /-- The handle is live, as long as slot numbers last. -/
  live : c.registry.allocator.capacity ≤ 2 ^ 32 → ∀ id h,
    c.registry.handleOf? id = some h ↔ c.registry.lookup? id = some h
  /-- What is asked for a handle fails only because the handle is stale or not bound, or, if it
  is to be synchronized, because its host object is gone. -/
  handles : ∀ a h error, a.handle? = some h → c.failure? a = some error →
    error = .staleHandle h ∨ error = .notBound (.handle h) ∨
      ∃ direction host, a = .synchronize h direction ∧ c.registry.resolve? h = some host ∧
        c.hosts.alive host = false ∧ error = .hostDropped host.id
  /-- Tearing down by identity fails exactly if the identity is not bound. -/
  unknown : ∀ id error, c.failure? (.unbindHost id) = some error ↔
    c.registry.lookup? id = none ∧ error = .notBound (.host id)
  /-- A flush fails exactly if the frame was flushed before. -/
  flushed : ∀ error, c.failure? .flush = some error ↔
    c.frame.flushed = true ∧ error = .alreadyFlushed c.frame.number
  /-- Once binding has issued a handle, the entry can be completed, -/
  completes : ∀ host object h registry, c.registry.bind host = .ok (h, registry) →
    ∃ registry', (fill ({ c with registry, world := c.world.spawn h }.note
      (.allocated h host.id)) h host object).2.2.registry.setState h .bound = .ok registry'
  /-- and torn down again if the object went away. -/
  retracts : ∀ host h, (c.attach host).1 = .ok h →
    (((c.attach host).2.note (.droppedWhileBinding host.id h)).unbind h).1 = .ok ()
  /-- Once tearing down has found its entry, it can move it on and remove it. -/
  removes : ∀ h e, c.registry.bound h = .ok e →
    ∃ registry, c.registry.setState h .unbinding = .ok registry ∧
      ∃ removed, registry.unbind h = .ok removed

theorem gone_iff (host : HostRef) :
    (c.bind host).1 = .error (.hostDropped host.id) ↔ c.hosts.alive host = false := by
  constructor
  · intro h
    obtain ⟨-, ⟨hgone, -⟩ | ⟨j, -, -, heq⟩⟩ := bind_of_error h
    · exact hgone
    · cases heq
  · intro h
    cases ho : c.hosts.find? host with
    | none => rw [bind_of_gone ho]
    | some object =>
      rw [alive_iff.mpr ⟨object, ho⟩] at h
      cases h

theorem taken_iff (host : HostRef) (h : Handle) :
    (c.bind host).1 = .error (.alreadyBound host.id h) ↔
      c.hosts.alive host = true ∧ c.registry.handleOf? host.id = some h := by
  constructor
  · intro hb
    obtain ⟨-, ⟨-, heq⟩ | ⟨j, halive, hj, heq⟩⟩ := bind_of_error hb
    · cases heq
    · cases heq
      exact ⟨halive, hj⟩
  · rintro ⟨halive, hh⟩
    obtain ⟨object, ho⟩ := alive_iff.mp halive
    rw [bind_of_bound ho hh]

theorem completes_bind {host : HostRef} (object : ο) {h : Handle} {registry : Registry}
    (hb : c.registry.bind host = .ok (h, registry)) :
    ∃ registry', (fill ({ c with registry, world := c.world.spawn h }.note
      (.allocated h host.id)) h host object).2.2.registry.setState h .bound = .ok registry' := by
  rw [registry_fill]
  cases hf : c.registry.handleOf? host.id with
  | some j => simp [Registry.bind, hf] at hb
  | none =>
    rw [Registry.bind_of_fresh hf] at hb
    cases hb
    exact ⟨_, Registry.setState_of_find? (c.registry.find?_opened host) .bound⟩

theorem retracts_attach {host : HostRef} {h : Handle} (ha : (c.attach host).1 = .ok h) :
    (((c.attach host).2.note (.droppedWhileBinding host.id h)).unbind h).1 = .ok () := by
  cases ho : c.hosts.find? host with
  | none =>
    rw [attach_of_gone ho] at ha
    cases ha
  | some object =>
    cases hf : c.registry.handleOf? host.id with
    | some j =>
      rw [attach_of_bound ho hf] at ha
      cases ha
    | none =>
      rw [attach_of_fresh ho hf] at ha ⊢
      cases ha
      exact c.unbind_attached host object _

theorem removes_unbind {h : Handle} {e : Entry} (hb : c.registry.bound h = .ok e) :
    ∃ registry, c.registry.setState h .unbinding = .ok registry ∧
      ∃ removed, registry.unbind h = .ok removed := by
  obtain ⟨hf, -⟩ := Registry.bound_eq_ok_iff.mp hb
  refine ⟨_, Registry.setState_of_find? hf .unbinding, ?_⟩
  obtain ⟨hget, rfl⟩ := Registry.find?_eq_some_iff.mp hf
  have hfind : Registry.find? { c.registry with
      entries := c.registry.entries.modify e.handle.slot fun e => { e with state := .unbinding } }
      e.handle = some { e with state := .unbinding } := by
    simp [Registry.find?, Slots.get?_modify, hget]
  exact ⟨_, by rw [Registry.unbind, Registry.entry_eq_ok_iff.mpr hfind]⟩

theorem handles_failure {a : Action ο σ} {h : Handle} {error : Error}
    (hh : a.handle? = some h) (hf : c.failure? a = some error) :
    error = .staleHandle h ∨ error = .notBound (.handle h) ∨
      ∃ direction host, a = .synchronize h direction ∧ c.registry.resolve? h = some host ∧
        c.hosts.alive host = false ∧ error = .hostDropped host.id := by
  cases a with
  | unbind j =>
    cases hh
    exact (Registry.error_of_bound (unbind_of_failure hf).2).imp_right .inl
  | addComponent j id value =>
    cases hh
    exact (addComponent_of_failure hf).2.imp_right .inl
  | removeComponent j id =>
    cases hh
    exact (removeComponent_of_failure hf).2.imp_right .inl
  | synchronize j direction =>
    cases hh
    obtain ⟨-, hstale | hbound | ⟨host, hresolve, hgone, heq⟩⟩ := synchronize_of_failure hf
    · exact .inl hstale
    · exact .inr (.inl hbound)
    · exact .inr (.inr ⟨direction, host, rfl, hresolve, hgone, heq⟩)
  | _ => cases hh

/-- After every run, whatever a call is refused for, it changes nothing : the errors are those of
`Refusing`, and no call stops after its first change. -/
theorem refusing_run (table : Table) (settings : Settings) (surroundings : Surroundings ο σ)
    (journal : Journal) (as : List (Action ο σ)) :
    ((withTable table settings surroundings journal).run as).Refusing where
  unchanged _ _ h := act_of_failure h
  gone := gone_iff
  taken := taken_iff
  binding host error h := by
    obtain ⟨-, ⟨-, heq⟩ | ⟨j, -, -, heq⟩⟩ := bind_of_error h
    · exact .inl heq
    · exact .inr ⟨j, heq⟩
  live hcap id h :=
    (lookup?_iff (consistent_run table settings surroundings journal as hcap)).symm
  handles _ _ _ hh hf := handles_failure hh hf
  unknown id error := by
    refine ⟨fun h => (unbindHost_of_failure h).2, ?_⟩
    rintro ⟨hl, rfl⟩
    simp [failure?, unbindHost, hl, errorOf]
  flushed error := by
    refine ⟨fun h => (flush_of_failure h).2, ?_⟩
    rintro ⟨hf, rfl⟩
    simp [failure?, flush, hf, errorOf, Except.toOption]
  completes _ object _ _ hb := completes_bind object hb
  retracts _ _ ha := retracts_attach ha
  removes _ _ hb := removes_unbind hb

example : (sample.run [.bind ⟨⟨7⟩, 0⟩]).failure? (.bind ⟨⟨7⟩, 0⟩) =
    some (.alreadyBound ⟨7⟩ ⟨0, 0⟩) := by decide +kernel

end Coordinator

end Tether
