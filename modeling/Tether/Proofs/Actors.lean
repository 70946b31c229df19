import Mathlib.Data.List.Nodup
import Tether.Proofs.Arrivals
import Tether.Workload.Actors

/-!
# Actors

What the workloads do with actors, around the coordinator : a source numbers the actors that it
makes (`ActorFactory.ids_actors`), they come into existence under addresses that nobody had before
(`Stage.enters_enter`), their binding is asked for (`Stage.foldl_request`), and they are given up
(`Hosts.Holds.release`). In existence is who came and was not given up, and nothing else
(`Hosts.Holds`).
-/

set_option linter.unusedSectionVars false

namespace Tether

/-! ## Identities -/

/-- The identity of the `k`-th actor of a source, which counts from one. -/
def actorId (k : Nat) : HostId := ⟨UInt64.ofNat (k + 1)⟩

/-- Two to the 64 actors in a row have different identities. -/
theorem actorId_inj {n j k : Nat} (hj : n ≤ j ∧ j < n + 2 ^ 64) (hk : n ≤ k ∧ k < n + 2 ^ 64)
    (h : actorId j = actorId k) : j = k := by
  have hnumber := congrArg (fun id => id.number.toNat) h
  simp only [actorId, UInt64.toNat_ofNat'] at hnumber
  omega

theorem nodup_actorIds (n : Nat) {count : Nat} (h : count ≤ 2 ^ 64) :
    ((List.range' n count).map actorId).Nodup := by
  have hrange : (List.range' n count).Pairwise (· < ·) := List.pairwise_lt_range'
  refine List.pairwise_map.mpr (hrange.imp_of_mem fun {j k} hj hk hlt heq => ?_)
  rw [List.mem_range'_1] at hj hk
  have hsame := actorId_inj (n := n) ⟨hj.1, by omega⟩ ⟨hk.1, by omega⟩ heq
  omega

namespace ActorFactory

variable {ρ : Type} [Generator ρ]

/-- So many actors were made. -/
def Made (f : ActorFactory ρ) (n : Nat) : Prop := f.nextId = UInt64.ofNat (n + 1)

theorem id_actor {f : ActorFactory ρ} {n : Nat} (h : f.Made n) :
    f.actor.1.1 = actorId n ∧ f.actor.2.Made (n + 1) := by
  refine ⟨congrArg HostId.mk h, ?_⟩
  show f.nextId + 1 = _
  rw [h, UInt64.ofNat_add (n + 1) 1]
  rfl

/-- Actors are numbered in order. -/
theorem ids_actors {f : ActorFactory ρ} {n : Nat} (h : f.Made n) (count : Nat) :
    (f.actors count).1.map Prod.fst = (List.range' n count).map actorId ∧
      (f.actors count).2.Made (n + count) := by
  induction count generalizing f n with
  | zero => exact ⟨rfl, h⟩
  | succ count ih =>
    obtain ⟨hid, hnext⟩ := id_actor h
    obtain ⟨hids, hlast⟩ := ih hnext
    refine ⟨?_, ?_⟩
    · rw [List.range'_succ, List.map_cons, ← hids, ← hid]
      rfl
    · rw [show n + (count + 1) = n + 1 + count by omega]
      exact hlast

end ActorFactory

/-! ## Who is in existence -/

namespace Hosts

variable {ο : Type} [HostObject ο] {x y : Hosts ο} {refs : List HostRef}

/-- In existence are the objects of a list, each under an address of its own and owned by the host
runtime, and nothing else. -/
structure Holds (x : Hosts ο) (refs : List HostRef) : Prop where
  owned : ∀ a, (x.cells.get? a).map HostCell.owned =
    if a ∈ refs.map HostRef.address then some true else none
  apart : (refs.map HostRef.address).Nodup
  below : ∀ ref ∈ refs, ref.address < x.created

theorem holds_empty : Holds ({} : Hosts ο) [] := ⟨fun _ => by simp, by simp, by simp⟩

theorem Holds.allOwned (h : x.Holds refs) : x.AllOwned := by
  intro a cell hcell
  have howned := h.owned a
  rw [hcell] at howned
  split at howned
  · exact Option.some.inj howned
  · cases howned

theorem Holds.alive_iff (h : x.Holds refs) (ref : HostRef) :
    x.alive ref = true ↔ ref.address ∈ refs.map HostRef.address := by
  have howned := congrArg Option.isSome (h.owned ref.address)
  rw [Option.isSome_map] at howned
  rw [alive, howned]
  split <;> simp_all

theorem Holds.alive (h : x.Holds refs) {ref : HostRef} (hin : ref ∈ refs) : x.alive ref = true :=
  (h.alive_iff ref).mpr (List.mem_map_of_mem hin)

theorem Holds.alike (h : x.Holds refs) (hxy : x.Alike y) : y.Holds refs :=
  ⟨fun a => (hxy.owned a).trans (h.owned a), h.apart,
    fun ref href => hxy.created ▸ h.below ref href⟩

theorem Holds.perm {refs' : List HostRef} (h : x.Holds refs) (hp : refs.Perm refs') :
    x.Holds refs' := by
  refine ⟨fun a => ?_, (hp.map _).nodup_iff.mp h.apart,
    fun ref href => h.below ref (hp.mem_iff.mpr href)⟩
  simp only [h.owned, (hp.map HostRef.address).mem_iff]

/-- A new object comes under an address of its own. -/
theorem Holds.create (h : x.Holds refs) (id : HostId) (object : ο) :
    (x.create id object true).2.Holds (refs ++ [⟨id, x.created⟩]) := by
  have hnew : x.created ∉ refs.map HostRef.address := by
    intro hin
    obtain ⟨ref, href, heq⟩ := List.mem_map.mp hin
    exact Nat.lt_irrefl _ (heq ▸ h.below ref href)
  refine ⟨fun a => ?_, ?_, fun ref href => ?_⟩
  · simp only [Hosts.create, settle, Bool.true_or, ↓reduceIte, Slots.get?_put, List.map_append,
      List.map_cons, List.map_nil, List.mem_append, List.mem_singleton]
    by_cases ha : a = x.created
    · simp [ha]
    · simp only [ha, ↓reduceIte, or_false]
      exact h.owned a
  · rw [List.map_append, List.nodup_append]
    refine ⟨h.apart, by simp, fun a ha b hb hab => ?_⟩
    obtain rfl : b = x.created := List.mem_singleton.mp hb
    exact hnew (hab ▸ ha)
  · rcases List.mem_append.mp href with href | href
    · exact Nat.lt_succ_of_lt (h.below ref href)
    · obtain rfl := List.mem_singleton.mp href
      exact Nat.lt_succ_self _

/-- An object that does not keep itself is gone when it is given up. -/
theorem Holds.release {x : Hosts PropertyBag} {ref : HostRef} (h : x.Holds (ref :: refs)) :
    (x.release ref).2.Holds refs ∧ (x.release ref).2.created = x.created := by
  obtain ⟨hnot, hapart⟩ := List.nodup_cons.mp h.apart
  have hcell := h.owned ref.address
  rw [List.map_cons, if_pos List.mem_cons_self] at hcell
  obtain ⟨cell, hget, howned⟩ := Option.map_eq_some_iff.mp hcell
  have hrelease : (x.release ref).2 = { x with cells := x.cells.clear ref.address } := by
    simp [Hosts.release, hget, howned, settle, HostObject.keepsItself]
  rw [hrelease]
  refine ⟨⟨fun a => ?_, hapart, fun r hr => h.below r (List.mem_cons_of_mem _ hr)⟩, rfl⟩
  rw [Slots.get?_clear]
  by_cases ha : a = ref.address
  · rw [if_pos ha, ha, if_neg hnot]
    rfl
  · rw [if_neg ha, h.owned]
    simp [ha]

end Hosts

/-! ## Coming, asking and going -/

namespace Stage

theorem atRest_new (workers : Nat) : (new workers).AtRest :=
  Coordinator.atRest_withTable _ _ Hosts.holds_empty.allOwned _

/-- On a new stage nobody is bound. -/
theorem houses_new (workers : Nat) : (new workers).Houses [] :=
  Coordinator.houses_withTable _ _ _ _

/-- From one stage to another actors came into existence, and nothing else happened. -/
structure Enters (c : Stage) (actors : List (HostId × PropertyBag)) (refs : List HostRef)
    (d : Stage) : Prop where
  state : d = c.setHosts d.hosts
  ids : refs.map HostRef.id = actors.map Prod.fst
  holds : ∀ old, c.hosts.Holds old → d.hosts.Holds (old ++ refs)
  /-- Nobody had their addresses before. -/
  new : ∀ ref ∈ refs, c.hosts.created ≤ ref.address
  kept : ∀ a < c.hosts.created, d.hosts.cells.get? a = c.hosts.cells.get? a
  found : ∀ ref ∈ refs, ∃ bag, (ref.id, bag) ∈ actors ∧ d.hosts.find? ref = some bag

theorem enters_enter (actors : List (HostId × PropertyBag)) (c : Stage) :
    Enters c actors (enter actors c).1 (enter actors c).2 := by
  induction actors generalizing c with
  | nil => exact ⟨rfl, rfl, fun old h => by simpa [enter] using h, by simp [enter], by simp [enter],
      by simp [enter]⟩
  | cons actor actors ih =>
    obtain ⟨id, bag⟩ := actor
    obtain ⟨hstate, hids, hholds, hnew, hkept, hfound⟩ :=
      ih (c.setHosts (c.hosts.create id bag true).2)
    have hcells : ∀ a, (c.hosts.create id bag true).2.cells.get? a =
        if a = c.hosts.created then some ⟨bag, true⟩ else c.hosts.cells.get? a := fun a => by
      simp only [Hosts.create, Hosts.settle, Bool.true_or, ↓reduceIte, Slots.get?_put]
    refine ⟨hstate, ?_, fun old h => ?_, fun ref href => ?_, fun a ha => ?_, fun ref href => ?_⟩
    · show id :: _ = id :: _
      exact congrArg _ hids
    · have hall := hholds _ (h.create id bag)
      rw [List.append_assoc] at hall
      exact hall
    · rcases List.mem_cons.mp href with rfl | href
      · exact Nat.le_refl _
      · exact Nat.le_of_succ_le (hnew ref href)
    · exact ((hkept a (Nat.lt_succ_of_lt ha)).trans (hcells a)).trans (if_neg (Nat.ne_of_lt ha))
    · rcases List.mem_cons.mp href with rfl | href
      · refine ⟨bag, List.mem_cons_self, ?_⟩
        have hfirst := (hkept c.hosts.created (Nat.lt_succ_self _)).trans (hcells _)
        rw [if_pos rfl] at hfirst
        exact congrArg (Option.map HostCell.object) hfirst
      · obtain ⟨bag', hin, hfind⟩ := hfound ref href
        exact ⟨bag', List.mem_cons_of_mem _ hin, hfind⟩

/-- Whoever is asked for waits behind those who waited before. -/
theorem foldl_request (refs : List HostRef) (c : Stage) :
    ∃ queue, refs.foldl request c = { c with queue } ∧ (c.queue.Unbroken → queue.Unbroken) ∧
      queue.pending.toList.map Pending.mutation = c.waiting ++ refs.map .create := by
  induction refs generalizing c with
  | nil => exact ⟨c.queue, rfl, id, by simp [Coordinator.waiting]⟩
  | cons ref refs ih =>
    obtain ⟨queue, hstate, hqueue, hwaiting⟩ := ih (c.request ref)
    refine ⟨queue, hstate, fun h => hqueue (h.enqueue _), hwaiting.trans ?_⟩
    simp [Coordinator.waiting, request, Coordinator.enqueue, MutationQueue.enqueue,
      MutationQueue.claim, MutationQueue.push]

/-- Actors that are given up are gone. -/
theorem foldl_leave {rest refs : List HostRef} {c : Stage} (h : c.hosts.Holds (refs ++ rest)) :
    ∃ hosts, refs.foldl leave c = c.setHosts hosts ∧ hosts.Holds rest ∧
      hosts.created = c.hosts.created := by
  induction refs generalizing c with
  | nil => exact ⟨c.hosts, rfl, h, rfl⟩
  | cons ref refs ih =>
    obtain ⟨hone, hcreated⟩ := Hosts.Holds.release h
    obtain ⟨hosts, hstate, hrest, hcreated'⟩ := ih (c := c.leave ref) hone
    exact ⟨hosts, hstate, hrest, hcreated'.trans hcreated⟩

end Stage

end Tether
