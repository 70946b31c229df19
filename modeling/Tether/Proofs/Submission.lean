import Mathlib.Data.List.Induction
import Mathlib.Data.List.Perm.Basic
import Tether.Mutation

/-!
# Mutations on their way through the queue

A producer submits a mutation in two steps : it claims the next sequence number, and pushes the
mutation under that number later on. A drain is many steps of the consumer : it pops until it
finds the queue empty, parts what it popped into the batch that it will return and the rest, and
pushes the rest back, one by one. `Exchange` is the queue with everybody in the middle of their
work, and a run (`Exchange.run`) takes the steps of producers and consumer in any order.

`Exchange.handedOut_run` says what the batches of a run are : taken together, the mutations
numbered from zero on in the order of their numbers, up to some number. How far a drain gets is
decided when it finds the queue empty : up to the lowest number that is claimed but not pushed
then. A drain that nobody interferes with is `MutationQueue.drain` (`Exchange.run_drainMoves`).
-/

namespace Tether

/-! ## The unbroken run of numbers -/

namespace MutationQueue

/-- Part what was popped into what may be handed out from a number on and what is held back. -/
def part (next : Nat) (seen : List Pending) : List Pending × List Pending :=
  contiguous next (seen.mergeSort fun a b => a.sequence ≤ b.sequence)

theorem drain_eq (q : MutationQueue) :
    q.drain =
      ((part q.next q.pending.toList).1,
        { q with
          pending := (part q.next q.pending.toList).2.toArray
          next := q.next + (part q.next q.pending.toList).1.length }) := rfl

theorem perm_part (next : Nat) (seen : List Pending) :
    ((part next seen).1 ++ (part next seen).2).Perm seen := by
  rw [part, contiguous_append]
  exact List.mergeSort_perm _ _

/-- What is handed out is numbered consecutively. -/
theorem sequence_contiguous {next : Nat} {ps : List Pending} {j : Nat}
    (hj : j < (contiguous next ps).1.length) :
    (contiguous next ps).1[j].sequence = next + j := by
  induction ps generalizing next j with
  | nil => simp [contiguous] at hj
  | cons p rest ih =>
    by_cases hp : p.sequence = next
    · have heq : contiguous next (p :: rest) =
          (p :: (contiguous (next + 1) rest).1, (contiguous (next + 1) rest).2) := by
        simp [contiguous, hp]
      simp only [heq] at hj ⊢
      cases j with
      | zero => exact hp
      | succ j =>
        rw [List.getElem_cons_succ, ih]
        omega
    · simp [contiguous, hp] at hj

/-- The number after the last one that is handed out is not there. -/
theorem contiguous_stop {next : Nat} {ps : List Pending}
    (hsorted : ps.Pairwise fun a b => a.sequence < b.sequence)
    (hle : ∀ p ∈ ps, next ≤ p.sequence) :
    ∀ p ∈ ps, p.sequence ≠ next + (contiguous next ps).1.length := by
  induction ps generalizing next with
  | nil => simp
  | cons p rest ih =>
    obtain ⟨hhead, hrest⟩ := List.pairwise_cons.mp hsorted
    have hp := hle p List.mem_cons_self
    by_cases heq : p.sequence = next
    · have hlater : ∀ q ∈ rest, next + 1 ≤ q.sequence := fun q hq => by
        have := hhead q hq
        omega
      have hstop := ih hrest hlater
      simp only [contiguous, heq, ↓reduceIte, List.length_cons]
      intro q hq
      rcases List.mem_cons.mp hq with rfl | hq
      · omega
      · have := hstop q hq
        omega
    · simp only [contiguous, heq, ↓reduceIte, List.length_nil]
      intro q hq
      rcases List.mem_cons.mp hq with rfl | hq
      · omega
      · have := hhead q hq
        omega

end MutationQueue

/-! ## Producers and consumer -/

/-- How far the consumer is in a drain. -/
inductive Consumer
  /-- No drain is going on. -/
  | idle
  /-- It pops, and has popped these so far. -/
  | popping (seen : List Pending)
  /-- It pushes back what is held, and will return the batch. -/
  | returning (held batch : List Pending)

/-- What the consumer has in its hands. -/
def Consumer.carried : Consumer → List Pending
  | .idle => []
  | .popping seen => seen
  | .returning held batch => batch ++ held

/-- The queue between producers and the consumer, with all that happened. -/
structure Exchange (π : Type) where
  queue : MutationQueue := {}
  /-- Who submitted what, in order of the claimed numbers. -/
  submitted : List (π × Mutation) := []
  /-- What is claimed and not yet pushed. -/
  outstanding : List Pending := []
  consumer : Consumer := .idle
  /-- What the drains returned so far. -/
  batches : List (List Pending) := []

/-- One step of a producer or of the consumer. -/
inductive Move (π : Type)
  /-- A producer claims a number for a mutation. -/
  | claim (producer : π) (mutation : Mutation)
  /-- One of the outstanding mutations is pushed. -/
  | push (i : Nat)
  /-- A drain begins. -/
  | start
  | pop
  /-- The queue is found empty, and what was popped is parted. -/
  | part
  /-- One of the mutations that are held goes back to the queue. -/
  | putBack
  /-- The drain returns its batch. -/
  | finish

/-- What is submitted by a step, and by whom. -/
def Move.claim? {π : Type} : Move π → Option (π × Mutation)
  | .claim producer mutation => some (producer, mutation)
  | _ => none

namespace Exchange

variable {π : Type}

/-- What a step pushes for a producer. -/
def push? (s : Exchange π) : Move π → Option Pending
  | .push i => s.outstanding[i]?
  | _ => none

/-- The state after a step. A step that is impossible changes nothing. -/
def move (s : Exchange π) : Move π → Exchange π
  | .claim producer mutation =>
    let (sequence, queue) := s.queue.claim
    { s with
      queue
      submitted := s.submitted ++ [(producer, mutation)]
      outstanding := s.outstanding ++ [⟨sequence, mutation⟩] }
  | .push i =>
    match s.outstanding[i]? with
    | some p =>
      { s with queue := s.queue.push p, outstanding := s.outstanding.eraseIdx i }
    | none => s
  | .start =>
    match s.consumer with
    | .idle => { s with consumer := .popping [] }
    | _ => s
  | .pop =>
    match s.consumer, s.queue.pending.toList with
    | .popping seen, p :: rest =>
      { s with
        queue := { s.queue with pending := rest.toArray }
        consumer := .popping (seen ++ [p]) }
    | _, _ => s
  | .part =>
    match s.consumer, s.queue.pending.toList with
    | .popping seen, [] =>
      let (batch, held) := MutationQueue.part s.queue.next seen
      { s with consumer := .returning held batch }
    | _, _ => s
  | .putBack =>
    match s.consumer with
    | .returning (p :: held) batch =>
      { s with queue := s.queue.push p, consumer := .returning held batch }
    | _ => s
  | .finish =>
    match s.consumer with
    | .returning [] batch =>
      { s with
        queue := { s.queue with next := s.queue.next + batch.length }
        consumer := .idle
        batches := s.batches ++ [batch] }
    | _ => s

/-- The state after steps in a given order. -/
def run (s : Exchange π) (ms : List (Move π)) : Exchange π := ms.foldl move s

theorem run_append (s : Exchange π) (ms ns : List (Move π)) :
    s.run (ms ++ ns) = (s.run ms).run ns :=
  List.foldl_append

/-- All that the producers push in the course of steps. -/
def pushed : Exchange π → List (Move π) → List Pending
  | _, [] => []
  | s, m :: ms => (s.push? m).toList ++ (s.move m).pushed ms

/-- All that was submitted, each mutation with its number. -/
def stamped (s : Exchange π) : List Pending :=
  s.submitted.mapIdx fun i x => ⟨i, x.2⟩

/-- What a producer submitted, in its order. -/
def submittedBy [DecidableEq π] (s : Exchange π) (producer : π) : List Mutation :=
  (s.submitted.filter fun x => x.1 = producer).map Prod.snd

/-- What of a list of mutations a producer submitted. -/
def ofProducer [DecidableEq π] (s : Exchange π) (producer : π) (ps : List Pending) :
    List Mutation :=
  (ps.filter fun p => (s.submitted[p.sequence]?).map Prod.fst = some producer).map
    Pending.mutation

/-! ## What holds all the time -/

/-- Every submitted mutation is in one place : handed out, in the order of the numbers, or in the
queue, with the consumer, or with its producer. -/
structure Orderly (s : Exchange π) : Prop where
  counted : s.queue.sequence = s.submitted.length
  next_le : s.queue.next ≤ s.submitted.length
  handed : s.batches.flatten = s.stamped.take s.queue.next
  placed : (s.queue.pending.toList ++ s.consumer.carried ++ s.outstanding).Perm
    (s.stamped.drop s.queue.next)
  batch : ∀ {held batch}, s.consumer = .returning held batch →
    batch <+: s.stamped.drop s.queue.next

theorem length_stamped (s : Exchange π) : s.stamped.length = s.submitted.length :=
  List.length_mapIdx

theorem orderly_empty : Orderly ({} : Exchange π) := by
  refine ⟨rfl, Nat.le_refl _, rfl, List.Perm.refl _, fun h => ?_⟩
  cases h

/-- A mutation that waits has the place of its number. -/
theorem getElem_stamped_of_mem {s : Exchange π} {p : Pending} (hp : p ∈ s.stamped) :
    s.stamped[p.sequence]? = some p := by
  obtain ⟨i, hi, rfl⟩ := List.mem_iff_getElem.mp hp
  simp only [stamped, List.getElem_mapIdx, List.getElem?_mapIdx]
  rw [length_stamped] at hi
  rw [List.getElem?_eq_getElem hi]
  rfl

theorem pairwise_stamped (s : Exchange π) :
    s.stamped.Pairwise fun a b => a.sequence < b.sequence := by
  rw [List.pairwise_iff_getElem]
  intro i j hi hj hij
  simpa only [stamped, List.getElem_mapIdx] using hij

/-- What is not handed out is numbered from the next number on. -/
theorem le_of_mem_drop {s : Exchange π} {k : Nat} {p : Pending} (hp : p ∈ s.stamped.drop k) :
    k ≤ p.sequence := by
  obtain ⟨i, hi, rfl⟩ := List.mem_iff_getElem.mp hp
  simp only [stamped, List.getElem_drop, List.getElem_mapIdx]
  omega

/-- Every number from the next one on that is claimed has its mutation. -/
theorem exists_mem_drop {s : Exchange π} {k i : Nat} (hk : k ≤ i)
    (hi : i < s.submitted.length) : ∃ p ∈ s.stamped.drop k, p.sequence = i := by
  rw [← length_stamped] at hi
  refine ⟨s.stamped[i], List.mem_iff_getElem.mpr ⟨i - k, by simp; omega, ?_⟩, ?_⟩
  · rw [List.getElem_drop]
    congr 1
    omega
  · simp [stamped]

section Parting

variable {s : Exchange π} {seen : List Pending}

/-- What the consumer popped, sorted. -/
theorem pairwise_sorted (hnd : seen.Pairwise fun a b => a.sequence ≠ b.sequence) :
    (seen.mergeSort fun a b => a.sequence ≤ b.sequence).Pairwise
      fun a b => a.sequence < b.sequence := by
  have hle : (seen.mergeSort fun a b => a.sequence ≤ b.sequence).Pairwise
      fun a b => a.sequence ≤ b.sequence := by
    have := @List.pairwise_mergeSort _ (fun a b : Pending => decide (a.sequence ≤ b.sequence))
      (fun a b c hab hbc => by simp only [decide_eq_true_eq] at *; omega)
      (fun a b => by simp only [Bool.or_eq_true, decide_eq_true_eq]; omega) seen
    simpa only [decide_eq_true_eq] using this
  have hne := (List.Perm.pairwise_iff (fun h => Ne.symm h)
    (List.mergeSort_perm seen fun a b => a.sequence ≤ b.sequence)).mpr hnd
  exact hle.imp₂ (fun a b hab hne => Nat.lt_of_le_of_ne hab hne) hne

/-- A batch is what comes next in the order of submission. -/
theorem prefix_part (hseen : ∀ p ∈ seen, p ∈ s.stamped.drop s.queue.next) :
    (MutationQueue.part s.queue.next seen).1 <+: s.stamped.drop s.queue.next := by
  rw [List.prefix_iff_getElem?]
  intro j hj
  have hseq := MutationQueue.sequence_contiguous hj
  have hmem : (MutationQueue.part s.queue.next seen).1[j] ∈ seen :=
    (MutationQueue.perm_part s.queue.next seen).subset
      (List.mem_append_left _ (List.getElem_mem hj))
  have hget := getElem_stamped_of_mem (List.mem_of_mem_drop (hseen _ hmem))
  rw [List.getElem?_drop, ← hget]
  exact congrArg _ hseq.symm

end Parting

section Orderly

variable {s : Exchange π} (hs : s.Orderly)
include hs

theorem Orderly.distinct :
    (s.queue.pending.toList ++ s.consumer.carried ++ s.outstanding).Pairwise
      fun a b => a.sequence ≠ b.sequence := by
  refine (List.Perm.pairwise_iff (fun h => Ne.symm h) hs.placed).mpr ?_
  exact (s.pairwise_stamped.sublist (List.drop_sublist _ _)).imp fun h => Nat.ne_of_lt h

omit hs in
theorem stamped_claim (s : Exchange π) (producer : π) (mutation : Mutation) :
    (s.move (.claim producer mutation)).stamped =
      s.stamped ++ [⟨s.submitted.length, mutation⟩] := by
  simp only [stamped, move]
  exact List.mapIdx_concat

theorem Orderly.claim (producer : π) (mutation : Mutation) :
    (s.move (.claim producer mutation)).Orderly := by
  have hstamped := s.stamped_claim producer mutation
  have hle : s.queue.next ≤ s.stamped.length := s.length_stamped ▸ hs.next_le
  refine ⟨?_, ?_, ?_, ?_, fun h => ?_⟩
  · simp [move, MutationQueue.claim, hs.counted]
  · simp only [move, MutationQueue.claim, List.length_append]
    exact Nat.le_trans hs.next_le (Nat.le_add_right _ _)
  · rw [hstamped]
    simp only [move, MutationQueue.claim]
    rw [List.take_append_of_le_length hle]
    exact hs.handed
  · rw [hstamped]
    simp only [move, MutationQueue.claim]
    rw [List.drop_append_of_le_length hle, hs.counted, ← List.append_assoc]
    exact hs.placed.append_right _
  · rw [hstamped]
    simp only [move, MutationQueue.claim] at h ⊢
    rw [List.drop_append_of_le_length hle]
    exact (hs.batch h).trans (List.prefix_append _ _)

theorem Orderly.push (i : Nat) : (s.move (.push i)).Orderly := by
  cases hi : s.outstanding[i]? with
  | none => simpa only [move, hi] using hs
  | some p =>
    obtain ⟨hlt, rfl⟩ := List.getElem?_eq_some_iff.mp hi
    have hmove : s.move (.push i) = { s with
        queue := s.queue.push s.outstanding[i]
        outstanding := s.outstanding.eraseIdx i } := by
      simp only [move, hi]
    rw [hmove]
    refine ⟨hs.counted, hs.next_le, hs.handed, ?_, hs.batch⟩
    have hout := List.getElem_cons_eraseIdx_perm hlt
    refine List.Perm.trans ?_ hs.placed
    simp only [MutationQueue.push, Array.toList_push, List.append_assoc]
    refine List.Perm.append_left _ ?_
    simp only [List.singleton_append]
    exact List.perm_middle.symm.trans (hout.append_left _)

theorem Orderly.start : (s.move .start).Orderly := by
  cases hc : s.consumer with
  | idle =>
    have hplaced := hs.placed
    simp only [hc, Consumer.carried] at hplaced
    simp only [move, hc]
    exact ⟨hs.counted, hs.next_le, hs.handed, hplaced, fun h => nomatch h⟩
  | popping seen => simpa only [move, hc] using hs
  | returning held batch => simpa only [move, hc] using hs

theorem Orderly.pop : (s.move .pop).Orderly := by
  cases hc : s.consumer with
  | idle => simpa only [move, hc] using hs
  | returning held batch => simpa only [move, hc] using hs
  | popping seen =>
    cases hp : s.queue.pending.toList with
    | nil => simpa only [move, hc, hp] using hs
    | cons p rest =>
      have hplaced := hs.placed
      simp only [hc, hp, Consumer.carried] at hplaced
      simp only [move, hc, hp]
      refine ⟨hs.counted, hs.next_le, hs.handed, ?_, fun h => nomatch h⟩
      refine List.Perm.trans ?_ hplaced
      simp only [Consumer.carried, List.append_assoc, List.cons_append, List.nil_append]
      rw [← List.append_assoc]
      exact List.perm_middle.trans (by rw [List.append_assoc])

theorem Orderly.part : (s.move .part).Orderly := by
  cases hc : s.consumer with
  | idle => simpa only [move, hc] using hs
  | returning held batch => simpa only [move, hc] using hs
  | popping seen =>
    cases hp : s.queue.pending.toList with
    | cons p rest => simpa only [move, hc, hp] using hs
    | nil =>
      have hplaced := hs.placed
      simp only [hc, hp, Consumer.carried, List.nil_append] at hplaced
      simp only [move, hc, hp]
      refine ⟨hs.counted, hs.next_le, hs.handed, ?_, fun h => ?_⟩
      · refine List.Perm.trans ?_ hplaced
        simp only [hp, Consumer.carried, List.nil_append]
        exact (MutationQueue.perm_part s.queue.next seen).append_right _
      · obtain ⟨rfl, rfl⟩ := Consumer.returning.inj h
        exact prefix_part fun p hp => hplaced.subset (List.mem_append_left _ hp)

theorem Orderly.putBack : (s.move .putBack).Orderly := by
  cases hc : s.consumer with
  | idle => simpa only [move, hc] using hs
  | popping seen => simpa only [move, hc] using hs
  | returning held batch =>
    cases held with
    | nil => simpa only [move, hc] using hs
    | cons p held =>
      have hplaced := hs.placed
      simp only [hc, Consumer.carried] at hplaced
      simp only [move, hc]
      refine ⟨hs.counted, hs.next_le, hs.handed, ?_, fun h => ?_⟩
      · refine List.Perm.trans ?_ hplaced
        simp only [MutationQueue.push, Array.toList_push, Consumer.carried, List.append_assoc]
        refine List.Perm.append_left _ ?_
        simp only [List.cons_append, List.nil_append]
        exact List.perm_middle.symm
      · obtain ⟨rfl, rfl⟩ := Consumer.returning.inj h
        exact hs.batch hc

theorem Orderly.finish : (s.move .finish).Orderly := by
  cases hc : s.consumer with
  | idle => simpa only [move, hc] using hs
  | popping seen => simpa only [move, hc] using hs
  | returning held batch =>
    cases held with
    | cons p held => simpa only [move, hc] using hs
    | nil =>
      obtain ⟨later, hlater⟩ := hs.batch hc
      have hplaced := hs.placed
      simp only [hc, Consumer.carried, List.append_nil] at hplaced
      have hdrop : s.stamped.drop (s.queue.next + batch.length) = later := by
        rw [← List.drop_drop, ← hlater, List.drop_left]
      have hlen := congrArg List.length hlater
      rw [List.length_append, List.length_drop, length_stamped] at hlen
      have hle := hs.next_le
      simp only [move, hc]
      refine ⟨hs.counted, ?_, ?_, ?_, fun h => nomatch h⟩
      · show s.queue.next + batch.length ≤ s.submitted.length
        omega
      · show (s.batches ++ [batch]).flatten = s.stamped.take (s.queue.next + batch.length)
        rw [List.take_add, ← hlater, List.take_left, ← hs.handed]
        simp
      · show (s.queue.pending.toList ++ [] ++ s.outstanding).Perm
          (s.stamped.drop (s.queue.next + batch.length))
        rw [hdrop, List.append_nil]
        rw [← hlater] at hplaced
        -- the batch stands on both sides
        refine (List.perm_append_left_iff batch).mp (List.Perm.trans ?_ hplaced)
        rw [← List.append_assoc]
        exact (List.perm_append_comm).append_right _

theorem Orderly.move (m : Move π) : (s.move m).Orderly := by
  cases m with
  | claim producer mutation => exact hs.claim producer mutation
  | push i => exact hs.push i
  | start => exact hs.start
  | pop => exact hs.pop
  | part => exact hs.part
  | putBack => exact hs.putBack
  | finish => exact hs.finish

end Orderly

theorem Orderly.run {s : Exchange π} (hs : s.Orderly) (ms : List (Move π)) :
    (s.run ms).Orderly := by
  induction ms generalizing s with
  | nil => exact hs
  | cons m ms ih => exact ih (hs.move m)

/-! ## How far a drain gets -/

/-- When the consumer finds the queue empty, what it hands out reaches up to the first number that
is claimed and not pushed. -/
theorem Orderly.lt_part_iff {s : Exchange π} (hs : s.Orderly) {seen : List Pending}
    (hc : s.consumer = .popping seen) (hempty : s.queue.pending.toList = []) {i : Nat}
    (hi : i < s.submitted.length) :
    i < s.queue.next + (MutationQueue.part s.queue.next seen).1.length ↔
      ∀ p ∈ s.outstanding, i < p.sequence := by
  have hplaced := hs.placed
  have hdistinct := hs.distinct
  simp only [hc, hempty, Consumer.carried, List.nil_append] at hplaced hdistinct
  obtain ⟨hnd, -, hapart⟩ := List.pairwise_append.mp hdistinct
  have hparted := MutationQueue.perm_part s.queue.next seen
  constructor
  · intro hlt p hp
    have hle := le_of_mem_drop (hplaced.subset (List.mem_append_right _ hp))
    -- a lower number would be in the batch, and so with the consumer
    refine Nat.lt_of_lt_of_le hlt (Nat.le_of_not_lt fun hin => ?_)
    have hj : p.sequence - s.queue.next < (MutationQueue.part s.queue.next seen).1.length := by
      omega
    have hmem := hparted.subset (List.mem_append_left _ (List.getElem_mem hj))
    refine hapart _ hmem p hp ?_
    rw [show (MutationQueue.part s.queue.next seen).1[p.sequence - s.queue.next].sequence = _ from
      MutationQueue.sequence_contiguous hj]
    omega
  · intro hall
    refine Nat.lt_of_not_le fun hge => ?_
    obtain ⟨p, hp, hseq⟩ := exists_mem_drop (s := s) (Nat.le_add_right s.queue.next
      (MutationQueue.part s.queue.next seen).1.length) (Nat.lt_of_le_of_lt hge hi)
    rcases List.mem_append.mp (hplaced.mem_iff.mpr hp) with hseen | hout
    · -- the consumer would have gone on with it
      have hsorted := List.mergeSort_perm seen fun a b => a.sequence ≤ b.sequence
      refine MutationQueue.contiguous_stop (pairwise_sorted hnd) (fun q hq => ?_) p
        (hsorted.mem_iff.mpr hseen) hseq
      exact le_of_mem_drop (hplaced.subset (List.mem_append_left _ (hsorted.mem_iff.mp hq)))
    · have := hall p hout
      omega

theorem batches_move (s : Exchange π) (m : Move π) : s.batches <+: (s.move m).batches := by
  cases m with
  | claim producer mutation => exact List.prefix_refl _
  | push i | start | pop | part | putBack =>
    unfold move
    dsimp only
    split <;> exact List.prefix_refl _
  | finish =>
    unfold move
    dsimp only
    split
    · exact List.prefix_append _ _
    · exact List.prefix_refl _

theorem batches_run (s : Exchange π) (ms : List (Move π)) : s.batches <+: (s.run ms).batches := by
  induction ms generalizing s with
  | nil => exact List.prefix_refl _
  | cons m ms ih => exact (s.batches_move m).trans (ih _)

/-- A batch that is going to be returned stays until it is. -/
theorem move_of_returning {s : Exchange π} {held batch : List Pending}
    (hc : s.consumer = .returning held batch) (m : Move π) :
    ((∃ held, (s.move m).consumer = .returning held batch) ∧ (s.move m).batches = s.batches) ∨
      (s.move m).batches = s.batches ++ [batch] := by
  cases m with
  | claim producer mutation => exact .inl ⟨⟨held, hc⟩, rfl⟩
  | push i =>
    unfold move
    dsimp only
    split <;> exact .inl ⟨⟨held, hc⟩, rfl⟩
  | start | pop | part => exact .inl ⟨⟨held, by simp [move, hc]⟩, by simp [move, hc]⟩
  | putBack =>
    cases held with
    | nil => exact .inl ⟨⟨[], by simp [move, hc]⟩, by simp [move, hc]⟩
    | cons p held => exact .inl ⟨⟨held, by simp [move, hc]⟩, by simp [move, hc]⟩
  | finish =>
    cases held with
    | nil => exact .inr (by simp [move, hc])
    | cons p held => exact .inl ⟨⟨p :: held, by simp [move, hc]⟩, by simp [move, hc]⟩

/-- The next batch that is returned is the one that was parted. -/
theorem batches_of_returning {s : Exchange π} {held batch : List Pending}
    (hc : s.consumer = .returning held batch) (ms : List (Move π)) :
    (s.run ms).batches = s.batches ∨ s.batches ++ [batch] <+: (s.run ms).batches := by
  induction ms generalizing s held with
  | nil => exact .inl rfl
  | cons m ms ih =>
    rcases move_of_returning hc m with ⟨⟨held', hheld⟩, hbatches⟩ | hbatches
    · rw [← hbatches]
      exact ih hheld
    · rw [← hbatches]
      exact .inr (batches_run _ ms)

theorem eq_of_returning {s : Exchange π} {held batch next : List Pending} {ms : List (Move π)}
    (hc : s.consumer = .returning held batch) (hnext : s.batches ++ [next] <+: (s.run ms).batches) :
    next = batch := by
  rcases batches_of_returning hc ms with hnone | hbatch
  · rw [hnone] at hnext
    have hlen := hnext.length_le
    rw [List.length_append, List.length_singleton] at hlen
    omega
  · have hboth := List.prefix_of_prefix_length_le hnext hbatch (by simp)
    simpa using hboth.eq_of_length (by simp)

/-! ## A drain with nobody in between -/

/-- The steps of a drain. -/
def drainMoves (q : MutationQueue) : List (Move π) :=
  .start :: (List.replicate q.size .pop ++ .part ::
    (List.replicate q.drain.2.size .putBack ++ [.finish]))

theorem run_pops (s : Exchange π) {seen : List Pending} (hc : s.consumer = .popping seen) :
    s.run (List.replicate s.queue.size .pop) =
      { s with
        queue := { s.queue with pending := #[] }
        consumer := .popping (seen ++ s.queue.pending.toList) } := by
  obtain ⟨⟨⟨pending⟩, sequence, next⟩, submitted, outstanding, consumer, batches⟩ := s
  obtain rfl : consumer = .popping seen := hc
  show run _ (List.replicate pending.length .pop) = _
  induction pending generalizing seen with
  | nil => simp [run]
  | cons p rest ih =>
    have hrest := @ih (seen ++ [p])
    simp only [List.append_assoc, List.singleton_append] at hrest
    exact hrest

theorem run_putBacks (s : Exchange π) {held batch : List Pending}
    (hc : s.consumer = .returning held batch) :
    s.run (List.replicate held.length .putBack) =
      { s with
        queue := { s.queue with pending := s.queue.pending ++ held.toArray }
        consumer := .returning [] batch } := by
  obtain ⟨queue, submitted, outstanding, consumer, batches⟩ := s
  obtain rfl : consumer = .returning held batch := hc
  induction held generalizing queue with
  | nil => simp [run]
  | cons p held ih =>
    have hrest := ih (queue.push p)
    simp only [MutationQueue.push] at hrest
    refine hrest.trans ?_
    simp

theorem move_start {s : Exchange π} (hc : s.consumer = .idle) :
    s.move .start = { s with consumer := .popping [] } := by
  unfold move
  rw [hc]

theorem move_part {s : Exchange π} {seen : List Pending} (hc : s.consumer = .popping seen)
    (hempty : s.queue.pending.toList = []) :
    s.move .part =
      { s with
        consumer := .returning (MutationQueue.part s.queue.next seen).2
          (MutationQueue.part s.queue.next seen).1 } := by
  simp only [move, hc, hempty]

/-- A drain that nobody interferes with. -/
theorem run_drainMoves (s : Exchange π) (hc : s.consumer = .idle) :
    s.run (drainMoves s.queue) =
      { s with queue := s.queue.drain.2, batches := s.batches ++ [s.queue.drain.1] } := by
  obtain ⟨queue, submitted, outstanding, consumer, batches⟩ := s
  obtain rfl : consumer = .idle := hc
  have hpops := run_pops (π := π) ⟨queue, submitted, outstanding, .popping [], batches⟩ rfl
  have hpart := move_part (π := π) (s := ⟨{ queue with pending := #[] }, submitted, outstanding,
    .popping queue.pending.toList, batches⟩) rfl rfl
  rw [MutationQueue.drain_eq]
  generalize hr : MutationQueue.part queue.next queue.pending.toList = r at hpart
  obtain ⟨batch, held⟩ := r
  have hbacks := run_putBacks (π := π) ⟨{ queue with pending := #[] }, submitted, outstanding,
    .returning held batch, batches⟩ rfl
  simp only [List.nil_append, Array.empty_append] at hpops hbacks
  have hsize : queue.drain.2.size = held.length := by
    rw [MutationQueue.drain_eq, hr]
    simp [MutationQueue.size]
  calc run _ (drainMoves queue)
      = (run ⟨queue, submitted, outstanding, .popping [], batches⟩
          (List.replicate queue.size .pop)).run
          (.part :: (List.replicate held.length .putBack ++ [.finish])) := by
        rw [drainMoves, hsize, ← run_append]
        rfl
    _ = (run ⟨{ queue with pending := #[] }, submitted, outstanding, .returning held batch, batches⟩
          (List.replicate held.length .putBack)).run [.finish] := by
        rw [hpops, ← run_append]
        exact congrArg (run · _) hpart
    _ = _ := by
        rw [hbacks]
        rfl

/-! ## Runs -/

theorem submitted_move (s : Exchange π) (m : Move π) :
    (s.move m).submitted = s.submitted ++ m.claim?.toList := by
  cases m with
  | claim producer mutation => rfl
  | push i | start | pop | part | putBack | finish =>
    unfold move
    dsimp only
    split <;> exact (List.append_nil _).symm

/-- Submitted is what the claims of a run are for. -/
theorem submitted_run (s : Exchange π) (ms : List (Move π)) :
    (s.run ms).submitted = s.submitted ++ ms.filterMap Move.claim? := by
  induction ms generalizing s with
  | nil => exact (List.append_nil _).symm
  | cons m ms ih =>
    refine (ih (s.move m)).trans ?_
    rw [submitted_move, List.append_assoc]
    cases hm : m.claim? with
    | none => rw [List.filterMap_cons_none hm]; rfl
    | some x => rw [List.filterMap_cons_some hm]; rfl

/-- A step claims and pushes, and what is outstanding after it was so before or is claimed. -/
theorem outstanding_move {s : Exchange π} (hs : s.Orderly) (m : Move π) :
    ∃ added, (s.move m).stamped = s.stamped ++ added ∧
      ((s.push? m).toList ++ (s.move m).outstanding).Perm (s.outstanding ++ added) := by
  have hnone {t : Exchange π} (h : t.stamped = s.stamped ∧ t.outstanding = s.outstanding) :
      ∃ added, t.stamped = s.stamped ++ added ∧ t.outstanding.Perm (s.outstanding ++ added) :=
    ⟨[], by rw [h.1, List.append_nil], by rw [h.2, List.append_nil]⟩
  cases m with
  | claim producer mutation =>
    refine ⟨[⟨s.submitted.length, mutation⟩], s.stamped_claim producer mutation, ?_⟩
    rw [← hs.counted]
    exact List.Perm.refl _
  | push i =>
    cases hi : s.outstanding[i]? with
    | none =>
      have hpush : s.push? (.push i) = none := hi
      simp only [move, hi, hpush]
      exact hnone ⟨rfl, rfl⟩
    | some p =>
      obtain ⟨hlt, rfl⟩ := List.getElem?_eq_some_iff.mp hi
      have hpush : s.push? (.push i) = some s.outstanding[i] := hi
      refine ⟨[], ?_, ?_⟩
      · simp only [move, hi, List.append_nil]
        rfl
      · simp only [move, hi, hpush, List.append_nil]
        exact List.getElem_cons_eraseIdx_perm hlt
  | start | pop | part | putBack | finish =>
    refine hnone ?_
    unfold move
    dsimp only
    split <;> exact ⟨rfl, rfl⟩

/-- Outstanding is what was claimed and not pushed. -/
theorem outstanding_run {s : Exchange π} (hs : s.Orderly) (ms : List (Move π)) :
    ∃ added, (s.run ms).stamped = s.stamped ++ added ∧
      (s.pushed ms ++ (s.run ms).outstanding).Perm (s.outstanding ++ added) := by
  induction ms generalizing s with
  | nil => exact ⟨[], (List.append_nil _).symm, by rw [List.append_nil]; rfl⟩
  | cons m ms ih =>
    obtain ⟨added, hstamped, hone⟩ := outstanding_move hs m
    obtain ⟨added', hstamped', hrest⟩ := ih (hs.move m)
    refine ⟨added ++ added', ?_, ?_⟩
    · rw [← List.append_assoc, ← hstamped]
      exact hstamped'
    · rw [pushed, List.append_assoc, ← List.append_assoc s.outstanding]
      refine (hrest.append_left _).trans ?_
      rw [← List.append_assoc]
      exact hone.append_right _

theorem ofProducer_take [DecidableEq π] (s : Exchange π) (producer : π) (k : Nat) :
    s.ofProducer producer (s.stamped.take k) =
      ((s.submitted.take k).filter fun x => x.1 = producer).map Prod.snd := by
  induction k with
  | zero => rfl
  | succ k ih =>
    rw [List.take_add_one, List.take_add_one, ofProducer, List.filter_append, List.map_append,
      List.filter_append, List.map_append, ← ih, ofProducer]
    refine congrArg _ ?_
    simp only [stamped, List.getElem?_mapIdx]
    cases hk : s.submitted[k]? with
    | none => rfl
    | some x =>
      by_cases hx : x.1 = producer
      · simp [hk, hx]
      · simp [hk, hx]

/-- When nothing is outstanding, a drain hands out all that waits. -/
theorem Orderly.drain_all {s : Exchange π} (hs : s.Orderly) (hc : s.consumer = .idle)
    (hout : s.outstanding = []) :
    s.queue.drain = (s.stamped.drop s.queue.next,
      { pending := #[], sequence := s.submitted.length, next := s.submitted.length }) := by
  -- the same numbers wait when the consumer has popped them all
  have hpopped := hs.start.run (List.replicate s.queue.size .pop)
  rw [move_start hc, run_pops _ rfl, List.nil_append] at hpopped
  have hparted := MutationQueue.perm_part s.queue.next s.queue.pending.toList
  have hplaced := hs.placed
  simp only [hc, hout, Consumer.carried, List.append_nil] at hplaced
  have hlen := (hparted.trans hplaced).length_eq
  rw [List.length_append, List.length_drop, length_stamped] at hlen
  have hle := hs.next_le
  -- the batch reaches as far as there are numbers
  have hall : (MutationQueue.part s.queue.next s.queue.pending.toList).2 = [] := by
    refine List.eq_nil_of_length_eq_zero (Nat.eq_zero_of_not_pos fun hpos => ?_)
    have hlt := (hpopped.lt_part_iff rfl rfl (i := s.queue.next +
      (MutationQueue.part s.queue.next s.queue.pending.toList).1.length) (by
        show _ < s.submitted.length
        omega)).mpr (by simp [hout])
    exact Nat.lt_irrefl _ hlt
  rw [hall, List.length_nil, Nat.add_zero] at hlen
  have hfront := prefix_part (s := s) fun p hp => hplaced.subset hp
  rw [MutationQueue.drain_eq, hall]
  refine Prod.ext (hfront.eq_of_length ?_) ?_
  · rw [List.length_drop, length_stamped, hlen]
  · rw [← hs.counted]
    show MutationQueue.mk _ _ _ = MutationQueue.mk _ _ _
    rw [hlen, Nat.add_sub_cancel' hle, hs.counted]

/-- Whatever the order in which producers claim and push and the consumer drains :

* submitted is what was claimed, and of that is outstanding what was not pushed;
* the batches, one after another, are the mutations numbered from zero on, each once and in the
  order of the numbers, up to some number,
* so every producer's mutations are handed out in its order;
* nothing is handed out from an outstanding number on, and what is not handed out is in the
  queue, once, or with its producer;
* the batch of a drain reaches up to the lowest number that is outstanding when the consumer finds
  the queue empty;
* a drain with nobody in between is `MutationQueue.drain`, and if nothing is outstanding it
  returns all that waits and leaves the queue empty.

Sequence numbers are not bounded here : they are not claimed twice as long as they last. -/
theorem handedOut_run [DecidableEq π] (ms : List (Move π)) :
    let s := run {} ms
    (s.submitted = ms.filterMap Move.claim? ∧ (pushed {} ms ++ s.outstanding).Perm s.stamped) ∧
      (s.batches.flatten = s.stamped.take s.queue.next ∧ s.queue.next ≤ s.submitted.length) ∧
      (∀ producer, s.ofProducer producer s.batches.flatten <+: s.submittedBy producer) ∧
      (∀ p ∈ s.outstanding, s.queue.next ≤ p.sequence) ∧
      (s.consumer = .idle →
        (s.queue.pending.toList ++ s.outstanding).Perm (s.stamped.drop s.queue.next)) ∧
      (∀ seen, s.consumer = .popping seen → s.queue.pending = #[] →
        ∀ after batch, s.batches ++ [batch] <+: (s.run (.part :: after)).batches →
          ∀ i < s.submitted.length,
            i < s.queue.next + batch.length ↔ ∀ p ∈ s.outstanding, i < p.sequence) ∧
      (s.consumer = .idle → s.run (drainMoves s.queue) =
        { s with queue := s.queue.drain.2, batches := s.batches ++ [s.queue.drain.1] }) ∧
      (s.consumer = .idle → s.outstanding = [] → s.queue.drain = (s.stamped.drop s.queue.next,
        { pending := #[], sequence := s.submitted.length, next := s.submitted.length })) := by
  intro s
  have hs : s.Orderly := orderly_empty.run ms
  obtain ⟨added, hstamped, hpushed⟩ := outstanding_run orderly_empty ms
  have hadded : s.stamped = added := hstamped
  refine ⟨⟨submitted_run {} ms, hadded ▸ hpushed⟩, ⟨hs.handed, hs.next_le⟩, fun producer => ?_,
    fun p hp => ?_, fun hc => ?_, fun seen hc hempty after batch hbatch i hi => ?_,
    s.run_drainMoves, hs.drain_all⟩
  · rw [hs.handed, ofProducer_take, submittedBy]
    exact ((List.take_prefix _ _).filter _).map _
  · exact le_of_mem_drop (hs.placed.subset (List.mem_append_right _ hp))
  · simpa [hc, Consumer.carried] using hs.placed
  · have hnil : s.queue.pending.toList = [] := by rw [hempty]
    have hparted : (s.move .part).consumer = .returning (MutationQueue.part s.queue.next seen).2
        (MutationQueue.part s.queue.next seen).1 := by rw [move_part hc hnil]
    have hsame : (s.move .part).batches = s.batches := by rw [move_part hc hnil]
    rw [← hsame] at hbatch
    change _ <+: ((s.move .part).run after).batches at hbatch
    rw [eq_of_returning hparted hbatch]
    exact hs.lt_part_iff hc hnil hi

/-- A number that is claimed and pushed late holds back a later one of another producer. -/
example : ((run {} [.claim true (.destroy (.host ⟨1⟩)), .claim false (.destroy (.host ⟨2⟩)),
    .push 1, .start, .pop, .part, .push 0, .putBack, .finish,
    .start, .pop, .pop, .part, .finish] :
      Exchange Bool).batches.map fun batch => batch.map Pending.sequence) = [[], [0, 1]] := by
  cbv

end Exchange

end Tether
