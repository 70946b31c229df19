import Tether.Component
import Tether.Duration
import Tether.Entity.Lifecycle
import Tether.Host.Store

/-!
# Queued mutations

A `Mutation` is a structural change that is asked for now and made at the next flush. The
`MutationQueue` stamps each with a sequence number when it is submitted. A producer first
claims a number and then pushes its mutation, so with several producers the queue may hold a
number while a lower one is still on its way; `MutationQueue.drain` hands out the unbroken run
of numbers from where it last stopped, in order, and keeps the rest.
-/

namespace Tether

/-- A structural change to be made later. -/
inductive Mutation
  /-- Bind a host object. -/
  | create (host : HostRef)
  /-- Tear down an entity. -/
  | destroy (target : Target)
  | addComponent (handle : Handle) (component : ComponentId) (value : Value)
  | removeComponent (handle : Handle) (component : ComponentId)
  /-- Raise a named signal, after a delay if one is given. -/
  | signal (name : String) (entities : List Handle) (delay : Option Duration)
  deriving Inhabited

/-- Short name of a mutation. -/
def Mutation.name : Mutation → String
  | .create _ => "create"
  | .destroy _ => "destroy"
  | .addComponent .. => "add component"
  | .removeComponent .. => "remove component"
  | .signal .. => "signal"

/-- A mutation with its sequence number. -/
structure Pending where
  sequence : Nat
  mutation : Mutation
  deriving Inhabited

/-- Mutations that were submitted and not yet handed out. -/
structure MutationQueue where
  /-- In the order in which they were pushed. -/
  pending : Array Pending := #[]
  /-- The next number that a producer claims. -/
  sequence : Nat := 0
  /-- The next number that a drain may hand out. -/
  next : Nat := 0
  deriving Inhabited

namespace MutationQueue

/-- Claim a sequence number. -/
def claim (q : MutationQueue) : Nat × MutationQueue :=
  (q.sequence, { q with sequence := q.sequence + 1 })

/-- Push a mutation under a claimed number. -/
def push (q : MutationQueue) (p : Pending) : MutationQueue :=
  { q with pending := q.pending.push p }

/-- Submit a mutation. The answer is its sequence number. -/
def enqueue (q : MutationQueue) (mutation : Mutation) : Nat × MutationQueue :=
  let (sequence, q) := q.claim
  (sequence, q.push ⟨sequence, mutation⟩)

/-- The longest run of consecutive numbers that a sorted list starts with from `next` on, and
what comes after it. -/
def contiguous (next : Nat) : List Pending → List Pending × List Pending
  | [] => ([], [])
  | p :: rest =>
    if p.sequence = next then
      let (ready, held) := contiguous (next + 1) rest
      (p :: ready, held)
    else ([], p :: rest)

/-- Hand out the mutations whose turn it is, in order of submission. -/
def drain (q : MutationQueue) : List Pending × MutationQueue :=
  let sorted := q.pending.toList.mergeSort fun a b => a.sequence ≤ b.sequence
  let (ready, held) := contiguous q.next sorted
  (ready, { q with pending := held.toArray, next := q.next + ready.length })

/-- How many mutations wait. -/
def size (q : MutationQueue) : Nat := q.pending.size

theorem contiguous_append (next : Nat) (ps : List Pending) :
    (contiguous next ps).1 ++ (contiguous next ps).2 = ps := by
  induction ps generalizing next with
  | nil => rfl
  | cons p rest ih =>
    unfold contiguous
    split
    · simp [ih]
    · rfl

end MutationQueue

end Tether
