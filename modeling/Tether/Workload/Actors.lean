import Tether.Coordinator.Step
import Tether.Host.Property
import Tether.Random.Uniform

/-!
# Actors

The host objects of the workloads : an actor has a transform, a velocity, a health and a name,
drawn from a generator of random numbers. `actorTable` binds the four, one in each direction and one
with a merge.
-/

namespace Tether

/-- Capabilities of an actor. -/
def transformCapability : Capability := "transform"

/-- Capability for an actor's velocity. -/
def velocityCapability : Capability := "velocity"

/-- Capability for an actor's health. -/
def healthCapability : Capability := "health"

/-- Capability for an actor's name. -/
def nameCapability : Capability := "name"

/-- The rules that tie an actor's capabilities to components. -/
def actorRules : List Rule :=
  [⟨transformCapability, "Position", .bidirectional, .hostWins⟩,
    ⟨velocityCapability, "Velocity", .hostToEcs, .hostWins⟩,
    ⟨nameCapability, "Name", .ecsToHost, .hostWins⟩,
    ⟨healthCapability, "Health", .bidirectional, .merge "average" Resolver.average⟩]

/-- The table of the actor rules. -/
def actorTable : Table := actorRules.foldl (fun t rule => (t.register rule).2) {}

/-- A coordinator of actors. -/
abbrev Stage := Coordinator PropertyBag Unit

/-- A coordinator of actors with a given number of workers and nothing bound. -/
def Stage.new (workers : Nat) : Stage :=
  Coordinator.withTable actorTable
    { sync := { workers := .count workers, parallelThreshold := 256 } }
    { hosts := {}, ambient := () } {}

/-! ## Making actors -/

/-- A source of actors, which draws from a generator. Identities count from one. -/
structure ActorFactory (ρ : Type := RandomStream) where
  stream : ρ
  nextId : UInt64 := 1
  deriving Inhabited

namespace ActorFactory

variable {ρ : Type} [Generator ρ]

/-- The source that a seed gives. -/
def ofSeed (seed : UInt64) (ρ : Type := RandomStream) [Generator ρ] : ActorFactory ρ :=
  { stream := Generator.ofSeed seed }

/-- A vector whose parts lie within an extent of zero. -/
def vector (s : ρ) (extent : Binary64) : Value × ρ :=
  let low := Binary64.zero - extent
  let (x, s) := Generator.between s low extent
  let (y, s) := Generator.between s low extent
  let (z, s) := Generator.between s low extent
  (.vec3 x y z, s)

/-- Make an actor. -/
def actor (f : ActorFactory ρ) : (HostId × PropertyBag) × ActorFactory ρ :=
  let (transform, s) := vector f.stream (Binary64.ofNat 100)
  let (velocity, s) := vector s (Binary64.ofNat 10)
  let (health, s) := Generator.between s (Binary64.ofNat 1) (Binary64.ofNat 100)
  ((⟨f.nextId⟩,
      .ofList
        [(transformCapability, transform), (velocityCapability, velocity),
          (healthCapability, .float health),
          (nameCapability, .text ("actor-" ++ toString f.nextId.toNat))]),
    { stream := s, nextId := f.nextId + 1 })

/-- Make so many actors. -/
def actors : Nat → ActorFactory ρ → List (HostId × PropertyBag) × ActorFactory ρ
  | 0, f => ([], f)
  | n + 1, f =>
    let (a, f) := f.actor
    let (rest, f) := actors n f
    (a :: rest, f)

end ActorFactory

/-- Move an actor along its velocity for a length of time. -/
def PropertyBag.advance (dt : Binary64) (b : PropertyBag) : PropertyBag :=
  match b.get? transformCapability, b.get? velocityCapability with
  | some (.vec3 p₁ p₂ p₃), some (.vec3 v₁ v₂ v₃) =>
    b.set transformCapability (.vec3 (p₁ + v₁ * dt) (p₂ + v₂ * dt) (p₃ + v₃ * dt))
  | _, _ => b

namespace Stage

/-- Bring actors into existence, owned by the host runtime. -/
def enter : List (HostId × PropertyBag) → Stage → List HostRef × Stage
  | [], c => ([], c)
  | (id, bag) :: rest, c =>
    let (ref, hosts) := c.hosts.create id bag true
    let (refs, c) := enter rest (c.setHosts hosts)
    (ref :: refs, c)

/-- The host runtime gives up an actor. -/
def leave (c : Stage) (ref : HostRef) : Stage := c.setHosts (c.hosts.release ref).2

/-- Ask for the binding of an actor at the next flush. -/
def request (c : Stage) (ref : HostRef) : Stage := (c.enqueue (.create ref)).2

/-- Bind actors one after another; the first that fails ends it. -/
def bindEach : List HostRef → Stage → Except Error Unit × Stage
  | [], c => (.ok (), c)
  | ref :: rest, c =>
    match c.bind ref with
    | (.error error, c) => (.error error, c)
    | (.ok _, c) => bindEach rest c

/-- Bind actors directly and deliver the signals of it. -/
def bindAll (refs : List HostRef) (c : Stage) : Except Error Unit × Stage :=
  match bindEach refs c with
  | (.error error, c) => (.error error, c)
  | (.ok (), c) =>
    match c.dispatch with
    | (.error error, c) => (.error error, c)
    | (.ok _, c) => (.ok (), c)

end Stage

end Tether
