import Tether.Workload.Scenario

/-!
# Crowd

A population that stays and is edited on both sides in every frame : the host moves every actor
along its velocity, and the entity world damages some actors and renames a few.
-/

namespace Tether

/-- How a crowd is edited. -/
structure CrowdConfig where
  population : Nat := 10000
  /-- The share of actors damaged in each frame, a tenth if nothing else is said. -/
  damaged : Binary64 := ⟨0x3fb999999999999a⟩
  /-- The share of actors renamed in each frame, a hundredth if nothing else is said. -/
  renamed : Binary64 := ⟨0x3f847ae147ae147b⟩
  delta : Duration := sixtyPerSecond
  workers : Nat := 4
  seed : UInt64 := 12345
  deriving Inhabited

/-- The state of a crowd. -/
structure Crowd (ρ : Type := RandomStream) where
  config : CrowdConfig
  stage : Stage
  factory : ActorFactory ρ
  /-- Actors that the host runtime owns. -/
  actors : List HostRef := []
  health : Option ComponentId := none
  name : Option ComponentId := none
  /-- Updates so far. -/
  frame : Nat := 0

namespace Crowd

variable {ρ : Type} [Generator ρ]

/-- A crowd that is not there yet. -/
def ofConfig (config : CrowdConfig) (ρ : Type := RandomStream) [Generator ρ] : Crowd ρ :=
  { config, stage := Stage.new config.workers, factory := ActorFactory.ofSeed config.seed ρ }

/-! ## The work of the host -/

/-- Change one actor where it is. -/
def editActor (f : PropertyBag → PropertyBag) (c : Stage) (ref : HostRef) : Stage :=
  c.setHosts (c.hosts.update ref f)

/-- Move every actor along its velocity. -/
def hostUpdate (s : Crowd ρ) : Crowd ρ :=
  let dt := s.config.delta.toSeconds
  { s with stage := s.actors.foldl (editActor (PropertyBag.advance dt)) s.stage }

/-! ## The work of the entity world -/

/-- One of the entities, chosen at random. -/
def pick (handles : Array Handle) (s : Crowd ρ) : Handle × Crowd ρ :=
  let (index, stream) := Generator.below s.factory.stream handles.size
  ((handles[index]?).getD default, { s with factory := { s.factory with stream } })

/-- Health after a hit, which never falls below zero. -/
def hit (hp : Binary64) : Binary64 := (hp - Binary64.ofNat 1).max Binary64.zero

/-- Damage entities chosen at random, so many times. -/
def damage (handles : Array Handle) (health : ComponentId) : Nat → Crowd ρ → Crowd ρ
  | 0, s => s
  | n + 1, s =>
    let (h, s) := pick handles s
    match s.stage.component? h health with
    | some (.float hp) =>
      damage handles health n
        { s with stage := (s.stage.writeComponent h health (.float (hit hp))).2 }
    | _ => damage handles health n s

/-- Rename entities chosen at random, so many times from the `i`-th on. -/
def rename (handles : Array Handle) (name : ComponentId) : Nat → Nat → Crowd ρ → Crowd ρ
  | 0, _, s => s
  | n + 1, i, s =>
    let (h, s) := pick handles s
    let text := "renamed-" ++ toString s.frame ++ "-" ++ toString i
    rename handles name n (i + 1)
      { s with stage := (s.stage.writeComponent h name (.text text)).2 }

/-- A share of a count, rounded down. -/
def portion (count : Nat) (share : Binary64) : Nat := (Binary64.ofNat count * share).toCount

/-- Damage some entities and rename a few. -/
def ecsUpdate (s : Crowd ρ) : Crowd ρ :=
  match s.health, s.name with
  | some health, some name =>
    let handles := (s.stage.world.toList.map Row.handle).toArray
    if handles.isEmpty then s
    else
      let s := damage handles health (portion handles.size s.config.damaged) s
      rename handles name (portion handles.size s.config.renamed) 0 s
  | _, _ => s

/-- A synchronization pass alone. The answer is how many entities it visited. -/
def synchronize (s : Crowd ρ) : Nat × Crowd ρ :=
  let (report, stage) := s.stage.synchronizeAll .bidirectional
  (report.entities, { s with stage })

/-! ## Frames -/

/-- Run one frame of the stage. -/
def step (s : Crowd ρ) : FrameResult (Crowd ρ) :=
  let (result, stage) := s.stage.step s.config.delta
  (result, { s with stage })

/-- Make the crowd and bind it directly. -/
def setup (s : Crowd ρ) : FrameResult (Crowd ρ) :=
  let (fresh, factory) := s.factory.actors s.config.population
  let (actors, stage) := s.stage.enter fresh
  let (result, stage) := stage.bindAll actors
  (.ok (result.map fun _ => {}),
    { s with
      factory
      actors
      stage
      health := stage.componentId? "Health"
      name := stage.componentId? "Name" })

/-- Edit the crowd on both sides and run a frame. -/
def update (s : Crowd ρ) : FrameResult (Crowd ρ) :=
  let (result, s) := s.hostUpdate.ecsUpdate.step
  (result, { s with frame := s.frame + 1 })

/-- All actors leave, and a last frame is run. -/
def teardown (s : Crowd ρ) : FrameResult (Crowd ρ) :=
  { s with stage := s.actors.foldl Stage.leave s.stage, actors := [] }.step

/-- A way to update a crowd, as a whole or in part. -/
inductive Edit
  | full
  | hostOnly
  | ecsOnly
  | syncOnly
  deriving DecidableEq, Inhabited

/-- Update a crowd in one way. -/
def edit (s : Crowd ρ) : Edit → Except ClockOverflow (Crowd ρ)
  | .full => s.update.state
  | .hostOnly => .ok s.hostUpdate
  | .ecsOnly => .ok s.ecsUpdate
  | .syncOnly => .ok s.synchronize.2

instance : Scenario (Crowd ρ) where
  name := "crowd"
  description := "Stable population edited on both sides every frame"
  bindingCount s := s.config.population
  setup := setup
  update := update
  teardown := teardown

end Crowd

end Tether
