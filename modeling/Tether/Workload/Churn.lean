import Tether.Workload.Scenario

/-!
# Churn

A population of actors of which a share leaves in every frame, while as many new ones are
reported through the mutation queue. The gone ones are reaped at the next flush.
-/

namespace Tether

/-- How a population churns. -/
structure ChurnConfig where
  /-- Live host objects in a steady state. -/
  population : Nat := 10000
  /-- The share of the population that is replaced in each frame, a twentieth if nothing else
  is said. -/
  turnover : Binary64 := ⟨0x3fa999999999999a⟩
  delta : Duration := sixtyPerSecond
  workers : Nat := 4
  seed : UInt64 := 12345
  deriving Inhabited

/-- The state of a churning population. -/
structure Churn (ρ : Type := RandomStream) where
  config : ChurnConfig
  stage : Stage
  factory : ActorFactory ρ
  /-- Actors that the host runtime owns. -/
  live : Array HostRef := #[]

namespace Churn

variable {ρ : Type} [Generator ρ]

/-- A population that is not there yet. -/
def ofConfig (config : ChurnConfig) (ρ : Type := RandomStream) [Generator ρ] : Churn ρ :=
  { config, stage := Stage.new config.workers, factory := ActorFactory.ofSeed config.seed ρ }

/-- How many actors are to be replaced in each frame. -/
def replacedPerFrame (config : ChurnConfig) : Nat :=
  (Binary64.ofNat config.population * config.turnover).ceilCount

/-- Make actors and ask for their binding. -/
def spawn (count : Nat) (s : Churn ρ) : Churn ρ :=
  let (fresh, factory) := s.factory.actors count
  let (refs, stage) := s.stage.enter fresh
  { s with
    factory
    stage := refs.foldl Stage.request stage
    live := s.live ++ refs.toArray }

/-- One live actor, chosen at random, leaves; the last one takes its place. -/
def dropOne (s : Churn ρ) : Churn ρ :=
  let (index, stream) := Generator.below s.factory.stream s.live.size
  let s := { s with factory := { s.factory with stream } }
  match s.live[index]? with
  | none => s
  | some ref =>
    { s with
      live := (s.live.swapIfInBounds index (s.live.size - 1)).pop
      stage := s.stage.leave ref }

/-- So many live actors leave. -/
def drop : Nat → Churn ρ → Churn ρ
  | 0, s => s
  | n + 1, s => drop n s.dropOne

/-- Run one frame of the stage. -/
def step (s : Churn ρ) : FrameResult (Churn ρ) :=
  let (result, stage) := s.stage.step s.config.delta
  (result, { s with stage })

/-- A listener that checks that a new entity has its host. -/
def checkHost : Listener (Surroundings PropertyBag Unit) := fun signal view around =>
  match view.host? signal.handle with
  | some _ => .done (.ok ()) around
  | none => .done (.error (.recoverable "created without a host")) around

/-- A listener that only looks at the end of an entity. -/
def watchEnd : Listener (Surroundings PropertyBag Unit) := fun _ _ around =>
  .done (.ok ()) around

/-- Make and bind the first population. -/
def setup (s : Churn ρ) : FrameResult (Churn ρ) :=
  let (_, stage) := s.stage.subscribe .lifecycle .entityCreated checkHost
  let (_, stage) := stage.subscribe .lifecycle .entityDestroying watchEnd
  (spawn s.config.population { s with stage }).step

/-- Replace a share of the population and run a frame. -/
def update (s : Churn ρ) : FrameResult (Churn ρ) :=
  let replaced := min (replacedPerFrame s.config) s.live.size
  (spawn replaced (drop replaced s)).step

/-- All actors leave, and a last frame is run. -/
def teardown (s : Churn ρ) : FrameResult (Churn ρ) :=
  { s with stage := s.live.foldl Stage.leave s.stage, live := #[] }.step

instance : Scenario (Churn ρ) where
  name := "churn"
  description := "Host objects created on a loader thread and dropped every frame"
  bindingCount s := s.config.population
  setup := setup
  update := update
  teardown := teardown

end Churn

end Tether
