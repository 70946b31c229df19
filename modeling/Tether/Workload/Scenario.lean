import Tether.Workload.Actors
import Tether.Workload.Statistics

/-!
# Scenarios

A `Scenario` is a workload that can be run frame by frame. `measureSteps` runs frames of a
stage and adds up what they did; `measureFootprint` runs a scenario under a heap profile.
-/

namespace Tether

/-- What one frame of a scenario ends with, beside the state that it leaves. -/
abbrev FrameResult (α : Type) := Outcome FrameReport × α

/-- The state to go on with, unless the clock would run over. -/
def FrameResult.state {α : Type} (r : FrameResult α) : Except ClockOverflow α :=
  r.1.map fun _ => r.2

/-- A workload that can be run frame by frame. -/
class Scenario (α : Type) where
  name : String
  description : String
  /-- Host objects bound in a steady state. -/
  bindingCount : α → Nat
  /-- Make and bind the first population. -/
  setup : α → FrameResult α
  /-- Run one frame, with the work of the host. -/
  update : α → FrameResult α
  teardown : α → FrameResult α

/-- Frames from `frame` on, with the work of the host done before each. -/
def measureFrom (delta : Duration) (beforeStep : Nat → Stage → Stage) :
    Nat → Nat → FrameTotals → Stage → Outcome FrameTotals × Stage
  | 0, _, totals, c => (.ok (.ok totals), c)
  | left + 1, frame, totals, c =>
    match (beforeStep frame c).step delta with
    | (.error overflow, c) => (.error overflow, c)
    | (.ok (.error error), c) => (.ok (.error error), c)
    | (.ok (.ok report), c) =>
      measureFrom delta beforeStep left (frame + 1) (totals.add report) c

/-- Run so many frames and add up what they did. -/
def measureSteps (frames : Nat) (delta : Duration) (beforeStep : Nat → Stage → Stage)
    (c : Stage) : Outcome FrameTotals × Stage :=
  measureFrom delta beforeStep frames 0 {} c

/-- A steady population whose frames are measured. -/
structure SteadyConfig where
  count : Nat
  frames : Nat
  delta : Duration
  workers : Nat
  seed : UInt64
  /-- Whether the actors are also bound before the first frame. -/
  bindFirst : Bool
  /-- How many actors leave before each frame but the first. -/
  leaving : Nat

/-- Measure a steady population, whose latest actors are the first to leave. -/
def measureSteady (config : SteadyConfig) : Outcome FrameTotals × Stage :=
  let (actors, _) := (ActorFactory.ofSeed config.seed).actors config.count
  let (refs, c) := (Stage.new config.workers).enter actors
  let c := refs.foldl Stage.request c
  let c := if config.bindFirst then (c.bindAll refs).2 else c
  let leavers (frame : Nat) : List HostRef :=
    if frame = 0 then []
    else (refs.reverse.drop (config.leaving * (frame - 1))).take config.leaving
  measureSteps config.frames config.delta (fun frame c => (leavers frame).foldl Stage.leave c) c

/-- Run so many updates of a scenario. -/
def runUpdates {α : Type} [Scenario α] : Nat → α → Except ClockOverflow α
  | 0, a => .ok a
  | n + 1, a =>
    match Scenario.update a with
    | (.error overflow, _) => .error overflow
    | (.ok _, a) => runUpdates n a

/-- The states after each of some updates, from a given state on. -/
def statesAfter {α : Type} : List (α → Except ClockOverflow α) → α → Except ClockOverflow (List α)
  | [], _ => .ok []
  | update :: rest, a =>
    match update a with
    | .error overflow => .error overflow
    | .ok a => (statesAfter rest a).map (a :: ·)

/-- The states of a scenario after its setup, after each of some updates, and at the end. -/
def states {α : Type} [Scenario α] (updates : List (α → Except ClockOverflow α)) (a : α) :
    Except ClockOverflow (List α) :=
  let setup (a : α) := (Scenario.setup a).state
  let teardown (a : α) := (Scenario.teardown a).state
  statesAfter (setup :: updates ++ [teardown]) a

/-- The footprint of a scenario, where `counters` reads the heap profile. -/
def measureFootprint {α : Type} [Scenario α] (counters : α → HeapCounters) (frames : Nat)
    (a : α) : Except ClockOverflow Footprint :=
  let atStart := counters a
  match Scenario.setup a with
  | (.error overflow, _) => .error overflow
  | (.ok _, a) =>
    let atSetup := counters a
    match runUpdates frames a with
    | .error overflow => .error overflow
    | .ok a =>
      .ok
        { bindings := Scenario.bindingCount a
          frames
          setup := atSetup.since atStart
          steady := (counters a).since atSetup }

/-- A profile that counts nothing. -/
def noProfile {α : Type} (_ : α) : HeapCounters := {}

end Tether
