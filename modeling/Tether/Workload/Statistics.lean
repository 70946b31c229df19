import Tether.Coordinator.Report
import Tether.Duration

/-!
# Measurements of a run

`FrameStats` is the distribution of a list of frame times, with percentiles by nearest rank.
`FrameTotals` adds up what the frames of a run did. `Footprint` sets the heap use of a run in
relation to its bindings and frames.
-/

namespace Tether

/-! ## Frame times -/

/-- Frame times in ascending order, with their sum. -/
structure FrameStats where
  sorted : List Duration := []
  total : Duration := Duration.zero
  deriving Inhabited

namespace FrameStats

/-- The distribution of a list of frame times, if their sum is a duration. -/
def ofTimes (times : List Duration) : Except ClockOverflow FrameStats :=
  match Duration.sum? times with
  | none => .error ⟨⟩
  | some total => .ok { sorted := times.mergeSort Duration.le, total }

/-- How many frames were measured. -/
def frames (s : FrameStats) : Nat := s.sorted.length

/-- The number of frames as a divisor of durations, which has 32 bits. -/
def divisor (s : FrameStats) : UInt32 := UInt32.ofNat s.frames

/-- The mean frame time, rounded down. -/
def mean (s : FrameStats) : Duration :=
  if s.frames = 0 then Duration.zero else s.total.divide s.divisor.toNat

/-- The place of a percentile among the sorted times; `p` counts as at most a hundred. -/
def rank (s : FrameStats) (p : Nat) : Nat :=
  min (s.frames * min p 100 / 100) (s.frames - 1)

/-- The nearest-rank percentile, zero if nothing was measured. -/
def percentile (s : FrameStats) (p : Nat) : Duration := (s.sorted[s.rank p]?).getD Duration.zero

/-- The shortest frame time. -/
def shortest (s : FrameStats) : Duration := s.sorted.head?.getD Duration.zero

/-- The longest frame time. -/
def longest (s : FrameStats) : Duration := s.sorted.getLast?.getD Duration.zero

/-- A duration in milliseconds, with three places. -/
def milliseconds (d : Duration) : String :=
  (d.toSeconds * Binary64.ofNat 1000).fixed 3 ++ "ms"

/-- The text of a distribution. -/
def render (s : FrameStats) : String :=
  toString s.frames ++ " frames, mean " ++ milliseconds s.mean ++ ", p50 " ++
    milliseconds (s.percentile 50) ++ ", p99 " ++ milliseconds (s.percentile 99) ++ ", max " ++
    milliseconds s.longest

end FrameStats

/-! ## Totals -/

/-- What the frames of a run did. -/
structure FrameTotals where
  applied : Nat := 0
  stale : Nat := 0
  reaped : Nat := 0
  rejected : Nat := 0
  synchronized : Nat := 0
  conflicts : Nat := 0
  signals : Nat := 0
  listenerFailures : Nat := 0
  deriving DecidableEq, Inhabited

/-- Add the report of one more frame. -/
def FrameTotals.add (t : FrameTotals) (r : FrameReport) : FrameTotals :=
  { applied := t.applied + r.flush.applied
    stale := t.stale + r.flush.stale
    reaped := t.reaped + r.flush.reaped
    rejected := t.rejected + r.flush.rejected.length
    synchronized := t.synchronized + r.sync.entities
    conflicts := t.conflicts + r.sync.conflicts
    signals := t.signals + r.dispatch.delivered + r.dispatch.named
    listenerFailures := t.listenerFailures + r.dispatch.failures.length }

/-! ## Heap use -/

/-- Heap counters since the start of a profile. -/
structure HeapCounters where
  bytes : Nat := 0
  blocks : Nat := 0
  /-- The most bytes that were in use at once. -/
  peakBytes : Nat := 0
  deriving DecidableEq, Inhabited

/-- What was allocated since an earlier look; the peak stays that of the whole profile. -/
def HeapCounters.since (later earlier : HeapCounters) : HeapCounters :=
  { bytes := later.bytes - earlier.bytes
    blocks := later.blocks - earlier.blocks
    peakBytes := later.peakBytes }

/-- Heap use of a run, at its setup and in its frames. -/
structure Footprint where
  bindings : Nat := 0
  frames : Nat := 0
  setup : HeapCounters := {}
  steady : HeapCounters := {}
  deriving DecidableEq, Inhabited

namespace Footprint

/-- A share of a total, zero if it is shared among none. -/
def ratio (total count : Nat) : Binary64 :=
  if count = 0 then Binary64.zero else Binary64.ofNat total / Binary64.ofNat count

/-- Bytes allocated at setup for each binding. -/
def bytesPerBinding (f : Footprint) : Binary64 := ratio f.setup.bytes f.bindings

/-- Bytes in use at once, at most, for each binding. -/
def peakPerBinding (f : Footprint) : Binary64 :=
  ratio (max f.steady.peakBytes f.setup.peakBytes) f.bindings

/-- Blocks allocated in each frame. -/
def blocksPerFrame (f : Footprint) : Binary64 := ratio f.steady.blocks f.frames

/-- The text of a footprint. -/
def render (f : Footprint) : String :=
  toString f.bindings ++ " bindings: " ++ f.bytesPerBinding.fixed 1 ++ " bytes/binding, peak " ++
    f.peakPerBinding.fixed 1 ++ " bytes/binding, " ++ f.blocksPerFrame.fixed 1 ++
    " blocks/frame over " ++ toString f.frames ++ " frames"

end Footprint

end Tether
