import Tether.Coordinator.Reaction
import Tether.Coordinator.Synchronize

/-!
# A whole frame

`Coordinator.step` moves the clock on and runs the three phases. The flush is left out if the
frame already had one.
-/

namespace Tether.Coordinator

variable {ο σ : Type} [HostObject ο]

/-- The flush of a step : an empty report if the frame already had one. -/
def flushOnce (c : Coordinator ο σ) : Outcome FlushReport × Coordinator ο σ :=
  if c.frame.flushed then (.ok (.ok {}), c) else c.flush

/-- Run one full frame. -/
def step (c : Coordinator ο σ) (delta : Duration) :
    Outcome FrameReport × Coordinator ο σ :=
  match c.frame.advance delta with
  | .error overflow => (.error overflow, c)
  | .ok frame =>
    match { c with frame }.flushOnce with
    | (.error overflow, c) => (.error overflow, c)
    | (.ok (.error error), c) => (.ok (.error error), c)
    | (.ok (.ok flush), c) =>
      let (sync, c) := c.synchronizeAll .bidirectional
      match c.dispatch with
      | (.error error, c) => (.ok (.error error), c)
      | (.ok dispatch, c) =>
        (.ok (.ok { frame := frame.number, flush, sync, dispatch }),
          c.note (.frameDone frame.number flush.applied sync.entities
            (dispatch.delivered + dispatch.named)))

end Tether.Coordinator
