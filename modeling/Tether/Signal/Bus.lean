import Tether.Signal.Program

/-!
# Subscriptions

A `Bus` holds the listeners of one line, for each kind in order of subscription. While signals
of a kind are delivered its channel is dispatching : a listener that is removed meanwhile is
only marked as retired and taken out when the pass ends (`Channel.finish`).
-/

namespace Tether

variable {σ : Type}

/-- A listener with its subscription. -/
structure Subscriber (σ : Type) where
  subscription : Subscription
  listener : Listener σ

/-- The subscriptions to one kind. -/
structure Channel (σ : Type) where
  subscribers : List (Subscriber σ) := []
  /-- Whether a pass over the channel is running. -/
  dispatching : Bool := false
  /-- Subscriptions to be taken out when the pass ends. -/
  retired : List Subscription := []

namespace Channel

instance : Inhabited (Channel σ) := ⟨{}⟩

/-- Whether a subscription is in the channel. -/
def contains (c : Channel σ) (s : Subscription) : Bool :=
  c.subscribers.any fun sub => sub.subscription = s

/-- Add a subscriber at the end. -/
def add (c : Channel σ) (s : Subscriber σ) : Channel σ :=
  { c with subscribers := c.subscribers ++ [s] }

/-- Remove a subscription, at once or when the running pass ends. The answer is whether it was
there and not yet removed. -/
def remove (c : Channel σ) (s : Subscription) : Bool × Channel σ :=
  if !c.contains s || c.retired.contains s then (false, c)
  else if c.dispatching then (true, { c with retired := c.retired ++ [s] })
  else (true, { c with
    subscribers := c.subscribers.filter fun sub => sub.subscription ≠ s })

/-- Begin a pass. -/
def start (c : Channel σ) : Channel σ := { c with dispatching := true }

/-- End a pass : take out what was retired meanwhile. -/
def finish (c : Channel σ) : Channel σ :=
  { subscribers := c.subscribers.filter fun sub => !c.retired.contains sub.subscription }

/-- What can be seen of the channel. -/
def status (c : Channel σ) : ChannelStatus := ⟨c.subscribers.length, c.dispatching⟩

end Channel

/-- The listeners of one line. Subscriptions of all kinds are numbered together. -/
structure Bus (σ : Type) where
  created : Channel σ := {}
  destroying : Channel σ := {}
  added : Channel σ := {}
  removed : Channel σ := {}
  nextNumber : Nat := 0

namespace Bus

instance : Inhabited (Bus σ) := ⟨{}⟩

/-- The channel of a kind. -/
def channel (b : Bus σ) : Kind → Channel σ
  | .entityCreated => b.created
  | .entityDestroying => b.destroying
  | .componentAdded => b.added
  | .componentRemoved => b.removed

/-- Replace the channel of a kind. -/
def setChannel (b : Bus σ) (kind : Kind) (c : Channel σ) : Bus σ :=
  match kind with
  | .entityCreated => { b with created := c }
  | .entityDestroying => { b with destroying := c }
  | .componentAdded => { b with added := c }
  | .componentRemoved => { b with removed := c }

/-- Subscribe a listener to a kind. -/
def subscribe (b : Bus σ) (kind : Kind) (listener : Listener σ) : Subscription × Bus σ :=
  let subscription : Subscription := ⟨kind, b.nextNumber⟩
  (subscription,
    { b.setChannel kind ((b.channel kind).add ⟨subscription, listener⟩) with
      nextNumber := b.nextNumber + 1 })

/-- Remove a subscription. -/
def unsubscribe (b : Bus σ) (s : Subscription) : Bool × Bus σ :=
  let (was, c) := (b.channel s.kind).remove s
  (was, b.setChannel s.kind c)

theorem channel_setChannel (b : Bus σ) (k k' : Kind) (c : Channel σ) :
    (b.setChannel k c).channel k' = if k' = k then c else b.channel k' := by
  cases k <;> cases k' <;> rfl

theorem nextNumber_setChannel (b : Bus σ) (k : Kind) (c : Channel σ) :
    (b.setChannel k c).nextNumber = b.nextNumber := by
  cases k <;> rfl

end Bus

/-- The listeners of all lines. -/
structure Switchboard (σ : Type) where
  lifecycle : Bus σ := {}
  relay : Bus σ := {}

namespace Switchboard

instance : Inhabited (Switchboard σ) := ⟨{}⟩

/-- The bus of a line. -/
def bus (s : Switchboard σ) : Line → Bus σ
  | .lifecycle => s.lifecycle
  | .relay => s.relay

/-- Replace the bus of a line. -/
def setBus (s : Switchboard σ) (line : Line) (b : Bus σ) : Switchboard σ :=
  match line with
  | .lifecycle => { s with lifecycle := b }
  | .relay => { s with relay := b }

/-- The channel of a line and a kind. -/
def channel (s : Switchboard σ) (line : Line) (kind : Kind) : Channel σ :=
  (s.bus line).channel kind

/-- Replace the channel of a line and a kind. -/
def setChannel (s : Switchboard σ) (line : Line) (kind : Kind) (c : Channel σ) :
    Switchboard σ :=
  s.setBus line ((s.bus line).setChannel kind c)

/-- Subscribe a listener. -/
def subscribe (s : Switchboard σ) (line : Line) (kind : Kind) (listener : Listener σ) :
    Subscription × Switchboard σ :=
  let (subscription, b) := (s.bus line).subscribe kind listener
  (subscription, s.setBus line b)

/-- Remove a subscription. -/
def unsubscribe (s : Switchboard σ) (line : Line) (subscription : Subscription) :
    Bool × Switchboard σ :=
  let (was, b) := (s.bus line).unsubscribe subscription
  (was, s.setBus line b)

/-- What can be seen of a channel. -/
def status (s : Switchboard σ) (line : Line) (kind : Kind) : ChannelStatus :=
  (s.channel line kind).status

theorem bus_setBus (s : Switchboard σ) (l l' : Line) (b : Bus σ) :
    (s.setBus l b).bus l' = if l' = l then b else s.bus l' := by
  cases l <;> cases l' <;> rfl

theorem channel_setChannel (s : Switchboard σ) (l l' : Line) (k k' : Kind) (c : Channel σ) :
    (s.setChannel l k c).channel l' k' =
      if l' = l ∧ k' = k then c else s.channel l' k' := by
  unfold setChannel channel
  rw [bus_setBus]
  by_cases hl : l' = l
  · subst hl
    simp [Bus.channel_setChannel]
  · simp [hl]

end Switchboard

end Tether
