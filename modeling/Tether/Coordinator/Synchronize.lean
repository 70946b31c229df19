import Tether.Coordinator.Basic

/-!
# The synchronization phase

`Coordinator.synchronize` runs a pass over one entity, `Coordinator.synchronizeAll` over every
bound entity whose host object exists, in slot order. Where the settings ask for several
workers, and there are entities enough, the entities are dealt out in shares of equal size; each
worker reports on its share, and the reports are joined in the order of the shares.
-/

namespace Tether

/-- Deal a list out into shares of a given size, the last one perhaps smaller. -/
def shares {α : Type} (size : Nat) : List α → List (List α)
  | [] => []
  | a :: rest => (a :: rest.take (size - 1)) :: shares size (rest.drop (size - 1))
termination_by xs => xs.length
decreasing_by simp only [List.length_drop, List.length_cons]; omega

theorem flatten_shares {α : Type} (size : Nat) (xs : List α) :
    (shares size xs).flatten = xs := by
  fun_induction shares size xs with
  | case1 => rfl
  | case2 a rest ih => simp [ih, List.take_append_drop]

namespace Coordinator

variable {ο σ : Type} [HostObject ο]

/-- Tell of a capability that could not be read or written. -/
def reportSynchronization (c : Coordinator ο σ) (failure : Error) : Coordinator ο σ :=
  (c.note (.synchronizationFailed failure)).report (.synchronization failure)

/-- Run a pass over one row with its host object. -/
def syncRow (c : Coordinator ο σ) (direction : Direction) (host : HostRef) (object : ο)
    (row : Row) : SyncReport × Coordinator ο σ :=
  let p := c.table.synchronize direction row.handle object row c.journal
  (p.report,
    { c with world := c.world.store p.row, journal := p.journal }.setHosts
      (c.hosts.putBack host p.object))

/-- Synchronize one entity with its host object. -/
def synchronize (c : Coordinator ο σ) (h : Handle) (direction : Direction) :
    Except Error SyncReport × Coordinator ο σ :=
  match c.registry.bound h with
  | .error error => (.error error, c)
  | .ok entry =>
    match c.hosts.find? entry.host with
    | none => (.error (.hostDropped entry.host.id), c)
    | some object =>
      match c.world.row? h with
      | none => (.error (.notBound (.handle h)), c)
      | some row =>
        let (report, c) := c.syncRow direction entry.host object row
        (.ok report, report.failures.foldl reportSynchronization c)

/-- Run a pass over one entity, if it is bound and its host object exists. The report is of the
pass so far. -/
def visit (direction : Direction) (state : SyncReport × Coordinator ο σ) (h : Handle) :
    SyncReport × Coordinator ο σ :=
  let (report, c) := state
  match c.registry.resolve? h, c.world.row? h with
  | some host, some row =>
    match c.hosts.find? host with
    | some object =>
      let (partialReport, c) := c.syncRow direction host object row
      (report.merge partialReport, c)
    | none => (report, c)
  | _, _ => (report, c)

/-- The work of one worker. -/
def work (direction : Direction) (state : SyncReport × Coordinator ο σ)
    (share : List Handle) : SyncReport × Coordinator ο σ :=
  let (report, c) := state
  let (partialReport, c) := share.foldl (visit direction) ({}, c)
  (report.merge partialReport, c)

/-- The handles of all bound rows in slot order. -/
def boundRows (c : Coordinator ο σ) : List Handle :=
  (c.world.toList.map Row.handle).filter c.registry.isBound

/-- Whether a pass over so many entities is shared between workers. -/
def isShared (s : SyncSettings) (entities : Nat) : Bool :=
  1 < s.workers.number && 0 < entities && s.parallelThreshold ≤ entities

/-- Synchronize every bound entity. -/
def synchronizeAll (c : Coordinator ο σ) (direction : Direction) :
    SyncReport × Coordinator ο σ :=
  let c := { c with frame := c.frame.enter .synchronization }
  let rows := c.boundRows
  let workers := c.settings.sync.workers.number
  let (report, c) :=
    if isShared c.settings.sync rows.length then
      (shares ((rows.length + workers - 1) / workers) rows).foldl (work direction) ({}, c)
    else rows.foldl (visit direction) ({}, c)
  (report, report.failures.foldl reportSynchronization c)

end Coordinator

end Tether
