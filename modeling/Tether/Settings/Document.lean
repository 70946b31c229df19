import Tether.Settings.Basic
import Tether.Toml.Written

/-!
# Settings as a document

`Settings.ofText?` reads settings from a TOML document and `Settings.text?` writes them. A table
may be given as a list of its fields in order, fields may be missing where there is a default,
and unknown fields are left aside. A name of a direction or a policy may also stand as the only
key of a table; the table of a merge policy gives the name of its function, any other is empty.
-/

namespace Tether

open Toml (Simple)

/-! ## Reading -/

/-- The fields of a table, by name or by position. -/
inductive Fields
  | named (entries : List (String × Toml.Value))
  | listed (items : List Toml.Value)

namespace Fields

/-- The fields of a value. A date has fields, but none that settings know. -/
def ofValue? : Toml.Value → Option Fields
  | .table entries => some (.named entries)
  | .array items => some (.listed items)
  | .datetime _ => some (.named [])
  | _ => none

/-- The value with a name in a list of entries. -/
def lookup (name : String) : List (String × Toml.Value) → Option Toml.Value
  | [] => none
  | (n, v) :: rest => if n = name then some v else lookup name rest

/-- The value of a field. -/
def get? (name : String) (place : Nat) : Fields → Option Toml.Value
  | .named entries => lookup name entries
  | .listed items => items[place]?

/-- A field read by `decode`, or its default if it is missing. -/
def field {α : Type} (f : Fields) (name : String) (place : Nat)
    (decode : Toml.Value → Option α) (default : Option α) : Option α :=
  match f.get? name place with
  | some v => decode v
  | none => default

end Fields

/-- A count. -/
def count? : Toml.Value → Option Nat
  | .integer (.ofNat n) => some n
  | _ => none

/-- A truth value. -/
def flag? : Toml.Value → Option Bool
  | .boolean b => some b
  | _ => none

/-- A text. -/
def text? : Toml.Value → Option String
  | .string s => some s
  | _ => none

/-- Whether a value is a table without fields, by name or by position. -/
def isEmptyTable : Toml.Value → Bool
  | .table [] | .array [] => true
  | _ => false

/-- A direction by its name, or as the only key of a table. -/
def Direction.ofValue? : Toml.Value → Option Direction
  | .string s => ofKeyword? s
  | .table [(key, v)] => if isEmptyTable v then ofKeyword? key else none
  | _ => none

namespace PolicySetting

/-- A policy without a merge function by its name. -/
def ofKeyword? : String → Option PolicySetting
  | "host_wins" => some .hostWins
  | "ecs_wins" => some .ecsWins
  | _ => none

/-- A policy by its name, or as the only key of a table. -/
def ofValue? : Toml.Value → Option PolicySetting
  | .string s => ofKeyword? s
  | .table [(key, v)] =>
    if key = "merge" then (text? v).map merge
    else if isEmptyTable v then ofKeyword? key
    else none
  | _ => none

end PolicySetting

/-- Settings of passes. -/
def SyncSettings.ofValue? (v : Toml.Value) : Option SyncSettings :=
  (Fields.ofValue? v).bind fun f =>
    (f.field "workers" 0 (fun v => (count? v).map Workers.count) (some .auto)).bind fun workers =>
      (f.field "parallel_threshold" 1 count? (some 256)).map fun parallelThreshold =>
        { workers, parallelThreshold }

/-- Settings of the queue. -/
def QueueSettings.ofValue? (v : Toml.Value) : Option QueueSettings :=
  (Fields.ofValue? v).bind fun f =>
    (f.field "warn_on_stale" 0 flag? (some true)).map fun warnOnStale => { warnOnStale }

/-- A binding, which must have a capability and a component. -/
def BindingSetting.ofValue? (v : Toml.Value) : Option BindingSetting :=
  (Fields.ofValue? v).bind fun f =>
    (f.field "capability" 0 text? none).bind fun capability =>
      (f.field "component" 1 text? none).bind fun component =>
        (f.field "direction" 2 Direction.ofValue? (some .bidirectional)).bind fun direction =>
          (f.field "policy" 3 PolicySetting.ofValue? (some .hostWins)).map fun policy =>
            { capability, component, direction, policy }

/-- A list of bindings. -/
def BindingSetting.listOfValue? : Toml.Value → Option (List BindingSetting)
  | .array items => items.mapM BindingSetting.ofValue?
  | _ => none

namespace Settings

/-- Settings from the value of a document. -/
def ofValue? (v : Toml.Value) : Option Settings :=
  (Fields.ofValue? v).bind fun f =>
    (f.field "sync" 0 SyncSettings.ofValue? (some {})).bind fun sync =>
      (f.field "queue" 1 QueueSettings.ofValue? (some {})).bind fun queue =>
        (f.field "bindings" 2 BindingSetting.listOfValue? (some [])).map fun bindings =>
          { sync, queue, bindings }

/-- Settings from the text of a document. -/
def ofText? (text : String) : Option Settings := (Toml.document? text).bind ofValue?

end Settings

/-! ## Writing -/

/-- The line of a policy that is a name alone. -/
def PolicySetting.lines : PolicySetting → List Toml.Line
  | .hostWins => [.pair "policy" (.string "host_wins")]
  | .ecsWins => [.pair "policy" (.string "ecs_wins")]
  | .merge name => [.header ["bindings"] "policy", .pair "merge" (.string name)]

/-- The lines of a binding. -/
def BindingSetting.lines (b : BindingSetting) : List Toml.Line :=
  [.item [] "bindings", .pair "capability" (.string b.capability),
    .pair "component" (.string b.component),
    .pair "direction" (.string b.direction.keyword)] ++ b.policy.lines

/-- The line of a number of workers. One that is not known cannot be written. -/
def Workers.lines : Workers → List Toml.Line
  | .auto => []
  | .count n => [.pair "workers" (.integer n)]

namespace Settings

/-- The lines of settings. An empty list of bindings comes first, since it is no table. -/
def lines (s : Settings) : List Toml.Line :=
  (if s.bindings.isEmpty then [.pair "bindings" .nothing] else []) ++
    (.header [] "sync" :: s.sync.workers.lines ++
      [.pair "parallel_threshold" (.integer s.sync.parallelThreshold)]) ++
    [.header [] "queue", .pair "warn_on_stale" (.boolean s.queue.warnOnStale)] ++
    s.bindings.flatMap BindingSetting.lines

/-- The text of settings, unless a number in them is too large for a document. -/
def text? (s : Settings) : Option String :=
  (Toml.writeLines? true s.lines).map String.ofList

end Settings

end Tether
