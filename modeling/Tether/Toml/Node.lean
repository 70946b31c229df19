import Tether.Toml.Value

/-!
# Assembling a document

Keys and headers arrive one after another and add up to a tree of tables. A `Node` is a part of
that tree. A table remembers whether it was only passed through on the way to another one
(`implicit`), since only such a table may still get a header of its own, and whether it came from
a dotted key (`dotted`), since only such a table may get more entries through dotted keys.
-/

namespace Tether.Toml

/-- A part of a document under construction. -/
inductive Node
  | value (v : Value)
  | table (implicit dotted : Bool) (entries : List (String × Node))
  /-- A list of tables, each under a header of its own. -/
  | tables (items : List Node)
  deriving Inhabited

namespace Node

/-- The entry of a key. -/
def lookup (key : String) : List (String × Node) → Option Node
  | [] => none
  | (k, n) :: rest => if k = key then some n else lookup key rest

/-- Replace the entry of a key, or add it at the end. -/
def assign (key : String) (node : Node) : List (String × Node) → List (String × Node)
  | [] => [(key, node)]
  | (k, n) :: rest => if k = key then (key, node) :: rest else (k, n) :: assign key node rest

/-- Change the last item of a list. -/
def changeLast (f : Node → Option Node) : List Node → Option (List Node)
  | [] => none
  | [n] => (f n).map fun n => [n]
  | n :: rest => (changeLast f rest).map fun rest => n :: rest

/-- Change the table at a path. Missing tables on the way are made, and a list of tables stands
for its last one. A dotted key does not lead through a table with a header. -/
def change (dotted : Bool) (f : Node → Option Node) : List String → Node → Option Node
  | [], n => f n
  | key :: path, .table i d entries =>
    let put := fun n => Node.table i d (assign key n entries)
    match lookup key entries with
    | none => (change dotted f path (.table true dotted [])).map put
    | some (.value _) => none
    | some (.tables items) =>
      (changeLast (change dotted f path) items).map fun ns => put (.tables ns)
    | some (.table i' d' es) =>
      if dotted && !i' then none else (change dotted f path (.table i' d' es)).map put
  | _ :: _, _ => none

/-- Add an entry to a table whose kind fits the key, unless the key is taken. -/
def insert (dotted : Bool) (key : String) (v : Value) : Node → Option Node
  | .table i d entries =>
    if d = dotted && (lookup key entries).isNone then
      some (.table i d (assign key (.value v) entries))
    else none
  | _ => none

/-- Add the value of a key, given with the tables that the key leads through. -/
def insertAt (path : List String) (key : String) (v : Value) (n : Node) : Option Node :=
  change true (insert (!path.isEmpty) key v) path n

/-- Give a table a header. It may have been passed through before, but not defined. -/
def openTable (key : String) : Node → Option Node
  | .table i d entries =>
    match lookup key entries with
    | none => some (.table i d (assign key (.table false false []) entries))
    | some (.table true false es) => some (.table i d (assign key (.table false false es) entries))
    | some _ => none
  | _ => none

/-- Add one more table to a list of tables. -/
def openItem (key : String) : Node → Option Node
  | .table i d entries =>
    match lookup key entries with
    | none => some (.table i d (assign key (.tables [.table false false []]) entries))
    | some (.tables items) =>
      some (.table i d (assign key (.tables (items ++ [.table false false []])) entries))
    | some _ => none
  | _ => none

/-- A document with nothing in it. -/
def empty : Node := .table false false []

mutual

/-- The value that a finished part is. -/
def toValue : Node → Value
  | .value v => v
  | .table _ _ entries => .table (toEntries entries)
  | .tables items => .array (toItems items)

/-- The values of named parts. -/
def toEntries : List (String × Node) → List (String × Value)
  | [] => []
  | (key, n) :: rest => (key, toValue n) :: toEntries rest

/-- The values of listed parts. -/
def toItems : List Node → List Value
  | [] => []
  | n :: rest => toValue n :: toItems rest

end

end Node

/-- Put the pairs of an inline table together. -/
def inlineTable? (pairs : List (List String × String × Value)) : Option Value :=
  (pairs.foldl (fun n p => n.bind (Node.insertAt p.1 p.2.1 p.2.2)) (some Node.empty)).map
    Node.toValue

end Tether.Toml
