import Tether.Toml.Node
import Tether.Toml.Number
import Tether.Toml.Quoted

/-!
# Reading a document

A document is a list of statements, one to a line : a header, the header of one more table of a
list, or a key with its value. `statements?` reads them and `document?` puts them together.

Arrays and inline tables nest, and a dotted key leads through tables; a document in which either
goes deeper than `maxDepth` is refused.
-/

namespace Tether.Toml

/-- How deep values may nest and how many parts a dotted key may have. -/
def maxDepth : Nat := 79

/-- A reader takes a value from the front of a text. -/
abbrev Reader (α : Type) := List Char → Option (α × List Char)

/-! ## Keys -/

/-- One part of a key. -/
def keyPart? (s : List Char) : Option (String × List Char) :=
  match s with
  | '"' :: r => (basic? r).map fun p => (String.ofList p.1, p.2)
  | '\'' :: r => (literal? r).map fun p => (String.ofList p.1, p.2)
  | _ =>
    let bare := s.takeWhile isBare
    if bare.isEmpty then none else some (String.ofList bare, s.dropWhile isBare)

/-- A dotted key of at most so many parts, with the blanks around its parts. -/
def keyPath? : Nat → List Char → Option (List String × List Char)
  | 0, _ => none
  | parts + 1, s =>
    match keyPart? (skipBlanks s) with
    | none => none
    | some (part, r) =>
      match skipBlanks r with
      | '.' :: r => (keyPath? parts r).map fun p => (part :: p.1, p.2)
      | r => some ([part], r)

/-- A key : the tables that it leads through and its last part. -/
def key? (s : List Char) : Option ((List String × String) × List Char) :=
  match keyPath? maxDepth s with
  | some (path, r) => path.getLast?.map fun last => ((path.dropLast, last), r)
  | none => none

/-! ## Values -/

/-- The items of an array up to its closing bracket, at most so many. -/
def arrayItems? (item : Reader Value) : Nat → List Char → Option (List Value × List Char)
  | 0, _ => none
  | count + 1, s =>
    match skipLines false s with
    | some (']' :: r) => some ([], r)
    | some s =>
      match item s with
      | none => none
      | some (v, r) =>
        match skipLines false r with
        | some (',' :: r) => (arrayItems? item count r).map fun p => (v :: p.1, p.2)
        | some (']' :: r) => some ([v], r)
        | _ => none
    | none => none

/-- A key and its value. -/
def pair? (item : Reader Value) (s : List Char) :
    Option ((List String × String × Value) × List Char) :=
  match key? s with
  | some ((path, key), '=' :: r) =>
    (item (skipBlanks r)).map fun p => ((path, key, p.1), skipBlanks p.2)
  | _ => none

/-- The pairs of an inline table up to its closing brace, at most so many. -/
def inlinePairs? (item : Reader Value) :
    Nat → List Char → Option (List (List String × String × Value) × List Char)
  | 0, _ => none
  | count + 1, s =>
    match pair? item s with
    | some (p, ',' :: r) => (inlinePairs? item count r).map fun q => (p :: q.1, q.2)
    | some (p, '\x7d' :: r) => some ([p], r)
    | _ => none

/-- The inside of an inline table. -/
def inlineBody? (item : Reader Value) (s : List Char) :
    Option (List (List String × String × Value) × List Char) :=
  match skipBlanks s with
  | '\x7d' :: r => some ([], r)
  | s => inlinePairs? item s.length s

/-- A value in which no other values nest. -/
def flatValue? (s : List Char) : Option (Value × List Char) :=
  if s.head? = some '"' || s.head? = some '\'' then
    (string? s).map fun p => (.string (String.ofList p.1), p.2)
  else word? s

/-- A value in which values nest at most so deep. -/
def value? : Nat → Reader Value
  | depth + 1, '[' :: r =>
    (arrayItems? (value? depth) (r.length + 1) r).map fun p => (.array p.1, p.2)
  | depth + 1, '\x7b' :: r =>
    match inlineBody? (value? depth) r with
    | some (pairs, r) => (inlineTable? pairs).map fun v => (v, r)
    | none => none
  | _, s => flatValue? s

/-! ## Statements -/

/-- One statement of a document. -/
inductive Statement
  /-- The header of a table. -/
  | header (path : List String) (name : String)
  /-- The header of one more table of a list. -/
  | item (path : List String) (name : String)
  | pair (path : List String) (key : String) (value : Value)
  deriving Inhabited

/-- A statement with the end of its line. -/
def statement? : Reader Statement
  | '[' :: '[' :: r =>
    match key? r with
    | some ((path, name), ']' :: ']' :: r) => (lineEnd? r).map fun r => (.item path name, r)
    | _ => none
  | '[' :: r =>
    match key? r with
    | some ((path, name), ']' :: r) => (lineEnd? r).map fun r => (.header path name, r)
    | _ => none
  | s =>
    match pair? (value? maxDepth) s with
    | some ((path, key, v), r) => (lineEnd? r).map fun r => (.pair path key v, r)
    | none => none

/-- The statements of a text of at most so many lines. Lines may be empty or hold a comment
only. -/
def statements? : Nat → List Char → Option (List Statement)
  | 0, _ => none
  | lines + 1, s =>
    match skipBlanks s with
    | [] => some []
    | s =>
      match lineEnd? s with
      | some r => statements? lines r
      | none =>
        match statement? s with
        | some (st, r) => (statements? lines r).map fun rest => st :: rest
        | none => none

/-! ## Documents -/

/-- A document so far : all of it, and the path of the table that pairs are added to. -/
structure Draft where
  root : Node := .empty
  here : List String := []

/-- Add a statement to a document. -/
def Draft.add (d : Draft) : Statement → Option Draft
  | .header path name =>
    (d.root.change false (Node.openTable name) path).map fun root => ⟨root, path ++ [name]⟩
  | .item path name =>
    (d.root.change false (Node.openItem name) path).map fun root => ⟨root, path ++ [name]⟩
  | .pair path key v =>
    (d.root.change false (Node.insertAt path key v) d.here).map fun root => { d with root }

/-- Add statements to a document one after another. -/
def Draft.addAll : List Statement → Draft → Option Draft
  | [], d => some d
  | st :: rest, d => (d.add st).bind (Draft.addAll rest)

/-- Put statements together. -/
def assemble? (statements : List Statement) : Option Value :=
  (Draft.addAll statements {}).map fun d => d.root.toValue

/-- A text without the mark that may stand in front of it. -/
def dropMark : List Char → List Char
  | '\ufeff' :: s => s
  | s => s

/-- The table that a text writes. -/
def document? (text : String) : Option Value :=
  let s := dropMark text.toList
  (statements? (s.length + 1) s).bind assemble?

end Tether.Toml
