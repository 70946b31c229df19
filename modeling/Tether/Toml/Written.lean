import Tether.Toml.Statement

/-!
# Writing a document

Statements are written one to a line, with a blank line in front of every header but the first
line. A string is written in the plainest form that needs no escapes : a basic string, a literal
string, a basic string over several lines, a literal string over several lines. If none will do
it is a basic string with escapes, over several lines if it holds a line feed.
-/

namespace Tether.Toml

/-! ## Strings -/

/-- The longest run of a character. The first number is the run that is open, the second the
longest so far. -/
def longestRun (c : Char) : Nat → Nat → List Char → Nat
  | _, most, [] => most
  | run, most, x :: r =>
    if x = c then longestRun c (run + 1) (max most (run + 1)) r else longestRun c 0 most r

/-- What a string holds that decides how it can be written. -/
structure Traits where
  singleQuotes : Nat
  doubleQuotes : Nat
  /-- Control characters other than tab and line feed. -/
  controls : Bool
  backslash : Bool
  lineFeed : Bool

/-- What a string holds. -/
def traits (s : List Char) : Traits :=
  { singleQuotes := longestRun '\'' 0 0 s
    doubleQuotes := longestRun '"' 0 0 s
    controls := s.any fun c => isControl c && c ≠ '\n'
    backslash := s.any fun c => c = '\\'
    lineFeed := s.any fun c => c = '\n' }

/-- A hexadecimal digit. -/
def hexDigit (n : Nat) : Char := (Nat.digitChar n).toUpper

/-- A character below 256 by its number. -/
def numbered (c : Char) : List Char :=
  ['\\', 'u', '0', '0', hexDigit (c.toNat / 16), hexDigit (c.toNat % 16)]

/-- One character of a basic string, where `long` is whether line feeds stand for
themselves. -/
def basicChar (long : Bool) (c : Char) : List Char :=
  if c = '\x08' then ['\\', 'b']
  else if c = '\t' then ['\\', 't']
  else if c = '\n' then if long then ['\n'] else ['\\', 'n']
  else if c = '\x0c' then ['\\', 'f']
  else if c = '\r' then ['\\', 'r']
  else if c = '\\' then ['\\', '\\']
  else if isControl c then numbered c
  else [c]

/-- The inside of a basic string. Of quotes in a row, at most `free` stand for themselves and
the next one is escaped; `run` have stood for themselves so far. -/
def basicText (long : Bool) (free : Nat) : Nat → List Char → List Char
  | _, [] => []
  | run, c :: r =>
    if c = '"' then
      if run < free then '"' :: basicText long free (run + 1) r
      else '\\' :: '"' :: basicText long free 0 r
    else basicChar long c ++ basicText long free 0 r

/-- A basic string. -/
def writeBasic (s : List Char) : List Char := '"' :: basicText false 0 0 s ++ ['"']

/-- A literal string. -/
def writeLiteral (s : List Char) : List Char := '\'' :: s ++ ['\'']

/-- A line feed behind the opening quotes of a string that holds one itself. -/
def opening (t : Traits) : List Char := if t.lineFeed then ['\n'] else []

/-- A basic string over several lines. -/
def writeLongBasic (t : Traits) (s : List Char) : List Char :=
  ['"', '"', '"'] ++ opening t ++ basicText true 2 0 s ++ ['"', '"', '"']

/-- A literal string over several lines. -/
def writeLongLiteral (t : Traits) (s : List Char) : List Char :=
  ['\'', '\'', '\''] ++ opening t ++ s ++ ['\'', '\'', '\'']

/-- A string in the plainest form that will do. -/
def writeString (s : List Char) : List Char :=
  let t := traits s
  if !t.controls && !t.backslash && t.doubleQuotes = 0 && !t.lineFeed then writeBasic s
  else if !t.controls && t.singleQuotes = 0 && !t.lineFeed then writeLiteral s
  else if !t.controls && !t.backslash && t.doubleQuotes ≤ 2 then writeLongBasic t s
  else if !t.controls && t.singleQuotes ≤ 2 then writeLongLiteral t s
  else if t.lineFeed then writeLongBasic t s
  else writeBasic s

/-! ## Statements -/

/-- A value as settings have them : a string, an integer, a truth value or an empty list. -/
inductive Simple
  | string (s : String)
  | integer (n : Nat)
  | boolean (b : Bool)
  | nothing
  deriving DecidableEq, Inhabited

/-- The value that a simple value is. -/
def Simple.toValue : Simple → Value
  | .string s => .string s
  | .integer n => .integer n
  | .boolean b => .boolean b
  | .nothing => .array []

/-- The text of a simple value, unless it is an integer that does not fit. -/
def Simple.write? : Simple → Option (List Char)
  | .string s => some (writeString s.toList)
  | .integer n => if fits n then some (Nat.toDigits 10 n) else none
  | .boolean b => some (if b then "true" else "false").toList
  | .nothing => some ['[', ']']

/-- A line to be written. The names in it need no quotes. -/
inductive Line
  | header (path : List String) (name : String)
  | item (path : List String) (name : String)
  | pair (key : String) (value : Simple)
  deriving Inhabited

/-- The statement that a line is. -/
def Line.toStatement : Line → Statement
  | .header path name => .header path name
  | .item path name => .item path name
  | .pair key value => .pair [] key value.toValue

/-- A dotted key. -/
def writePath : List String → String → List Char
  | [], name => name.toList
  | part :: path, name => part.toList ++ '.' :: writePath path name

/-- The text of a line, with what parts it from the lines before. -/
def Line.write? (first : Bool) : Line → Option (List Char)
  | .header path name =>
    some ((if first then [] else ['\n']) ++ '[' :: writePath path name ++ [']', '\n'])
  | .item path name =>
    some ((if first then [] else ['\n']) ++ '[' :: '[' :: writePath path name ++ [']', ']', '\n'])
  | .pair key value =>
    value.write?.map fun v => key.toList ++ [' ', '=', ' '] ++ v ++ ['\n']

/-- The text of lines, unless one of them cannot be written. -/
def writeLines? : Bool → List Line → Option (List Char)
  | _, [] => some []
  | first, l :: rest =>
    match l.write? first, writeLines? false rest with
    | some s, some r => some (s ++ r)
    | _, _ => none

end Tether.Toml
