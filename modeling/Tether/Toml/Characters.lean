/-!
# Characters of a TOML document

Which characters may stand where, and how lines end. A reader takes something from the front of
a text and gives back what is left.
-/

namespace Tether.Toml

/-- Space or tab. -/
def isBlank (c : Char) : Bool := c = ' ' || c = '\t'

/-- A control character other than tab, which may stand nowhere. -/
def isControl (c : Char) : Bool := (c.toNat < 0x20 && c ≠ '\t') || c.toNat = 0x7f

/-- A character of a key without quotes. -/
def isBare (c : Char) : Bool := c.isAlphanum || c = '-' || c = '_'

/-- Drop blanks. -/
def skipBlanks (s : List Char) : List Char := s.dropWhile isBlank

/-- Take the end of a line. -/
def newline? : List Char → Option (List Char)
  | '\n' :: r => some r
  | '\r' :: '\n' :: r => some r
  | _ => none

/-- Take the rest of a line, which may hold a comment only. A text may end without a last
line end. -/
def lineEnd? (s : List Char) : Option (List Char) :=
  let s := skipBlanks s
  let s := if s.head? = some '#' then s.dropWhile fun c => !isControl c else s
  match s with
  | [] => some []
  | s => newline? s

/-- Drop blanks, line ends and comments. Inside a comment only its line end leads out. -/
def skipLines (inComment : Bool) : List Char → Option (List Char)
  | [] => if inComment then none else some []
  | c :: r =>
    if c = '\n' then skipLines false r
    else if c = '\r' then
      match r with
      | '\n' :: r => skipLines false r
      | _ => none
    else if inComment then if isControl c then none else skipLines true r
    else if isBlank c then skipLines false r
    else if c = '#' then skipLines true r
    else some (c :: r)

end Tether.Toml
