import Tether.Toml.Characters

/-!
# Strings of a TOML document

The four ways to write a string : basic strings with escapes, literal strings without, and of
each a form that may run over several lines. A line end in a string counts as a line feed. A
form over several lines may end with one or two of its own quotes before the closing ones.
-/

namespace Tether.Toml

/-! ## Escapes -/

/-- The value of a hexadecimal digit. -/
def hexDigit? (c : Char) : Option Nat :=
  if c.isDigit then some (c.toNat - '0'.toNat)
  else if 'a' ≤ c ∧ c ≤ 'f' then some (c.toNat - 'a'.toNat + 10)
  else if 'A' ≤ c ∧ c ≤ 'F' then some (c.toNat - 'A'.toNat + 10)
  else none

/-- The number that hexadecimal digits write, from a number that is already read. -/
def hexNumber? (n : Nat) : List Char → Option Nat
  | [] => some n
  | c :: r => (hexDigit? c).bind fun d => hexNumber? (16 * n + d) r

/-- The character with a code point given in hexadecimal digits. -/
def codePoint? (digits : List Char) : Option Char :=
  match hexNumber? 0 digits with
  | some n => if n.isValidChar then some (Char.ofNat n) else none
  | none => none

/-- The character that a short escape stands for. -/
def shortEscape? (c : Char) : Option Char :=
  if c = 'b' then some '\x08'
  else if c = 't' then some '\t'
  else if c = 'n' then some '\n'
  else if c = 'f' then some '\x0c'
  else if c = 'r' then some '\r'
  else if c = '"' then some '"'
  else if c = '\\' then some '\\'
  else none

/-- Put a character in front of what a reader took. -/
def prepend (c : Option Char) (rest : Option (List Char × List Char)) :
    Option (List Char × List Char) :=
  match c, rest with
  | some c, some (s, r) => some (c :: s, r)
  | _, _ => none

/-! ## Basic strings -/

/-- The inside of a basic string up to its closing quote. -/
def basic? : List Char → Option (List Char × List Char)
  | [] => none
  | c :: r =>
    if c = '"' then some ([], r)
    else if c = '\\' then
      match r with
      | 'u' :: a :: b :: c :: d :: r => prepend (codePoint? [a, b, c, d]) (basic? r)
      | 'U' :: a :: b :: c :: d :: e :: f :: g :: h :: r =>
        prepend (codePoint? [a, b, c, d, e, f, g, h]) (basic? r)
      | e :: r => prepend (shortEscape? e) (basic? r)
      | [] => none
    else if isControl c then none
    else prepend (some c) (basic? r)

/-- Whether nothing but blanks stands before the next line end. -/
def endsLine (s : List Char) : Bool := (newline? (skipBlanks s)).isSome

/-- The inside of a basic string over several lines up to its closing quotes. After a backslash
at the end of a line, blanks and line ends are skipped. -/
def longBasic? (skipping : Bool) : List Char → Option (List Char × List Char)
  | [] => none
  | '\r' :: '\n' :: r =>
    if skipping then longBasic? true r else prepend (some '\n') (longBasic? false r)
  | '"' :: '"' :: '"' :: '"' :: '"' :: r => some (['"', '"'], r)
  | '"' :: '"' :: '"' :: '"' :: r => some (['"'], r)
  | '"' :: '"' :: '"' :: r => some ([], r)
  | c :: r =>
    if c = '\n' then
      if skipping then longBasic? true r else prepend (some '\n') (longBasic? false r)
    else if skipping && isBlank c then longBasic? true r
    else if c = '\\' then
      if endsLine r then longBasic? true r
      else
        match r with
        | 'u' :: a :: b :: c :: d :: r => prepend (codePoint? [a, b, c, d]) (longBasic? false r)
        | 'U' :: a :: b :: c :: d :: e :: f :: g :: h :: r =>
          prepend (codePoint? [a, b, c, d, e, f, g, h]) (longBasic? false r)
        | e :: r => prepend (shortEscape? e) (longBasic? false r)
        | [] => none
    else if isControl c then none
    else prepend (some c) (longBasic? false r)

/-! ## Literal strings -/

/-- The inside of a literal string up to its closing quote. -/
def literal? : List Char → Option (List Char × List Char)
  | [] => none
  | c :: r =>
    if c = '\'' then some ([], r)
    else if isControl c then none
    else prepend (some c) (literal? r)

/-- The inside of a literal string over several lines up to its closing quotes. -/
def longLiteral? : List Char → Option (List Char × List Char)
  | [] => none
  | '\r' :: '\n' :: r => prepend (some '\n') (longLiteral? r)
  | '\'' :: '\'' :: '\'' :: '\'' :: '\'' :: r => some (['\'', '\''], r)
  | '\'' :: '\'' :: '\'' :: '\'' :: r => some (['\''], r)
  | '\'' :: '\'' :: '\'' :: r => some ([], r)
  | c :: r =>
    if isControl c && c ≠ '\n' then none else prepend (some c) (longLiteral? r)

/-! ## All strings -/

/-- Drop a line end that follows opening quotes at once. -/
def dropNewline (s : List Char) : List Char := (newline? s).getD s

/-- A string of any form; its opening quote decides which. -/
def string? : List Char → Option (List Char × List Char)
  | '"' :: '"' :: '"' :: r => longBasic? false (dropNewline r)
  | '"' :: r => basic? r
  | '\'' :: '\'' :: '\'' :: r => longLiteral? (dropNewline r)
  | '\'' :: r => literal? r
  | _ => none

end Tether.Toml
