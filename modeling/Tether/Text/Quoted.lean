import Tether.Text.Invisible

/-!
# Quoted text

`quoted` writes a text between double quotes. The five characters that have a short escape
and the quote and backslash are written with it, a character that cannot be shown as itself
(`isInvisible`) is written by its number, and every other character stands for itself.
-/

namespace Tether

/-- The escape of one character, or the character itself. -/
def quotedChar (c : Char) : List Char :=
  if c = '\x00' then ['\\', '0']
  else if c = '\t' then ['\\', 't']
  else if c = '\r' then ['\\', 'r']
  else if c = '\n' then ['\\', 'n']
  else if c = '"' then ['\\', '"']
  else if c = '\\' then ['\\', '\\']
  else if isInvisible c then
    '\\' :: 'u' :: '\x7b' :: Nat.toDigits 16 c.toNat ++ ['\x7d']
  else [c]

/-- A text between double quotes, with escapes. -/
def quoted (s : String) : String :=
  String.ofList ('"' :: s.toList.flatMap quotedChar ++ ['"'])

end Tether
