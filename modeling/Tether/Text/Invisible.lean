import Tether.Text.Extending
import Tether.Text.Unassigned

/-!
# Characters that do not stand for themselves

A text that shows its characters plainly writes some of them by number (`isInvisible`) : those
without a picture of their own, which are controls, format characters, private use and every
separator but the space (`Ranges.unseen`), those that are no characters
(`Ranges.unassigned`), and those that would be drawn onto the one before them
(`Ranges.extending`).
-/

namespace Tether

/-- Controls, format characters, private use, separators other than the space. -/
def Ranges.unseen : Ranges :=
  [(0x0, 0x1f), (0x7f, 0xa0), (0xad, 0xad), (0x600, 0x605), (0x61c, 0x61c), (0x6dd, 0x6dd),
   (0x70f, 0x70f), (0x890, 0x891), (0x8e2, 0x8e2), (0x1680, 0x1680), (0x180e, 0x180e),
   (0x2000, 0x200f), (0x2028, 0x202f), (0x205f, 0x2064), (0x2066, 0x206f), (0x3000, 0x3000),
   (0xd800, 0xf8ff), (0xfeff, 0xfeff), (0xfff9, 0xfffb), (0x110bd, 0x110bd), (0x110cd, 0x110cd),
   (0x13430, 0x1343f), (0x1bca0, 0x1bca3), (0x1d173, 0x1d17a), (0xe0001, 0xe0001),
   (0xe0020, 0xe007f), (0xf0000, 0xffffd), (0x100000, 0x10fffd)]

example : Ranges.unseen.isAscendingFrom 0 = true := by decide +kernel

/-- Whether a character cannot be shown as itself. Plain ASCII is decided without the
tables. -/
def isInvisible (c : Char) : Bool :=
  let n := c.toNat
  if n < 0x20 then true
  else if n < 0x7f then false
  else Ranges.unseen.contains n || Ranges.unassigned.contains n || Ranges.extending.contains n

example : isInvisible 'a' = false ∧ isInvisible 'é' = false := by decide +kernel

example : isInvisible '\u0301' = true ∧ isInvisible '\u0378' = true := by decide +kernel

end Tether
