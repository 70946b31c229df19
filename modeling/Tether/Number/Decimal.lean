import Tether.Number.Binary64

/-!
# Decimal text of binary numbers

Two ways to write a `Binary64` in decimal.

`Binary64.text` writes the fewest digits that read back as the same number, always in
positional notation and without a point when the number is whole. The digits come from
`shortest` : on the grid of decimals with `n` significant digits it looks at the two
neighbours of the number, and the first grid on which one of them lies in the interval of
reals that round to the number wins. The nearer neighbour is taken, the upper one if both
are equally near.

`Binary64.fixed` writes a given number of places after the point. It rounds the exact binary
value, and a half goes to the even neighbour (`roundHalfEven`).
-/

namespace Tether

/-- Digits to be read as `digits · 10 ^ exponent`. -/
structure Decimal where
  digits : Nat
  exponent : Int
  deriving DecidableEq, Repr

/-- How many decimal digits a natural number takes. -/
def decimalWidth (n : Nat) : Nat := (Nat.toDigits 10 n).length

/-- A quotient rounded to the nearest natural number, a half to the even one. -/
def roundHalfEven (num den : Nat) : Nat :=
  let q := num / den
  let r := num % den
  if 2 * r < den then q else if den < 2 * r then q + 1 else q + q % 2

namespace Decimal

/-- Write the digits with trailing zeros moved into the exponent. -/
def trim : Nat → Decimal → Decimal
  | 0, d => d
  | fuel + 1, d =>
    if d.digits ≠ 0 ∧ d.digits % 10 = 0 then trim fuel ⟨d.digits / 10, d.exponent + 1⟩ else d

/-- Positional text : zeros are filled in on either side, and there is no point if there are
no places after it. -/
def positional (d : Decimal) : String :=
  let digits := Nat.toDigits 10 d.digits
  if 0 ≤ d.exponent then
    String.ofList (digits ++ List.replicate d.exponent.toNat '0')
  else
    let places := (-d.exponent).toNat
    if places < digits.length then
      let whole := digits.length - places
      String.ofList (digits.take whole ++ '.' :: digits.drop whole)
    else
      String.ofList ('0' :: '.' :: List.replicate (places - digits.length) '0' ++ digits)

end Decimal

namespace Binary64

/-- A finite number other than zero in units of a quarter of its last place, with the
interval of reals that round to it. -/
structure Window where
  low : Nat
  value : Nat
  high : Nat
  /-- Whether the ends of the interval round to the number too. -/
  closed : Bool
  /-- The power of two that one unit stands for. -/
  unit : Int

/-- The window of a number. Below a power of two the gap is half as wide as above it. -/
def window (x : Binary64) : Window :=
  let m := x.mantissa
  { low := if m = 2 ^ 52 ∧ x.scale ≠ -1074 then 4 * m - 1 else 4 * m - 2
    value := 4 * m
    high := 4 * m + 2
    closed := m % 2 = 0
    unit := x.scale - 2 }

/-- The power of ten at the leading digit of `num / den`. -/
def leadingPower (num den : Nat) : Int :=
  if den ≤ num then (decimalWidth (num / den) : Int) - 1
  else -(decimalWidth ((den + num - 1) / num - 1) : Int)

/-- Whether `d` grid steps lie in the window, where a unit of the window is `a` and a grid
step `b`. -/
def Window.admits (w : Window) (a b d : Nat) : Bool :=
  if w.closed then w.low * a ≤ d * b && d * b ≤ w.high * a
  else w.low * a < d * b && d * b < w.high * a

/-- The neighbour of the window's value on the grid of step `10 ^ e` that reads back, if one
does. -/
def Window.onGrid (w : Window) (e : Int) : Option Nat :=
  let a := 2 ^ w.unit.toNat * 10 ^ (-e).toNat
  let b := 2 ^ (-w.unit).toNat * 10 ^ e.toNat
  let below := w.value * a / b
  match w.admits a b below, w.admits a b (below + 1) with
  | true, true =>
    if w.value * a - below * b < (below + 1) * b - w.value * a then some below
    else some (below + 1)
  | true, false => some below
  | false, true => some (below + 1)
  | false, false => none

/-- Try grids of `n`, `n + 1`, … significant digits; `top` is the power of ten of the leading
digit. -/
def Window.search (w : Window) (top : Int) : Nat → Nat → Decimal
  | 0, n => ⟨w.value, top - n⟩
  | fuel + 1, n =>
    let e := top - (n : Int) + 1
    match w.onGrid e with
    | some d => ⟨d, e⟩
    | none => search w top fuel (n + 1)

/-- The fewest digits that read back as a finite number other than zero. Seventeen always
suffice. -/
def shortest (x : Binary64) : Decimal :=
  let w := x.window
  let top := leadingPower (w.value * 2 ^ w.unit.toNat) (2 ^ (-w.unit).toNat)
  (w.search top 17 1).trim 20

/-- The shortest decimal text that reads back as the number. -/
def text (x : Binary64) : String :=
  if x.isNaN then "NaN"
  else
    let sign := if x.negative then "-" else ""
    if x.isInfinite then sign ++ "inf"
    else if x.isZero then sign ++ "0"
    else sign ++ x.shortest.positional

/-- The number with a given number of places after the point, rounded from its exact
value. -/
def fixed (places : Nat) (x : Binary64) : String :=
  if x.isNaN then "NaN"
  else
    let sign := if x.negative then "-" else ""
    if x.isInfinite then sign ++ "inf"
    else
      let scaled := roundHalfEven (x.mantissa * 10 ^ places * 2 ^ x.scale.toNat)
        (2 ^ (-x.scale).toNat)
      let digits := Nat.toDigits 10 scaled
      let padded := List.replicate (places + 1 - digits.length) '0' ++ digits
      let whole := padded.length - places
      if places = 0 then sign ++ String.ofList padded
      else sign ++ String.ofList (padded.take whole ++ '.' :: padded.drop whole)

end Binary64

end Tether
