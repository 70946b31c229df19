import Tether.Toml.Characters
import Tether.Toml.Value

/-!
# Numbers and dates of a TOML document

A number or a date is one word of letters, digits and a few marks; only a date may be followed,
after one space, by a time of day in a word of its own. `Value.ofWord?` says which words are
values. An integer must fit into 64 bits, digits may be grouped by single underscores, and a
number with a fraction must not be too large.
-/

namespace Tether.Toml

/-- A character of a number, a date, a truth value. -/
def isWord (c : Char) : Bool := isBare c || c = '+' || c = '.' || c = ':'

/-! ## Digits -/

/-- Whether a text is digits of a kind, where single underscores may stand between digits. -/
def isGrouped (digit : Char → Bool) : List Char → Bool
  | [] => false
  | [c] => digit c
  | c :: '_' :: r => digit c && isGrouped digit r
  | c :: r => digit c && isGrouped digit r

/-- The value of a digit up to fifteen. -/
def digitValue (c : Char) : Nat :=
  if c.isDigit then c.toNat - '0'.toNat
  else if 'a' ≤ c ∧ c ≤ 'f' then c.toNat - 'a'.toNat + 10
  else c.toNat - 'A'.toNat + 10

/-- The number that digits write, underscores left aside. -/
def digitsValue (base : Nat) (s : List Char) : Nat :=
  s.foldl (fun n c => if c = '_' then n else base * n + digitValue c) 0

/-- Whether a digit is a digit of a base. -/
def isDigitOf (base : Nat) (c : Char) : Bool :=
  (c.isDigit || 'a' ≤ c && c ≤ 'f' || 'A' ≤ c && c ≤ 'F') && digitValue c < base

/-! ## Integers -/

/-- Whether a text is a whole number in decimal digits without a sign : a zero, or digits that
do not begin with zero. -/
def isWhole (s : List Char) : Bool :=
  isGrouped Char.isDigit s && (s = ['0'] || s.head? ≠ some '0')

/-- A sign, if there is one, and what follows it. -/
def splitSign : List Char → Option Char × List Char
  | '+' :: r => (some '+', r)
  | '-' :: r => (some '-', r)
  | s => (none, s)

/-- The integer that a word writes in a base with a mark in front. -/
def basedInteger? (base : Nat) (digits : List Char) : Option Int :=
  if isGrouped (isDigitOf base) digits then some (digitsValue base digits) else none

/-- The integer that a word writes. -/
def integer? (word : List Char) : Option Int :=
  match word with
  | '0' :: 'x' :: r => basedInteger? 16 r
  | '0' :: 'o' :: r => basedInteger? 8 r
  | '0' :: 'b' :: r => basedInteger? 2 r
  | _ =>
    let (sign, s) := splitSign word
    if isWhole s then
      some (if sign = some '-' then -(digitsValue 10 s : Int) else digitsValue 10 s)
    else none

/-! ## Numbers with a fraction -/

/-- The parts of a number in decimal notation : the digits before and after the point, and the
exponent. -/
structure DecimalParts where
  whole : List Char
  fraction : Option (List Char)
  exponent : Option (List Char)

/-- Split a word without sign at its point and at the mark of its exponent. -/
def decimalParts (s : List Char) : DecimalParts :=
  let isMark := fun c : Char => c = 'e' || c = 'E'
  let mantissa := s.takeWhile fun c => !isMark c
  let whole := mantissa.takeWhile fun c => c ≠ '.'
  { whole
    fraction := if whole.length = mantissa.length then none
      else some (mantissa.drop (whole.length + 1))
    exponent := if mantissa.length = s.length then none
      else some (s.drop (mantissa.length + 1)) }

/-- Whether a number of so many tenths to a power rounds to infinity : it is at least half a
unit above the greatest number. -/
def isTooLarge (digits : Nat) (power : Int) : Bool :=
  let limit := 2 ^ 1024 - 2 ^ 970
  if digits = 0 then false
  else if 0 ≤ power then 400 ≤ power || limit ≤ digits * 10 ^ power.toNat
  else
    let places := (-power).toNat
    if (Nat.log2 digits) < places then false else limit * 10 ^ places ≤ digits

/-- Whether a word is a number with a fraction or an exponent, or one of the words for what is
not a finite number. -/
def isFloat (word : List Char) : Bool :=
  let (sign, s) := splitSign word
  if s = ['i', 'n', 'f'] || s = ['n', 'a', 'n'] then true
  else
    let p := decimalParts s
    let exponent := (p.exponent.map splitSign).getD (none, ['0'])
    let fraction := p.fraction.getD ['0']
    let digits := digitsValue 10 (p.whole ++ fraction)
    let size : Int := digitsValue 10 exponent.2
    let power := (if exponent.1 = some '-' then -size else size) -
      (fraction.filter fun c => c ≠ '_').length
    (p.fraction.isSome || p.exponent.isSome) && isWhole p.whole &&
      isGrouped Char.isDigit fraction && isGrouped Char.isDigit exponent.2 &&
      (sign = some '-' || !isTooLarge digits power)

/-! ## Dates and times -/

/-- A number of exactly so many digits at the front of a text. -/
def fixedDigits? (n : Nat) (s : List Char) : Option (Nat × List Char) :=
  if (s.take n).length = n && (s.take n).all Char.isDigit then
    some (digitsValue 10 (s.take n), s.drop n)
  else none

/-- Days of a month. -/
def daysOfMonth (year month : Nat) : Nat :=
  if month = 2 then
    if year % 4 = 0 && (year % 100 ≠ 0 || year % 400 = 0) then 29 else 28
  else if month = 4 || month = 6 || month = 9 || month = 11 then 30
  else 31

/-- Take a date. -/
def date? (s : List Char) : Option (List Char) :=
  match fixedDigits? 4 s with
  | some (year, '-' :: s) =>
    match fixedDigits? 2 s with
    | some (month, '-' :: s) =>
      match fixedDigits? 2 s with
      | some (day, s) =>
        if 1 ≤ month && month ≤ 12 && 1 ≤ day && day ≤ daysOfMonth year month then some s
        else none
      | none => none
    | _ => none
  | _ => none

/-- Take a part of a second, if there is one. -/
def secondPart? : List Char → Option (List Char)
  | '.' :: c :: r => if c.isDigit then some (r.dropWhile Char.isDigit) else none
  | '.' :: [] => none
  | s => some s

/-- Take a time of day. -/
def time? (s : List Char) : Option (List Char) :=
  match fixedDigits? 2 s with
  | some (hour, ':' :: s) =>
    match fixedDigits? 2 s with
    | some (minute, ':' :: s) =>
      match fixedDigits? 2 s with
      | some (second, s) =>
        if hour ≤ 23 && minute ≤ 59 && second ≤ 60 then secondPart? s else none
      | none => none
    | _ => none
  | _ => none

/-- Whether a text is a distance from universal time. -/
def isOffset : List Char → Bool
  | ['Z'] => true
  | ['z'] => true
  | c :: s =>
    (c = '+' || c = '-') &&
      match fixedDigits? 2 s with
      | some (hour, ':' :: s) =>
        match fixedDigits? 2 s with
        | some (minute, []) => hour ≤ 23 && minute ≤ 59
        | _ => false
      | _ => false
  | [] => false

/-- Whether a text is a time of day, perhaps with a distance from universal time. -/
def isTimeOfDate (s : List Char) : Bool :=
  match time? s with
  | some [] => true
  | some r => isOffset r
  | none => false

/-- Whether a word is a date alone. -/
def isDate (word : List Char) : Bool := date? word = some []

/-- Whether a word is a date with a time, or a time. -/
def isDateTime (word : List Char) : Bool :=
  match date? word with
  | some (c :: r) => (c = 'T' || c = 't') && isTimeOfDate r
  | some [] => false
  | none => time? word = some []

/-! ## Words -/

/-- The value that a word writes. -/
def Value.ofWord? (word : List Char) : Option Value :=
  if word = ['t', 'r', 'u', 'e'] then some (.boolean true)
  else if word = ['f', 'a', 'l', 's', 'e'] then some (.boolean false)
  else
    match integer? word with
    | some n => if fits n then some (.integer n) else none
    | none =>
      if isFloat word then some (.float (String.ofList word))
      else if isDate word || isDateTime word then some (.datetime (String.ofList word))
      else none

/-- Take a value of one word, or a date and a time of day with one space between. -/
def word? (s : List Char) : Option (Value × List Char) :=
  let word := s.takeWhile isWord
  let rest := s.dropWhile isWord
  match rest with
  | ' ' :: r =>
    let time := r.takeWhile isWord
    if isDate word && isTimeOfDate time then
      some (.datetime (String.ofList (word ++ ' ' :: time)), r.dropWhile isWord)
    else (Value.ofWord? word).map fun v => (v, rest)
  | _ => (Value.ofWord? word).map fun v => (v, rest)

end Tether.Toml
