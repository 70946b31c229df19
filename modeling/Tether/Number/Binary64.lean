/-!
# Binary floating point by its bits

A `Binary64` is the 64 bits of a binary floating-point number, so that two numbers are the
same value of the type exactly when they have the same bits. The comparison that a program
makes between numbers is a different relation, `Binary64.agrees` : a number that is not a
number agrees with nothing, and the two zeros agree.

Arithmetic goes through the machine's own `Float`. What decides control flow (comparison,
sign, the decoding into a mantissa and an exponent, the rounding to a natural number) is
written on the bits.
-/

namespace Tether

-- A power of numbers is the core's own, also in a development that imports another.
attribute [instance (1100), default_instance 20000] instPowNat

/-- The 64 bits of a floating-point number : sign, eleven bits of exponent, 52 of fraction. -/
structure Binary64 where
  bits : UInt64
  deriving DecidableEq, Inhabited

namespace Binary64

/-- The bits of a machine number. -/
def ofFloat (x : Float) : Binary64 := ⟨x.toBits⟩

/-- The machine number with these bits. -/
def toFloat (x : Binary64) : Float := Float.ofBits x.bits

/-! ## The parts of a number -/

/-- The sign bit. -/
def negative (x : Binary64) : Bool := x.bits.toNat / 2 ^ 63 = 1

/-- The exponent field. -/
def exponentField (x : Binary64) : Nat := x.bits.toNat / 2 ^ 52 % 2 ^ 11

/-- The fraction field. -/
def fraction (x : Binary64) : Nat := x.bits.toNat % 2 ^ 52

/-- The bits below the sign. -/
def magnitude (x : Binary64) : Nat := x.bits.toNat % 2 ^ 63

/-- Not a number : the exponent is all ones and the fraction is not zero. -/
def isNaN (x : Binary64) : Bool := x.exponentField = 2047 && x.fraction ≠ 0

/-- One of the two infinities. -/
def isInfinite (x : Binary64) : Bool := x.exponentField = 2047 && x.fraction = 0

/-- One of the two zeros. -/
def isZero (x : Binary64) : Bool := x.magnitude = 0

/-- A finite number is `mantissa` times two to the `scale`, up to its sign. -/
def mantissa (x : Binary64) : Nat :=
  if x.exponentField = 0 then x.fraction else x.fraction + 2 ^ 52

/-- The power of two that the mantissa counts. -/
def scale (x : Binary64) : Int :=
  if x.exponentField = 0 then -1074 else (x.exponentField : Int) - 1075

/-! ## Comparison -/

/-- Equality of numbers : the same bits, or two zeros, and never with what is not a
number. -/
def agrees (x y : Binary64) : Bool :=
  !x.isNaN && !y.isNaN && (x = y || x.isZero && y.isZero)

/-- A number's place in the order of numbers, zero for both zeros. -/
def rank (x : Binary64) : Int := if x.negative then -(x.magnitude : Int) else x.magnitude

/-- Order of numbers; nothing is below or above what is not a number. -/
def less (x y : Binary64) : Bool := !x.isNaN && !y.isNaN && x.rank < y.rank

theorem agrees_self {x : Binary64} (h : x.isNaN = false) : x.agrees x = true := by
  simp [agrees, h]

theorem agrees_comm (x y : Binary64) : x.agrees y = y.agrees x := by
  unfold agrees
  have : (decide (x = y)) = decide (y = x) := by simp [eq_comm]
  rw [this]
  cases x.isNaN <;> cases y.isNaN <;> cases x.isZero <;> cases y.isZero <;> simp

theorem not_agrees_of_isNaN {x : Binary64} (h : x.isNaN = true) (y : Binary64) :
    x.agrees y = false := by
  simp [agrees, h]

theorem agrees_trans {x y z : Binary64} (hxy : x.agrees y = true) (hyz : y.agrees z = true) :
    x.agrees z = true := by
  simp only [agrees, Bool.and_eq_true, Bool.or_eq_true, Bool.not_eq_true',
    decide_eq_true_eq] at hxy hyz ⊢
  obtain ⟨⟨hx, _⟩, hxy⟩ := hxy
  obtain ⟨⟨_, hz⟩, hyz⟩ := hyz
  refine ⟨⟨hx, hz⟩, ?_⟩
  rcases hxy with rfl | ⟨h₁, h₂⟩
  · exact hyz
  · rcases hyz with rfl | ⟨_, h₃⟩
    · exact Or.inr ⟨h₁, h₂⟩
    · exact Or.inr ⟨h₁, h₃⟩

/-! ## Constants and arithmetic -/

/-- The number that stands for every result that is not a number. -/
def nan : Binary64 := ⟨0x7ff8000000000000⟩

/-- Positive zero. -/
def zero : Binary64 := ⟨0⟩

/-- Sum, rounded to nearest. -/
def add (x y : Binary64) : Binary64 := ofFloat (x.toFloat + y.toFloat)

/-- Difference, rounded to nearest. -/
def sub (x y : Binary64) : Binary64 := ofFloat (x.toFloat - y.toFloat)

/-- Product, rounded to nearest. -/
def mul (x y : Binary64) : Binary64 := ofFloat (x.toFloat * y.toFloat)

/-- Quotient, rounded to nearest. -/
def div (x y : Binary64) : Binary64 := ofFloat (x.toFloat / y.toFloat)

instance : Add Binary64 := ⟨add⟩
instance : Sub Binary64 := ⟨sub⟩
instance : Mul Binary64 := ⟨mul⟩
instance : Div Binary64 := ⟨div⟩

/-- The nearest number to an unsigned integer. -/
def ofUInt64 (n : UInt64) : Binary64 := ofFloat n.toFloat

/-- The nearest number to a signed integer. -/
def ofInt64 (n : Int64) : Binary64 := ofFloat n.toFloat

/-- The nearest number to a natural number below two to the 64. -/
def ofNat (n : Nat) : Binary64 := ofUInt64 n.toUInt64

/-- The larger of two numbers; what is not a number gives way to the other. -/
def max (x y : Binary64) : Binary64 :=
  if x.isNaN then y else if y.isNaN then x else if x.less y then y else x

/-! ## Rounding to a natural number -/

/-- The largest count that a machine word holds. -/
def maxCount : Nat := 2 ^ 64 - 1

/-- The whole part as a count : what is not a number and what is negative give zero, and a
number above every count gives the largest. -/
def toCount (x : Binary64) : Nat :=
  if x.isNaN || x.negative then 0
  else if x.isInfinite then maxCount
  else
    let whole := if 0 ≤ x.scale then x.mantissa * 2 ^ x.scale.toNat
      else x.mantissa / 2 ^ (-x.scale).toNat
    min whole maxCount

/-- The next whole number up, as a count with the same limits as `toCount`. -/
def ceilCount (x : Binary64) : Nat :=
  if x.isNaN || x.negative then 0
  else if x.isInfinite then maxCount
  else
    let whole := if 0 ≤ x.scale then x.mantissa * 2 ^ x.scale.toNat
      else (x.mantissa + 2 ^ (-x.scale).toNat - 1) / 2 ^ (-x.scale).toNat
    min whole maxCount

end Binary64

end Tether
