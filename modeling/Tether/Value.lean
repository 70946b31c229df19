import Tether.Number.Decimal
import Tether.Text.Quoted

/-!
# Component values

A `Value` is what a component of an entity holds and what a host object gives for one of its
capabilities. Two relations compare values. Equality of the type is identity : the same shape
and the same bits. `Value.agrees` is the comparison that synchronization makes : shapes never
mix, and numbers inside compare as numbers, so a value that holds something that is not a
number does not even agree with itself (`Value.agrees_self_iff`).
-/

namespace Tether

/-- A dynamically typed component value. -/
inductive Value
  | bool (b : Bool)
  | int (n : Int64)
  | float (x : Binary64)
  | vec3 (x y z : Binary64)
  | quat (x y z w : Binary64)
  | text (s : String)
  deriving DecidableEq, Inhabited

namespace Value

/-- Name of the shape of a value. -/
def kind : Value → String
  | .bool _ => "bool"
  | .int _ => "int"
  | .float _ => "float"
  | .vec3 .. => "vec3"
  | .quat .. => "quat"
  | .text _ => "text"

/-! ## Views -/

/-- The truth value of a `bool`. -/
def asBool? : Value → Option Bool
  | .bool b => some b
  | _ => none

/-- The number of an `int`. -/
def asInt? : Value → Option Int64
  | .int n => some n
  | _ => none

/-- The number of a `float`, or of an `int` widened to one. -/
def asFloat? : Value → Option Binary64
  | .float x => some x
  | .int n => some (Binary64.ofInt64 n)
  | _ => none

/-- The three numbers of a `vec3`. -/
def asVec3? : Value → Option (Binary64 × Binary64 × Binary64)
  | .vec3 x y z => some (x, y, z)
  | _ => none

/-- The four numbers of a `quat`. -/
def asQuat? : Value → Option (Binary64 × Binary64 × Binary64 × Binary64)
  | .quat x y z w => some (x, y, z, w)
  | _ => none

/-- The text of a `text`. -/
def asText? : Value → Option String
  | .text s => some s
  | _ => none

/-! ## Agreement -/

/-- Whether two values are equal as a program compares them. -/
def agrees : Value → Value → Bool
  | .bool a, .bool b => a = b
  | .int a, .int b => a = b
  | .float a, .float b => a.agrees b
  | .vec3 a₁ a₂ a₃, .vec3 b₁ b₂ b₃ => a₁.agrees b₁ && a₂.agrees b₂ && a₃.agrees b₃
  | .quat a₁ a₂ a₃ a₄, .quat b₁ b₂ b₃ b₄ =>
    a₁.agrees b₁ && a₂.agrees b₂ && a₃.agrees b₃ && a₄.agrees b₄
  | .text a, .text b => a = b
  | _, _ => false

/-- Whether a value holds something that is not a number. -/
def hasNaN : Value → Bool
  | .float x => x.isNaN
  | .vec3 x y z => x.isNaN || y.isNaN || z.isNaN
  | .quat x y z w => x.isNaN || y.isNaN || z.isNaN || w.isNaN
  | _ => false

theorem agrees_self_iff (v : Value) : v.agrees v = true ↔ v.hasNaN = false := by
  have key : ∀ x : Binary64, x.agrees x = !x.isNaN := by
    intro x
    cases h : x.isNaN
    · simp [Binary64.agrees_self h]
    · simp [Binary64.not_agrees_of_isNaN h]
  cases v <;> simp [agrees, hasNaN, key, and_assoc]

theorem agrees_comm (v w : Value) : v.agrees w = w.agrees v := by
  cases v <;> cases w <;> simp [agrees, Binary64.agrees_comm, eq_comm]

theorem agrees_trans {u v w : Value} (huv : u.agrees v = true) (hvw : v.agrees w = true) :
    u.agrees w = true := by
  cases u <;> cases v <;> cases w <;>
    simp_all only [agrees, Bool.and_eq_true, decide_eq_true_eq, Bool.false_eq_true] <;>
    grind [Binary64.agrees_trans]

/-! ## Text -/

/-- The text of a value : numbers in their shortest form, vectors between parentheses, text
quoted. -/
def render : Value → String
  | .bool b => if b then "true" else "false"
  | .int n => toString n.toInt
  | .float x => x.text
  | .vec3 x y z => "(" ++ x.text ++ ", " ++ y.text ++ ", " ++ z.text ++ ")"
  | .quat x y z w => "(" ++ x.text ++ ", " ++ y.text ++ ", " ++ z.text ++ ", " ++ w.text ++ ")"
  | .text s => quoted s

end Value

end Tether
