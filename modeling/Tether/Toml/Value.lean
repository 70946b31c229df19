/-!
# TOML values

The values of TOML 1.0. Numbers with a fraction and dates are kept as they are written, since
no setting is one.
-/

namespace Tether.Toml

/-- A value of a document. -/
inductive Value
  | string (s : String)
  | integer (n : Int)
  | float (text : String)
  | boolean (b : Bool)
  | datetime (text : String)
  | array (items : List Value)
  | table (entries : List (String × Value))
  deriving Inhabited

/-- The least integer of a document. -/
def leastInteger : Int := -2 ^ 63

/-- The greatest integer of a document. -/
def greatestInteger : Int := 2 ^ 63 - 1

/-- Whether an integer can stand in a document. -/
def fits (n : Int) : Bool := leastInteger ≤ n && n ≤ greatestInteger

end Tether.Toml
