/-!
# TOML values

The value tree of a TOML document. Floats and dates are kept as they were written: no part of a
catalog is one, so their value is never asked for.
-/

namespace DispatchGen.Toml

inductive Value where
  | string (text : String)
  | integer (value : Int)
  | float (text : String)
  | boolean (value : Bool)
  | datetime (text : String)
  | array (items : List Value)
  | table (entries : List (String × Value))
deriving Repr, Inhabited

namespace Value

def isTable : Value → Bool
  | table _ => true
  | _ => false

end Value

/-- The largest integer TOML can express; the least is the negative of its successor. -/
def maxInteger : Int := 9223372036854775807

end DispatchGen.Toml
