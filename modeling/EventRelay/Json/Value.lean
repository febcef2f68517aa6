import EventRelay.Ascending
import EventRelay.Decimal.Layout

/-!
JSON values. Integers are kept exactly if 64 bits hold them and every other number is in binary
floating point. Members of an object stand in ascending order of their names.
-/

namespace EventRelay.Json

inductive Number
  | integer (value : Int)
  | float (negative : Bool) (magnitude : Binary64)
  deriving DecidableEq

inductive Value
  | null
  | bool (b : Bool)
  | number (n : Number)
  | string (s : String)
  | array (items : List Value)
  | object (members : List (String × Value))

instance : Inhabited Value := ⟨.null⟩

namespace Number

/-- Places are written out from the fifth decimal to sixteen digits before the point. -/
def layout : DecimalLayout := ⟨-5, 15, ['.', '0'], ['+']⟩

def chars : Number → List Char
  | .integer i => (Digits.signedText i).toList
  | .float negative x => (if negative then ['-'] else []) ++ layout.chars x

end Number

end EventRelay.Json
