/-!
# JSON values

The values that a configuration is written in. A number without fraction and exponent is an integer; any other
number is kept as it was written, since no field of a configuration takes one.
-/

namespace Redraw

inductive Json where
  | null
  | bool (b : Bool)
  | integer (n : Int)
  /-- A number written with a fraction or an exponent. -/
  | real (digits : String)
  | string (s : String)
  | array (items : List Json)
  | object (fields : List (String × Json))
  deriving Inhabited

namespace Json

/-- The value of a field among the fields of an object, nothing when it is missing. -/
def field? (fields : List (String × Json)) (name : String) : Option Json :=
  fields.lookup name

/-- The fields of a record whose fields are called `names`: an object gives them by name, an array by position. An
array may leave out fields at the end, but has no more values than there are names. -/
def record? (names : List String) : Json → Option (List (String × Json))
  | .object fields => some fields
  | .array items => if items.length ≤ names.length then some (names.zip items) else none
  | _ => none

end Json

end Redraw
