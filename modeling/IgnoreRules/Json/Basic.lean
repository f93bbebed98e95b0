import IgnoreRules.Number.Binary64

/-!
JSON values.  Whole numbers are exact and kept apart from floating-point ones; an object keeps the
order in which its keys first came.
-/

namespace IgnoreRules

inductive Json where
  | null
  | boolean (value : Bool)
  | integer (value : Int)
  | float (value : Binary64)
  | string (value : String)
  | array (elements : List Json)
  | object (fields : List (String × Json))
deriving Repr

namespace Json

def kindName : Json → String
  | null => "NoneType"
  | boolean _ => "bool"
  | integer _ => "int"
  | float _ => "float"
  | string _ => "str"
  | array _ => "list"
  | object _ => "dict"

def isTruthy : Json → Bool
  | null => false
  | boolean value => value
  | integer value => value != 0
  | float (.finite _ significand _) => significand != 0
  | float _ => true
  | string value => value != ""
  | array elements => !elements.isEmpty
  | object fields => !fields.isEmpty

/-- Sets a field; a key that is there already keeps its place. -/
def putField (key : String) (value : Json) : List (String × Json) → List (String × Json)
  | [] => [(key, value)]
  | (other, old) :: rest =>
      if other = key then (key, value) :: rest else (other, old) :: putField key value rest

/-- The fields of an object whose keys and values came one after another; the last value of a
repeated key stays. -/
def ofFields (fields : List (String × Json)) : Json :=
  object (fields.foldl (fun done field => putField field.1 field.2 done) [])

/-- A whole number with more digits than this is neither written nor read. -/
def greatestDigitCount : Nat := 4300

/-- The elements a value lists: those of an array, the characters of a text, the keys of an
object. -/
def elements? : Json → Option (List Json)
  | array elements => some elements
  | string value => some (value.toList.map fun character => string (String.singleton character))
  | object fields => some (fields.map fun field => string field.1)
  | _ => none

end Json

end IgnoreRules
