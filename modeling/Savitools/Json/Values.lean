import Savitools.Strings.CodeUnits

namespace Json.Values

open Strings.CodeUnits

/-- A JSON value over some type of numbers. -/
inductive Value (N : Type)
  | null
  | bool (b : Bool)
  | num (n : N)
  | str (t : Text)
  | arr (items : List (Value N))
  | obj (fields : List (Text × Value N))

/-- A member by its name; what is no object has none. -/
def member {N : Type} (name : Text) : Value N → Option (Value N)
  | .obj fields => fields.lookup name
  | _ => none

/-- A member that is a string. -/
def textMember {N : Type} (name : Text) (value : Value N) : Option Text :=
  match member name value with
  | some (.str t) => some t
  | _ => none

/-- `===` with a string. Two arrays or objects are never the same as a string. -/
def Value.strictEqText {N : Type} (t : Text) : Value N → Bool
  | .str s => s == t
  | _ => false

/-- What an `if` makes of a value; of a number that is left to the number. -/
def Value.truthy {N : Type} (isZero : N → Bool) : Value N → Bool
  | .null => false
  | .bool b => b
  | .num n => !isZero n
  | .str t => t != []
  | .arr _ => true
  | .obj _ => true

end Json.Values
