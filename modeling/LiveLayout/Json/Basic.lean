import LiveLayout.Fields
import LiveLayout.Numeric.Binary

/-!
# JSON values

Values of the data format, with the fields of an object in order. A number is
an integer or a finite double.
-/

namespace LiveLayout

open Numeric (Double)

inductive Number where
  | int (value : Int)
  | real (value : Double)
  deriving DecidableEq

/-- The nearest double. -/
def Number.toDouble : Number → Double
  | .int n => .ofInt .double n
  | .real x => x

inductive Json where
  | null
  | bool (value : Bool)
  | number (value : Number)
  | string (value : String)
  | array (items : List Json)
  | object (fields : List (String × Json))
  deriving Inhabited

namespace Json

def int (n : Int) : Json := .number (.int n)

def nat (n : Nat) : Json := .number (.int n)

/-- The value under a name; only objects have names. -/
def field? : Json → String → Option Json
  | .object fields, name => Fields.get? fields name
  | _, _ => none

def string? : Json → Option String
  | .string s => some s
  | _ => none

def isNull : Json → Bool
  | .null => true
  | _ => false

end Json

end LiveLayout
