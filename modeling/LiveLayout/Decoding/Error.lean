import LiveLayout.Json.Document
import LiveLayout.Json.Printer
import LiveLayout.Text.Quoted

/-!
# What is wrong with a document

A document is refused because its text is broken, or because its content has
another shape than the one expected. The second has a message, which names what
was found, by its kind or its value, and what was expected.
-/

namespace LiveLayout.Decoding

open Json (Document Fault)

inductive Found where
  | null
  | bool (value : Bool)
  | number (value : Number)
  | string (value : String)
  | sequence
  | map
  deriving DecidableEq

def Found.text : Found → String
  | .null => "null"
  | .bool b => s!"boolean `{b}`"
  | .number (.int n) => s!"integer `{String.ofList (Json.intText n)}`"
  | .number (.real x) => s!"floating point `{String.ofList (Json.doubleText x)}`"
  | .string s => "string " ++ Text.quoted s
  | .sequence => "sequence"
  | .map => "map"

inductive Mismatch where
  | missingField (name : String)
  | duplicateField (name : String)
  | unknownVariant (name : String) (known : List String)
  | unknownVariantIndex (index : Int) (count : Nat)
  | noVariant (type : String)
  | invalidType (found : Found) (expected : String)
  | invalidValue (found : Found) (expected : String)
  | invalidLength (length : Nat) (expected : String)
  deriving DecidableEq

def ticked (name : String) : String := "`" ++ name ++ "`"

def oneOf : List String → String
  | [a] => ticked a
  | [a, b] => ticked a ++ " or " ++ ticked b
  | names => "one of " ++ ", ".intercalate (names.map ticked)

def Mismatch.message : Mismatch → String
  | .missingField name => "missing field " ++ ticked name
  | .duplicateField name => "duplicate field " ++ ticked name
  | .unknownVariant name known => "unknown variant " ++ ticked name ++ ", expected " ++ oneOf known
  | .unknownVariantIndex index count =>
    s!"invalid value: {(Found.number (.int index)).text}, expected variant index 0 <= i < {count}"
  | .noVariant type => s!"data did not match any variant of untagged enum {type}"
  | .invalidType found expected => s!"invalid type: {found.text}, expected {expected}"
  | .invalidValue found expected => s!"invalid value: {found.text}, expected {expected}"
  | .invalidLength length expected => s!"invalid length {length}, expected {expected}"

inductive Error where
  | fault (fault : Fault)
  | mismatch (mismatch : Mismatch)
  deriving DecidableEq

abbrev Result (α : Type) := Except Error α

def fail (m : Mismatch) : Result α := .error (.mismatch m)

def fault (f : Fault) : Result α := .error (.fault f)

/-- Refuses a document that is not of an expected kind; at a broken place, that
is what counts. -/
def refuse (expected : String) : Document → Result α
  | .null => fail (.invalidType .null expected)
  | .bool b => fail (.invalidType (.bool b) expected)
  | .number n => fail (.invalidType (.number n) expected)
  | .string s => fail (.invalidType (.string s) expected)
  | .array .. => fail (.invalidType .sequence expected)
  | .object .. => fail (.invalidType .map expected)
  | .broken flaw => fault flaw.read

end LiveLayout.Decoding
