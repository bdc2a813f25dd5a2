import LiveLayout.Json.Basic

/-!
# Settings

The values a layout is configured with: JSON in which a string that starts
with `$` is an expression, to be evaluated when the value is needed. Whether a
string is one is decided by its text alone, so settings and JSON values stand
for each other.
-/

namespace LiveLayout

inductive Setting where
  | null
  | bool (value : Bool)
  | number (value : Number)
  | string (value : String)
  | expression (source : String)
  | list (items : List Setting)
  | map (entries : List (String × Setting))
  deriving Inhabited

namespace Setting

def marksExpression (s : String) : Bool := s.toList.head? == some '$'

def ofString (s : String) : Setting := if marksExpression s then .expression s else .string s

mutual
def ofJson : Json → Setting
  | .null => .null
  | .bool b => .bool b
  | .number n => .number n
  | .string s => ofString s
  | .array items => .list (ofItems items)
  | .object fields => .map (ofFields fields)
def ofItems : List Json → List Setting
  | [] => []
  | v :: rest => ofJson v :: ofItems rest
def ofFields : List (String × Json) → List (String × Setting)
  | [] => []
  | (k, v) :: rest => (k, ofJson v) :: ofFields rest
end

mutual
def toJson : Setting → Json
  | .null => .null
  | .bool b => .bool b
  | .number n => .number n
  | .string s | .expression s => .string s
  | .list items => .array (itemsJson items)
  | .map entries => .object (entriesJson entries)
def itemsJson : List Setting → List Json
  | [] => []
  | v :: rest => v.toJson :: itemsJson rest
def entriesJson : List (String × Setting) → List (String × Json)
  | [] => []
  | (k, v) :: rest => (k, v.toJson) :: entriesJson rest
end

def isExpression : Setting → Bool
  | .expression _ => true
  | _ => false

def expression? : Setting → Option String
  | .expression source => some source
  | _ => none

mutual
/-- Sources of the expressions at any depth, in document order. -/
def expressions : Setting → List String
  | .expression source => [source]
  | .list items => itemExpressions items
  | .map entries => entryExpressions entries
  | _ => []
def itemExpressions : List Setting → List String
  | [] => []
  | v :: rest => v.expressions ++ itemExpressions rest
def entryExpressions : List (String × Setting) → List String
  | [] => []
  | (_, v) :: rest => v.expressions ++ entryExpressions rest
end

theorem toJson_ofString (s : String) : (ofString s).toJson = .string s := by
  unfold ofString; split <;> rfl

end Setting

end LiveLayout
