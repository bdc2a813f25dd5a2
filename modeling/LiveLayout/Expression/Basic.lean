import LiveLayout.Json.Printer

/-!
# Expressions

`$id` names a mounted instance, `$id.method(args)` calls one of its methods
with literal arguments. Here are the terms, their text, and what can be wrong
with a text that should be one.
-/

namespace LiveLayout

structure MethodCall where
  method : String
  args : List Json

structure Expression where
  target : String
  call : Option MethodCall

namespace Expression

/-- Names an instance without calling it. -/
def isReference (e : Expression) : Bool := e.call.isNone

def display (e : Expression) : String :=
  match e.call with
  | none => "$" ++ e.target
  | some call =>
    let args := ", ".intercalate (call.args.map Json.text)
    "$" ++ e.target ++ "." ++ call.method ++ "(" ++ args ++ ")"

example : display ⟨"grid", some ⟨"select", [.int 1, .string "a"]⟩⟩ = "$grid.select(1, \"a\")" := by
  cbv

/-- What a text breaks off in. -/
inductive Construct where
  | argumentList
  | string
  | array
  | object
  deriving DecidableEq

def Construct.name : Construct → String
  | .argumentList => "argument list"
  | .string => "string"
  | .array => "array"
  | .object => "object"

/-- Why a text is no expression. The input is the trimmed text, and positions
count its characters. -/
inductive Problem where
  | missingPrefix (input : String)
  | missingId (input : String) (pos : Nat)
  | missingMethod (input : String) (pos : Nat)
  | unexpected (input : String) (found : Char) (pos : Nat)
  | unterminated (input : String) (what : Construct)
  | chainedCall (input : String)
  | nestedExpression (input : String)
  deriving DecidableEq

def Problem.message : Problem → String
  | .missingPrefix input => s!"expression must start with '$': {input}"
  | .missingId input pos => s!"expected component id at {pos} in '{input}'"
  | .missingMethod input pos => s!"expected method name at {pos} in '{input}'"
  | .unexpected input found pos => s!"unexpected '{found}' at {pos} in '{input}'"
  | .unterminated input what => s!"unterminated {what.name} in '{input}'"
  | .chainedCall input => s!"chained calls are not supported: '{input}'"
  | .nestedExpression input =>
    s!"nested expressions are not supported in arguments: '{input}'"

end Expression

end LiveLayout
