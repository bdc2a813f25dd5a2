import LiveLayout.Expression.Parser
import LiveLayout.Live.Stage

/-!
# Evaluation

Expressions come to values by way of the instances in a directory. Whatever
goes wrong is said in a warning, and the expression is undefined: its text is
not one, nobody has the id, the method is not for expressions, the instance is
busy, or the call fails. Settings are resolved by evaluating the expressions in
them, either only at the top or at any depth.
-/

namespace LiveLayout.Live

variable {W : Type} [Widget W]

def evaluateExpression (d : Directory) (e : Expression) : Act W Resolved := do
  match Fields.get? d e.target with
  | none =>
    Act.warn (.notMounted e)
    pure .undefined
  | some entry =>
    match e.call with
    | none => pure (.reference entry.handle)
    | some call =>
      if entry.capabilities.allows call.method then
        match ← Act.invoke .expression entry.handle call.method call.args with
        | none =>
          Act.warn (.targetBusy e)
          pure .undefined
        | some (.ok v) => pure (.value v)
        | some (.error error) =>
          Act.warn (.callFailed e error)
          pure .undefined
      else
        Act.warn (.notAvailable e call.method)
        pure .undefined

def evaluate (d : Directory) (source : String) : Act W Resolved := do
  Act.record (.evaluated d source)
  match Expression.parse source with
  | .error problem =>
    Act.warn (.malformed problem)
    pure .undefined
  | .ok e => evaluateExpression d e

/-- An expression is evaluated, anything else stands for itself. -/
def resolve (d : Directory) : Setting → Act W Resolved
  | .expression source => evaluate d source
  | s => pure (.value s.toJson)

/-- An expression whose value is to be sent. Instances cannot be. -/
def evaluateToSend (d : Directory) (source : String) : Act W (Option Json) := do
  match ← evaluate d source with
  | .value v => pure (some v)
  | .reference _ =>
    Act.warn (.cannotSend source)
    pure none
  | .undefined => pure none

mutual
/-- Evaluates the expressions at any depth. What has no value is null in a list
and missing in a map. -/
def resolveWithin (d : Directory) : Setting → Act W (Option Json)
  | .expression source => evaluateToSend d source
  | .list items => do
    let values ← resolveItems d items
    pure (some (.array values))
  | .map entries => do
    let values ← resolveEntries d entries
    pure (some (.object values))
  | .null => pure (some .null)
  | .bool b => pure (some (.bool b))
  | .number n => pure (some (.number n))
  | .string s => pure (some (.string s))
def resolveItems (d : Directory) : List Setting → Act W (List Json)
  | [] => pure []
  | s :: rest => do
    let v ← resolveWithin d s
    let vs ← resolveItems d rest
    pure (v.getD .null :: vs)
def resolveEntries (d : Directory) : List (String × Setting) → Act W (List (String × Json))
  | [] => pure []
  | (name, s) :: rest => do
    let v ← resolveWithin d s
    let vs ← resolveEntries d rest
    pure (v.toList.map (name, ·) ++ vs)
end

/-- Arguments in order, each on its own. -/
def resolveArguments (d : Directory) : Fields Setting → Act W (Fields Resolved)
  | [] => pure []
  | (name, s) :: rest => do
    let v ← resolve d s
    let vs ← resolveArguments d rest
    pure ((name, v) :: vs)

/-- How a resolved setting is shown. -/
def Resolved.describe (s : Stage W) : Resolved → String
  | .undefined => "Undefined"
  | .value v => "Value(" ++ v.text ++ ")"
  | .reference h => "Instance(" ++ (s.component? h).getD "<busy>" ++ ")"

end LiveLayout.Live
