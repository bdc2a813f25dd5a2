import LiveLayout.Expression.Parser
import LiveLayout.Layout.Node
import LiveLayout.Text.Cut

/-!
# Checking layouts

Before a layout is shown it is checked as a whole. Two components with one id,
or parents that cascade in a circle, make it unusable. Everything else is only
a concern: expressions that cannot be read, references to ids that nobody
declares, templates that leave no place for the key, and records that would be
ignored.
-/

namespace LiveLayout.Layout

/-- Why a layout is not usable. -/
inductive Rejection where
  | duplicateId (id : String)
  | cascadeCycle (path : List String)
  deriving DecidableEq

def Rejection.message : Rejection → String
  | .duplicateId id => s!"duplicate component id '{id}'"
  | .cascadeCycle path => "cascade cycle through " ++ " -> ".intercalate path

inductive Concern where
  | malformedExpression (component expression : String) (problem : Expression.Problem)
  | unknownReference (component target : String)
  | missingPlaceholder (component template placeholder : String)
  | inlineDataOnCascade (component : String)
  deriving DecidableEq

def Concern.message : Concern → String
  | .malformedExpression component expression problem =>
    s!"component \"{component}\": malformed expression \"{expression}\": {problem.message}"
  | .unknownReference component target =>
    s!"component \"{component}\" references unknown id \"{target}\""
  | .missingPlaceholder component template placeholder =>
    s!"component \"{component}\": endpoint template \"{template}\" has no {placeholder} placeholder"
  | .inlineDataOnCascade component =>
    s!"component \"{component}\": inline data is ignored on a cascade child"

-- ---------------------------------------------------------------------------
-- Ids
-- ---------------------------------------------------------------------------

def declaredIds (components : List Component) : List String := components.filterMap (·.id)

/-- The first of the ids that is among those before it. -/
def firstRepeated (seen : List String) : List String → Option String
  | [] => none
  | id :: rest => if id ∈ seen then some id else firstRepeated (id :: seen) rest

-- ---------------------------------------------------------------------------
-- Cycles
-- ---------------------------------------------------------------------------

/-- From the id of each component that cascades to its parent. -/
def links (components : List Component) : Fields String :=
  components.filterMap fun c => do
    let id ← c.id
    let cascade ← c.cascade
    pure (id, cascade.parent)

theorem length_erase_lt {α : Type} {fields : Fields α} {name : String} {v : α}
    (h : Fields.get? fields name = some v) :
    (Fields.erase fields name).length < fields.length := by
  induction fields with
  | nil => simp [Fields.get?] at h
  | cons p rest ih =>
    by_cases hp : p.1 = name
    · have := List.length_filter_le (fun q : String × α => decide (q.1 ≠ name)) rest
      simp only [Fields.erase, hp, ne_eq, not_true_eq_false, decide_false, Bool.false_eq_true,
        not_false_eq_true, List.filter_cons_of_neg, List.length_cons] at *
      omega
    · simp only [Fields.get?, hp, if_false] at h
      have := ih h
      simpa [Fields.erase, hp] using this

/-- Follows links until they end or lead to a place that is known to be fine.
The links followed form the path; coming back to it is a cycle, which is
reported from where it starts to where it closes. A link is used once. -/
def follow (links : Fields String) (fine path : List String) (id : String) :
    Except (List String) (List String) :=
  if id ∈ fine then .ok path
  else if id ∈ path then .error (path.dropWhile (· ≠ id) ++ [id])
  else
    match _found : Fields.get? links id with
    | none => .ok (path ++ [id])
    | some parent => follow (Fields.erase links id) fine (path ++ [id]) parent
termination_by links.length
decreasing_by exact length_erase_lt _found

/-- Follows the links from each id in turn. -/
def followAll (links : Fields String) (fine : List String) : List String → Except (List String) Unit
  | [] => .ok ()
  | id :: rest => do
    let path ← follow links fine [] id
    followAll links (fine ++ path) rest

-- ---------------------------------------------------------------------------
-- Concerns
-- ---------------------------------------------------------------------------

def Feed.expressions : Feed → List String
  | .inline _ => []
  | .remote r => r.expressions

/-- The expressions of a component that are written in the layout: arguments of
its events, parts of its request, and the selection it cascades by. -/
def Component.expressions (c : Component) : List String :=
  c.events.flatMap (fun e => e.2.args.filterMap fun a => a.2.expression?) ++
    (c.feed.map Feed.expressions).getD [] ++ (c.cascade.bind (·.selection)).toList

def expressionConcerns (ids : List String) (component source : String) : List Concern :=
  match Expression.parse source with
  | .ok e => if e.target ∈ ids then [] else [.unknownReference component e.target]
  | .error problem => [.malformedExpression component source problem]

def hasPlaceholder (c : Cascade) : Bool :=
  Text.occurs '{' (c.keyField.toList ++ ['}']) c.template.toList

def cascadeConcerns (ids : List String) (component : Component) (c : Cascade) : List Concern :=
  (if c.parent ∈ ids then [] else [.unknownReference component.name c.parent]) ++
    (if hasPlaceholder c then []
      else [.missingPlaceholder component.name c.template c.placeholder]) ++
    (match component.feed with
      | some (.inline _) => [.inlineDataOnCascade component.name]
      | _ => [])

def Component.concerns (ids : List String) (c : Component) : List Concern :=
  c.expressions.flatMap (expressionConcerns ids c.name) ++
    (c.cascade.map (cascadeConcerns ids c)).getD []

/-- Checks a layout: it is rejected, or it is usable with some concerns. -/
def check (tree : Node) : Except Rejection (List Concern) :=
  let components := tree.components
  let ids := declaredIds components
  match firstRepeated [] ids with
  | some id => .error (.duplicateId id)
  | none =>
    match followAll (links components) [] ids with
    | .error path => .error (.cascadeCycle path)
    | .ok () => .ok (components.flatMap (Component.concerns ids))

end LiveLayout.Layout
