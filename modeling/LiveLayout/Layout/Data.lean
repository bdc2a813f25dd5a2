import LiveLayout.Setting

/-!
# Data of a component

Where the records of a component come from: they stand in the layout, or they
are fetched. A component that cascades fetches them only when its parent says
for which key.
-/

namespace LiveLayout.Layout

inductive Verb where
  | get
  | post
  | put
  | patch
  | delete
  deriving DecidableEq

def Verb.name : Verb → String
  | .get => "GET"
  | .post => "POST"
  | .put => "PUT"
  | .patch => "PATCH"
  | .delete => "DELETE"

/-- What is asked of a server. Headers, query and body may hold expressions,
which are evaluated when a request is made. -/
structure Remote where
  endpoint : String
  verb : Option Verb
  headers : Fields Setting
  query : Fields Setting
  body : Option Setting

namespace Remote

/-- Asks for an endpoint and says nothing else. -/
def plain (endpoint : String) : Remote := ⟨endpoint, none, [], [], none⟩

/-- The verb given, or else what having a body suggests. -/
def effectiveVerb (r : Remote) : Verb :=
  r.verb.getD (if r.body.isSome then .post else .get)

/-- Sources of the expressions in headers, query and body, in this order. -/
def expressions (r : Remote) : List String :=
  Setting.entryExpressions r.headers ++ Setting.entryExpressions r.query ++
    (r.body.map Setting.expressions).getD []

end Remote

inductive Feed where
  | inline (records : List Json)
  | remote (remote : Remote)

/-- Follows an event of a parent component: the key that the event carries goes
into a template of the endpoint. -/
structure Cascade where
  parent : String
  event : String
  template : String
  keyField : String
  selection : Option String
  deriving DecidableEq

namespace Cascade

/-- What the key replaces in the template. -/
def placeholder (c : Cascade) : String := String.ofList ('{' :: (c.keyField.toList ++ ['}']))

/-- Where the key is looked up when the event does not carry it. -/
def selectionText (c : Cascade) : String :=
  c.selection.getD ("$" ++ c.parent ++ ".getSelectedRowsData()")

end Cascade

end LiveLayout.Layout
