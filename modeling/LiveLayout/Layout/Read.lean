import LiveLayout.Layout.Decode

/-!
# Reading layouts

A layout is decoded and then tidied: a data source that was written among the
props of a component moves to the component, unless it has one already. What
stands there and is no data source stays a prop.
-/

namespace LiveLayout.Layout

open Decoding (Input Mismatch Result)

/-- A prop called `dataSource` that is no data source. -/
structure StrayFeed where
  component : String
  reason : Mismatch
  deriving DecidableEq

def StrayFeed.message (s : StrayFeed) : String :=
  s!"component \"{s.component}\": props.dataSource is not a data source " ++
    s!"({s.reason.message}), passing it through as a prop"

def Component.liftFeed (c : Component) : Component × List StrayFeed :=
  match c.feed, Fields.get? c.props "dataSource" with
  | none, some s =>
    match Layout.feed .value s.toJson.document with
    | .ok f => ({ c with props := Fields.erase c.props "dataSource", feed := some f }, [])
    | .error (.mismatch m) => (c, [⟨c.name, m⟩])
    | .error (.fault _) => (c, [])
  | _, _ => (c, [])

/-- The tree of an input, and the props that looked like data sources. -/
def read (input : Input) : Result (Node × List StrayFeed) :=
  (Decoding.run node input).map (Node.changeComponents Component.liftFeed)

end LiveLayout.Layout
