import LiveLayout.Layout.Check
import LiveLayout.Layout.Read
import LiveLayout.Live.Fetch

/-!
# Notices

What is said to whoever watches a layout: warnings about what was left undone
and why, and a summary of what is shown. Expressions appear in their own text,
not in the one they were read from.
-/

namespace LiveLayout.Live

/-- A part of a request with named values. -/
inductive RequestPart where
  | header
  | query
  deriving DecidableEq

def RequestPart.name : RequestPart → String
  | .header => "header"
  | .query => "query parameter"

inductive Warning where
  | malformed (problem : Expression.Problem)
  | notMounted (expression : Expression)
  | notAvailable (expression : Expression) (method : String)
  | targetBusy (expression : Expression)
  | callFailed (expression : Expression) (error : WidgetError)
  | cannotSend (source : String)
  | omitted (part : RequestPart) (name : String)
  | emptyBody (endpoint : String)
  | updateDropped (component : String)
  | nothingToRefresh (component : String)
  | fetchFailed (component : String) (error : FetchError)
  | handlerMissing (event handler : String)
  | strayFeed (stray : Layout.StrayFeed)
  | concern (concern : Layout.Concern)
  | unknownComponent (component : String)
  | notRegistered (rejection : Layout.Rejection) (component : String)
  | firedUnmounted (event : String) (key : NodeKey)
  | firedUnknown (event id : String)
  | refreshedUnknown (id : String)
  | refreshedSourceless (key : NodeKey)

def Warning.message : Warning → String
  | .malformed problem => problem.message
  | .notMounted e => s!"expression \"{e.display}\": component \"{e.target}\" is not mounted"
  | .notAvailable e method =>
    s!"expression \"{e.display}\": method \"{method}\" is not available on \"{e.target}\""
  | .targetBusy e => s!"expression \"{e.display}\": component \"{e.target}\" is busy"
  | .callFailed e error => s!"expression \"{e.display}\" failed: {error.message}"
  | .cannotSend source =>
    s!"expression \"{source}\" resolves to a component instance, which cannot be sent"
  | .omitted part name => s!"{part.name} \"{name}\" resolved to nothing, omitting it"
  | .emptyBody endpoint =>
    s!"request body for {endpoint} resolved to nothing, sending without body"
  | .updateDropped component => s!"component \"{component}\" is busy, data update dropped"
  | .nothingToRefresh component =>
    s!"component \"{component}\": nothing to refresh before the parent selects a row"
  | .fetchFailed component error => s!"component \"{component}\": {error.message}"
  | .handlerMissing event handler => s!"event \"{event}\": handler \"{handler}\" not found"
  | .strayFeed stray => stray.message
  | .concern c => c.message
  | .unknownComponent component =>
    s!"component \"{component}\" not found in registry, skipping"
  | .notRegistered rejection component =>
    s!"{rejection.message}, skipping component \"{component}\""
  | .firedUnmounted event key =>
    s!"event \"{event}\" fired on a node that is not mounted ({key.text})"
  | .firedUnknown event id => s!"event \"{event}\" fired on unknown id \"{id}\""
  | .refreshedUnknown id => s!"refresh: unknown id \"{id}\""
  | .refreshedSourceless key => s!"refresh: {key.text} has no data source"

/-- How much of a layout is shown. -/
structure Summary where
  widgets : Nat
  ids : Nat
  sources : Nat
  deriving DecidableEq

def Summary.message (s : Summary) : String :=
  s!"rendered layout: {s.widgets} widgets, {s.ids} registered ids, {s.sources} data sources"

end LiveLayout.Live
