import LiveLayout.Decoding.Basic
import LiveLayout.Layout.Node
import LiveLayout.Text.Blank

/-!
# Decoding layouts

The records of a layout, each as a map of its fields or as the sequence of
their values in order. The shorthands are decoded along with the long forms:
other names of a field, a handler's name for a binding, a string of words for a
list of classes.
-/

namespace LiveLayout.Layout

open Json (Document Flaw)
open Decoding

def setting (d : Document) : Result Setting := (json d).map Setting.ofJson

-- ---------------------------------------------------------------------------
-- Data
-- ---------------------------------------------------------------------------

def verbs : Fields Verb :=
  [("GET", .get), ("get", .get), ("POST", .post), ("post", .post), ("PUT", .put), ("put", .put),
    ("PATCH", .patch), ("patch", .patch), ("DELETE", .delete), ("delete", .delete)]

def verb (origin : Origin) (d : Document) : Result Verb := choice verbs origin d

structure RemoteDraft where
  endpoint : Option String
  verb : Option (Option Verb)
  headers : Option (Fields Setting)
  query : Option (Fields Setting)
  body : Option (Option Setting)

def remoteField (origin : Origin) (draft : RemoteDraft) (name : String) (d : Document) :
    Result RemoteDraft := do
  match name with
  | "endpoint" | "api" | "url" =>
    pure { draft with endpoint := ← once "endpoint" draft.endpoint string d }
  | "method" => pure { draft with verb := ← once "method" draft.verb (optional (verb origin)) d }
  | "headers" => pure { draft with headers := ← once "headers" draft.headers (map setting) d }
  | "queryParameters" | "params" =>
    pure { draft with query := ← once "queryParameters" draft.query (map setting) d }
  | "body" => pure { draft with body := ← once "body" draft.body (optional setting) d }
  | _ =>
    ignore d
    pure draft

def remote (origin : Origin) : Document → Result Remote
  | .object fields stop => do
    let draft ← fields.foldlM (fun draft p => remoteField origin draft p.1 p.2)
      ⟨none, none, none, none, none⟩
    ended stop
    let endpoint ← need "endpoint" draft.endpoint
    pure ⟨endpoint, draft.verb.join, draft.headers.getD [], draft.query.getD [], draft.body.join⟩
  | .array items stop =>
    let reader : RowReader Remote := do
      let endpoint ← Row.needNext "struct RemoteSpec with 5 elements" string
      let verb ← Row.nextOr none (optional (verb origin))
      let headers ← Row.nextOr [] (map setting)
      let query ← Row.nextOr [] (map setting)
      let body ← Row.nextOr none (optional setting)
      pure ⟨endpoint, verb, headers, query, body⟩
    Row.read origin reader items stop
  | d => refuse "struct RemoteSpec" d

/-- A list of records, or what is asked of a server. -/
def feed (origin : Origin) (d : Document) : Result Feed :=
  byShape "DataSpec"
    [fun d => (list json d).map .inline, fun d => (remote .lent d).map .remote] origin d

structure CascadeDraft where
  parent : Option String
  event : Option String
  template : Option String
  keyField : Option String
  selection : Option (Option String)

def cascadeField (draft : CascadeDraft) (name : String) (d : Document) : Result CascadeDraft := do
  match name with
  | "parentComponent" | "parentId" =>
    pure { draft with parent := ← once "parentComponent" draft.parent string d }
  | "parentEvent" | "parentEventName" =>
    pure { draft with event := ← once "parentEvent" draft.event string d }
  | "endpointTemplate" => pure { draft with template := ← once name draft.template string d }
  | "parentKeyField" => pure { draft with keyField := ← once name draft.keyField string d }
  | "selection" =>
    pure { draft with selection := ← once name draft.selection (optional string) d }
  | _ =>
    ignore d
    pure draft

def cascade (origin : Origin) : Document → Result Cascade
  | .object fields stop => do
    let draft ← fields.foldlM (fun draft p => cascadeField draft p.1 p.2)
      ⟨none, none, none, none, none⟩
    ended stop
    let parent ← need "parentComponent" draft.parent
    let event ← need "parentEvent" draft.event
    let template ← need "endpointTemplate" draft.template
    let keyField ← need "parentKeyField" draft.keyField
    pure ⟨parent, event, template, keyField, draft.selection.join⟩
  | .array items stop =>
    let expected := "struct CascadeSpec with 5 elements"
    let reader : RowReader Cascade := do
      let parent ← Row.needNext expected string
      let event ← Row.needNext expected string
      let template ← Row.needNext expected string
      let keyField ← Row.needNext expected string
      let selection ← Row.nextOr none (optional string)
      pure ⟨parent, event, template, keyField, selection⟩
    Row.read origin reader items stop
  | d => refuse "struct CascadeSpec" d

-- ---------------------------------------------------------------------------
-- Components
-- ---------------------------------------------------------------------------

structure BindingDraft where
  handler : Option String
  args : Option (Fields Setting)

def bindingField (draft : BindingDraft) (name : String) (d : Document) : Result BindingDraft := do
  match name with
  | "handler" => pure { draft with handler := ← once name draft.handler string d }
  | "args" => pure { draft with args := ← once name draft.args (map setting) d }
  | _ => pure draft

def fullBinding : Document → Result Binding
  | .object fields _ => do
    let draft ← fields.foldlM (fun draft p => bindingField draft p.1 p.2) ⟨none, none⟩
    let handler ← need "handler" draft.handler
    pure ⟨handler, draft.args.getD []⟩
  | d => refuse "a map" d

/-- A handler's name, or a map of handler and arguments. -/
def binding (origin : Origin) (d : Document) : Result Binding :=
  byShape "RawBinding" [fun d => (string d).map (⟨·, []⟩), fullBinding] origin d

/-- A string of words, or a list of classes. -/
def classes (origin : Origin) (d : Document) : Result (List String) :=
  byShape "Classes" [fun d => (string d).map Text.words, list string] origin d

structure ComponentDraft where
  name : Option String
  id : Option (Option String)
  props : Option (Fields Setting)
  events : Option (Fields Binding)
  feed : Option (Option Feed)
  cascade : Option (Option Cascade)
  style : Option (Fields Json)
  classes : Option (List String)

def componentField (origin : Origin) (draft : ComponentDraft) (name : String) (d : Document) :
    Result ComponentDraft := do
  match name with
  | "component" => pure { draft with name := ← once name draft.name string d }
  | "id" => pure { draft with id := ← once name draft.id (optional string) d }
  | "props" => pure { draft with props := ← once name draft.props (map setting) d }
  | "events" => pure { draft with events := ← once name draft.events (map (binding origin)) d }
  | "dataSource" | "dataSpec" =>
    pure { draft with feed := ← once "dataSource" draft.feed (optional (feed origin)) d }
  | "cascade" =>
    pure { draft with cascade := ← once name draft.cascade (optional (cascade origin)) d }
  | "style" => pure { draft with style := ← once name draft.style (map json) d }
  | "class" => pure { draft with classes := ← once name draft.classes (classes origin) d }
  | _ =>
    ignore d
    pure draft

def componentOfFields (origin : Origin) (fields : List (String × Document)) (stop : Option Flaw) :
    Result Component := do
  let draft ← fields.foldlM (fun draft p => componentField origin draft p.1 p.2)
    ⟨none, none, none, none, none, none, none, none⟩
  ended stop
  let name ← need "component" draft.name
  pure ⟨name, draft.id.join, draft.props.getD [], draft.events.getD [], draft.feed.join,
    draft.cascade.join, draft.style.getD [], draft.classes.getD []⟩

def componentOfRow (origin : Origin) (items : List Document) (stop : Option Flaw) :
    Result Component :=
  let reader : RowReader Component := do
    let name ← Row.needNext "struct WidgetNode with 8 elements" string
    let id ← Row.nextOr none (optional string)
    let props ← Row.nextOr [] (map setting)
    let events ← Row.nextOr [] (map (binding origin))
    let feed ← Row.nextOr none (optional (feed origin))
    let cascade ← Row.nextOr none (optional (cascade origin))
    let style ← Row.nextOr [] (map json)
    let classes ← Row.nextOr [] (classes origin)
    pure ⟨name, id, props, events, feed, cascade, style, classes⟩
  Row.read origin reader items stop

def component (origin : Origin) : Document → Result Component
  | .object fields stop => componentOfFields origin fields stop
  | .array items stop => componentOfRow origin items stop
  | d => refuse "struct WidgetNode" d

-- ---------------------------------------------------------------------------
-- Frames
-- ---------------------------------------------------------------------------

def orientations : Fields Orientation :=
  [("vertical", .vertical), ("horizontal", .horizontal), ("grid", .grid)]

structure TemplateDraft where
  columns : Option (Option String)
  rows : Option (Option String)
  gap : Option (Option Json)

def templateField (draft : TemplateDraft) (name : String) (d : Document) :
    Result TemplateDraft := do
  match name with
  | "columns" => pure { draft with columns := ← once name draft.columns (optional string) d }
  | "rows" => pure { draft with rows := ← once name draft.rows (optional string) d }
  | "gap" => pure { draft with gap := ← once name draft.gap (optional json) d }
  | _ =>
    ignore d
    pure draft

def template (origin : Origin) : Document → Result GridTemplate
  | .object fields stop => do
    let draft ← fields.foldlM (fun draft p => templateField draft p.1 p.2) ⟨none, none, none⟩
    ended stop
    pure ⟨draft.columns.join, draft.rows.join, draft.gap.join⟩
  | .array items stop =>
    let reader : RowReader GridTemplate := do
      let columns ← Row.nextOr none (optional string)
      let rows ← Row.nextOr none (optional string)
      let gap ← Row.nextOr none (optional json)
      pure ⟨columns, rows, gap⟩
    Row.read origin reader items stop
  | d => refuse "struct GridTemplate" d

structure ContainerDraft where
  orientation : Option Orientation
  template : Option (Option GridTemplate)
  children : Option (List Node)
  style : Option (Fields Json)
  classes : Option (List String)

def ContainerDraft.empty : ContainerDraft := ⟨none, none, none, none, none⟩

/-- Every field but the children. -/
def frameField (origin : Origin) (draft : ContainerDraft) (name : String) (d : Document) :
    Result ContainerDraft := do
  match name with
  | "layout" =>
    pure { draft with orientation := ← once name draft.orientation (choice orientations origin) d }
  | "gridTemplate" =>
    pure { draft with template := ← once name draft.template (optional (template origin)) d }
  | "style" => pure { draft with style := ← once name draft.style (map json) d }
  | "class" => pure { draft with classes := ← once name draft.classes (classes origin) d }
  | _ =>
    ignore d
    pure draft

def ContainerDraft.finish (draft : ContainerDraft) : Frame × List Node :=
  (⟨draft.orientation.getD .vertical, draft.template.join, draft.style.getD [],
    draft.classes.getD []⟩, draft.children.getD [])

/-- The fields before the children, of a container written as a sequence. -/
def rowHead (origin : Origin) : RowReader (Orientation × Option GridTemplate) := do
  let orientation ← Row.nextOr .vertical (choice orientations origin)
  let template ← Row.nextOr none (optional (template origin))
  pure (orientation, template)

/-- The fields after the children. -/
def rowTail (origin : Origin) : RowReader (Fields Json × List String) := do
  let style ← Row.nextOr [] (map json)
  let classes ← Row.nextOr [] (classes origin)
  pure (style, classes)

-- ---------------------------------------------------------------------------
-- Nodes
-- ---------------------------------------------------------------------------

inductive Tag where
  | container
  | component
  deriving DecidableEq

def tags : Fields Tag := [("container", .container), ("component", .component)]

/-- The tag of a node. In a part that was read as a whole it may also be given
by its number. -/
def tag (origin : Origin) (d : Document) : Result Tag :=
  match origin, d with
  | _, .string name => variant tags name
  | .held, .number (.int n) =>
    if n < 0 then refuse "variant identifier" d
    else if n = 0 then pure .container
    else if n = 1 then pure .component
    else fail (.unknownVariantIndex n tags.length)
  | _, d => refuse "variant identifier" d

/-- Finds the tag among the fields of a node. All the others are read as a
whole before the tag tells their shape. -/
def tagOfFields (origin : Origin) (found : Option Tag) : List (String × Document) → Result (Option Tag)
  | [] => .ok found
  | (name, d) :: rest => do
    if name = "type" then
      let found ← once name found (tag origin) d
      tagOfFields origin found rest
    else
      hold origin d
      tagOfFields origin found rest

def holdAll (origin : Origin) : List Document → Result Unit
  | [] => .ok ()
  | d :: rest => do
    hold origin d
    holdAll origin rest

mutual
/-- A node by its tag: a map with the tag among its fields, or a sequence with
the tag before them. -/
def node (origin : Origin) : Document → Result Node
  | .object fields stop => do
    let found ← tagOfFields origin none fields
    ended stop
    match ← need "type" found with
    | .container =>
      let draft ← containerFields .held .empty fields
      pure (.container draft.finish.1 draft.finish.2)
    | .component => (componentOfFields .held fields none).map .component
  | .array [] stop => do
    ended stop
    fail (.missingField "type")
  | .array (first :: items) stop => do
    let t ← tag origin first
    holdAll origin items
    ended stop
    match t with
    | .container =>
      let (frame, children) ← containerRow .held none items
      pure (.container frame children)
    | .component => (componentOfRow .held items none).map .component
  | d => refuse "internally tagged enum LayoutNode" d

def containerFields (origin : Origin) (draft : ContainerDraft) :
    List (String × Document) → Result ContainerDraft
  | [] => .ok draft
  | (name, d) :: rest => do
    if name = "children" then
      if draft.children.isSome then fail (.duplicateField name)
      else
        let kids ← children origin d
        containerFields origin { draft with children := some kids } rest
    else
      let draft ← frameField origin draft name d
      containerFields origin draft rest

def containerRow (origin : Origin) (stop : Option Flaw) : List Document → Result (Frame × List Node)
  | a :: b :: c :: rest => do
    let ((orientation, template), _) ← rowHead origin ⟨[a, b], none, 0⟩
    let kids ← children origin c
    let ((style, classes), row) ← rowTail origin ⟨rest, stop, 3⟩
    row.finish origin
    pure (⟨orientation, template, style, classes⟩, kids)
  | items => do
    let ((orientation, template), row) ← rowHead origin ⟨items, stop, 0⟩
    ended row.stop
    pure (⟨orientation, template, [], []⟩, [])

def children (origin : Origin) : Document → Result (List Node)
  | .array items stop => do
    let kids ← nodes origin items
    ended stop
    pure kids
  | d => refuse "a sequence" d

def nodes (origin : Origin) : List Document → Result (List Node)
  | [] => .ok []
  | d :: rest => do
    let n ← node origin d
    let ns ← nodes origin rest
    pure (n :: ns)
end

def container (origin : Origin) : Document → Result (Frame × List Node)
  | .object fields stop => do
    let draft ← containerFields origin .empty fields
    ended stop
    pure draft.finish
  | .array items stop => containerRow origin stop items
  | d => refuse "struct ContainerNode" d

end LiveLayout.Layout
