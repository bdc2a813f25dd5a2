import LiveLayout.Live.Evaluate
import LiveLayout.Options

/-!
# Data sources

A data source belongs to a mounted node and keeps its widget supplied. Each
fetch has the next generation, and a completion counts only if it is of the
latest one; a reset or a cancellation moves the generation on, so whatever is
still under way is of no use to anybody.
-/

namespace LiveLayout.Live

open Layout (Feed Remote)

variable {W : Type} [Widget W]

/-- Where expressions are evaluated, and what holds for all requests. -/
structure Context where
  directory : Directory
  options : Options

-- ---------------------------------------------------------------------------
-- Requests
-- ---------------------------------------------------------------------------

/-- Named values as text. One without a value, or with null for it, is left
out. -/
def composePairs (d : Directory) (part : RequestPart) :
    Fields Setting → Act W (List (String × String))
  | [] => pure []
  | (name, s) :: rest => do
    match ← resolveWithin d s with
    | none | some .null =>
      Act.warn (.omitted part name)
      composePairs d part rest
    | some v =>
      let pairs ← composePairs d part rest
      pure ((name, v.plainText) :: pairs)

def composeBody (d : Directory) (endpoint : String) : Option Setting → Act W (Option Json)
  | none => pure none
  | some body => do
    let v ← resolveWithin d body
    if v.isNone then Act.warn (.emptyBody endpoint)
    pure v

/-- The default headers that a request does not give itself. -/
def undeclared (headers : Fields Setting) (defaults : Fields String) : List (String × String) :=
  defaults.filter fun p => !headers.any fun own => sameHeader own.1 p.1

/-- Builds a request for an endpoint. Headers, query and body are evaluated in
this order. -/
def compose (ctx : Context) (r : Remote) (endpoint : String) : Act W Request := do
  let own ← composePairs ctx.directory .header r.headers
  let query ← composePairs ctx.directory .query r.query
  let body ← composeBody ctx.directory endpoint r.body
  pure ⟨ctx.options.fullEndpoint endpoint, r.effectiveVerb,
    undeclared r.headers ctx.options.defaultHeaders ++ own, query, body⟩

-- ---------------------------------------------------------------------------
-- Sources
-- ---------------------------------------------------------------------------

structure Source where
  key : NodeKey
  component : String
  feed : Option Feed
  cascaded : Bool
  widget : Handle
  state : FetchState
  generation : Nat
  lastEndpoint : Option String

namespace Source

def new (key : NodeKey) (component : String) (feed : Option Feed) (cascaded : Bool)
    (widget : Handle) : Source :=
  ⟨key, component, feed, cascaded, widget, .idle, 0, none⟩

/-- Changes the state and gives the widget what belongs to it. -/
def setState (src : Source) (state : FetchState) : Act W Source := do
  if !(← Act.push src.widget state.payload) then Act.warn (.updateDropped src.component)
  pure { src with state }

/-- What is asked for when the source fetches. -/
def remote (src : Source) (endpoint : String) : Remote :=
  match src.feed with
  | some (.remote r) => r
  | _ => .plain endpoint

/-- Sends a request to an endpoint; those before it do not count any more. -/
def fetch (src : Source) (ctx : Context) (endpoint : String) : Act W (Ticket × Source) := do
  let ticket : Ticket := ⟨src.key, src.generation + 1⟩
  let request ← compose ctx (src.remote endpoint) endpoint
  let src ← setState
    { src with generation := src.generation + 1, lastEndpoint := some endpoint } .loading
  Act.submit ⟨ticket, request⟩
  pure (ticket, src)

/-- The first load. A cascaded source waits for its parent. -/
def mount (src : Source) (ctx : Context) : Act W Source := do
  if src.cascaded then src.setState .idle
  else
    match src.feed with
    | some (.inline records) => src.setState (.success records)
    | some (.remote r) => do
      let (_, src) ← src.fetch ctx r.endpoint
      pure src
    | none => src.setState .idle

/-- Loads again what was loaded last, and says whether there was anything. -/
def refresh (src : Source) (ctx : Context) : Act W (Bool × Source) := do
  match src.lastEndpoint with
  | some endpoint => do
    let (_, src) ← src.fetch ctx endpoint
    pure (true, src)
  | none =>
    if src.cascaded then
      Act.warn (.nothingToRefresh src.component)
      pure (false, src)
    else
      let src ← src.mount ctx
      pure (true, src)

/-- Forgets the data and whatever is under way. -/
def reset (src : Source) : Act W Source :=
  setState { src with generation := src.generation + 1, lastEndpoint := none } .idle

def cancel (src : Source) : Source := { src with generation := src.generation + 1 }

/-- Takes a completion if it is of the latest request, and says whether it was. -/
def apply (src : Source) (c : Completion) : Act W (Bool × Source) := do
  if c.ticket = ⟨src.key, src.generation⟩ then
    match c.result with
    | .ok records => do
      let src ← src.setState (.success records)
      pure (true, src)
    | .error error => do
      Act.warn (.fetchFailed src.component error)
      let src ← src.setState (.failed error)
      pure (true, src)
  else pure (false, src)

end Source

end LiveLayout.Live
