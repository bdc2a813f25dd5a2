import LiveLayout.Json.Printer
import LiveLayout.Layout.Data
import LiveLayout.Live.Widget
import LiveLayout.Text.Percent

/-!
# Fetching

Requests as they are sent, what comes back, and the state of a fetch. Every
request of a node has a ticket, which tells it from all others; it is handed to
a transport as a job, and its completion waits in a queue until it is applied.
-/

namespace LiveLayout.Live

open Layout (Verb)

inductive FetchError where
  | transport (endpoint problem : String)
  | status (endpoint : String) (code : Nat)
  | malformed (endpoint problem : String)
  deriving DecidableEq

def FetchError.message : FetchError → String
  | .transport endpoint problem => s!"request to {endpoint} failed: {problem}"
  | .status endpoint code => s!"request to {endpoint} returned status {code}"
  | .malformed endpoint problem =>
    s!"response from {endpoint} is not a list of records: {problem}"

-- ---------------------------------------------------------------------------
-- Requests
-- ---------------------------------------------------------------------------

/-- Names of headers are compared without regard to the case of ASCII letters. -/
def sameHeader (a b : String) : Bool :=
  a.toList.map Char.toLower == b.toList.map Char.toLower

structure Request where
  endpoint : String
  verb : Verb
  headers : List (String × String)
  query : List (String × String)
  body : Option Json

namespace Request

def queryText (pairs : List (String × String)) : String :=
  "&".intercalate (pairs.map fun p => Text.Percent.encode p.1 ++ "=" ++ Text.Percent.encode p.2)

/-- The endpoint with the query after it. -/
def url (r : Request) : String :=
  if r.query.isEmpty then r.endpoint
  else
    let separator := if r.endpoint.toList.contains '?' then "&" else "?"
    r.endpoint ++ separator ++ queryText r.query

def header? (r : Request) (name : String) : Option String :=
  (r.headers.find? fun p => sameHeader p.1 name).map (·.2)

end Request

-- ---------------------------------------------------------------------------
-- Responses
-- ---------------------------------------------------------------------------

def kindName : Json → String
  | .null => "null"
  | .bool _ => "a boolean"
  | .number _ => "a number"
  | .string _ => "a string"
  | .array _ => "an array"
  | .object _ => "an object"

/-- Records come as an array. -/
def recordsOf (endpoint : String) : Json → Except FetchError (List Json)
  | .array records => .ok records
  | body => .error (.malformed endpoint s!"expected an array, got {kindName body}")

/-- Which request of which node, counted from one. -/
structure Ticket where
  node : NodeKey
  generation : Nat
  deriving DecidableEq

structure Job where
  ticket : Ticket
  request : Request

structure Completion where
  ticket : Ticket
  result : Except FetchError (List Json)

/-- The completion of a job by a response to it. -/
def Job.complete (job : Job) (response : Except FetchError Json) : Completion :=
  ⟨job.ticket, response.bind (recordsOf job.request.endpoint)⟩

-- ---------------------------------------------------------------------------
-- Traffic
-- ---------------------------------------------------------------------------

/-- Jobs by number, the completions there have been with the numbers of their
jobs, and those of them that wait to be applied. -/
structure Traffic where
  jobs : List Job
  completed : List (Nat × Completion)
  queue : List Completion

namespace Traffic

def empty : Traffic := ⟨[], [], []⟩

def submit (t : Traffic) (job : Job) : Traffic := { t with jobs := t.jobs ++ [job] }

/-- The job of a number, unless it was completed already. -/
def openJob? (t : Traffic) (number : Nat) : Option Job :=
  if t.completed.any (·.1 == number) then none else t.jobs[number]?

/-- Completes a job, which can be done once. -/
def complete? (t : Traffic) (number : Nat) (response : Except FetchError Json) : Option Traffic :=
  (t.openJob? number).map fun job =>
    let c := job.complete response
    { t with completed := t.completed ++ [(number, c)], queue := t.queue ++ [c] }

def drain (t : Traffic) : List Completion × Traffic := (t.queue, { t with queue := [] })

end Traffic

-- ---------------------------------------------------------------------------
-- States
-- ---------------------------------------------------------------------------

inductive FetchState where
  | idle
  | loading
  | success (records : List Json)
  | failed (error : FetchError)

/-- What a widget is given in a state. -/
def FetchState.payload : FetchState → Payload
  | .loading => .loading
  | .success records => .records records
  | .idle | .failed _ => .noData

end LiveLayout.Live
