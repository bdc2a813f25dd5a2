import LiveLayout.Live.Directory
import LiveLayout.Live.Event
import LiveLayout.Live.Notice

/-!
# The stage

The instances of a layout in action, the traffic with the transport, and a
journal of all that is done to them, in the order in which it is done. An
instance that is in the middle of something is busy: it cannot be called, and
data meant for it is dropped.
-/

namespace LiveLayout.Live

/-- Who calls a method. -/
inductive Caller where
  | expression
  | handler
  deriving DecidableEq

/-- What is done on a stage. An evaluation is noted with the directory that it
looks instances up in, before anything comes of it. -/
inductive Effect where
  | warned (warning : Warning)
  | summed (summary : Summary)
  | evaluated (directory : Directory) (source : String)
  | invoked (caller : Caller) (target : Handle) (method : String) (args : List Json)
  | pushed (target : Handle) (payload : Payload)
  | submitted (number : Nat) (job : Job)
  | called (handler : String) (event : Event) (args : Fields Resolved)
  | told (outcome : Outcome)

structure Stage (W : Type) where
  widgets : List W
  busy : List Handle
  traffic : Traffic
  journal : List Effect

abbrev Act (W : Type) := StateM (Stage W)

namespace Stage

def empty : Stage W := ⟨[], [], .empty, []⟩

def widget? (s : Stage W) (h : Handle) : Option W := s.widgets[h.index]?

/-- The instance, if it can be called now. -/
def free? (s : Stage W) (h : Handle) : Option W := if h ∈ s.busy then none else s.widget? h

/-- The component's name, if the instance can be asked for it now. -/
def component? [Widget W] (s : Stage W) (h : Handle) : Option String :=
  (s.free? h).map Widget.component

def setWidget (s : Stage W) (h : Handle) (w : W) : Stage W :=
  { s with widgets := s.widgets.set h.index w }

end Stage

namespace Act

def record (e : Effect) : Act W Unit := modify fun s => { s with journal := s.journal ++ [e] }

def warn (w : Warning) : Act W Unit := record (.warned w)

/-- From now on these instances are in the middle of something, and no others. -/
def occupy (handles : List Handle) : Act W Unit := modify fun s => { s with busy := handles }

/-- Brings a new instance onto the stage. -/
def add (w : W) : Act W Handle := do
  let s ← get
  set { s with widgets := s.widgets ++ [w] }
  pure ⟨s.widgets.length⟩

/-- Calls a method, unless the instance is busy. -/
def invoke [Widget W] (caller : Caller) (h : Handle) (method : String) (args : List Json) :
    Act W (Option Answer) := do
  match (← get).free? h with
  | none => pure none
  | some w =>
    record (.invoked caller h method args)
    let (answer, w) := Widget.invoke w method args
    modify (·.setWidget h w)
    pure (some answer)

/-- Gives data to an instance, unless it is busy, and says whether it did. -/
def push [Widget W] (h : Handle) (payload : Payload) : Act W Bool := do
  match (← get).free? h with
  | none => pure false
  | some w =>
    record (.pushed h payload)
    modify (·.setWidget h (Widget.setData w payload))
    pure true

def submit (job : Job) : Act W Unit := do
  record (.submitted (← get).traffic.jobs.length job)
  modify fun s => { s with traffic := s.traffic.submit job }

/-- Completes a job with the response of a server. -/
def complete (number : Nat) (response : Except FetchError Json) : Act W Bool := do
  let s ← get
  match s.traffic.complete? number response with
  | none => pure false
  | some traffic =>
    set { s with traffic }
    pure true

/-- Takes all completions out of the queue. -/
def drain : Act W (List Completion) := do
  let s ← get
  let (completions, traffic) := s.traffic.drain
  set { s with traffic }
  pure completions

end Act

/-- Runs what a handler does. -/
def Script.run [Widget W] : Script → Act W Unit
  | .done => pure ()
  | .report outcome next => do
    Act.record (.told outcome)
    next.run
  | .invoke target method args next => do
    match ← Act.invoke .handler target method args with
    | none => (next .busy).run
    | some answer => (next (.answered answer)).run

end LiveLayout.Live
