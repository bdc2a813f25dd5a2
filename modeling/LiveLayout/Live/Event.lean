import LiveLayout.Live.Widget

/-!
# Events and handlers

An event is fired on a node; the handler bound to it gets the event and its
resolved arguments. A handler is a program of the host that can call methods of
the instances it was given, see what comes of it, and tell about it.
-/

namespace LiveLayout.Live

/-- What an expression comes to. -/
inductive Resolved where
  | undefined
  | value (value : Json)
  | reference (handle : Handle)

namespace Resolved

def isUndefined : Resolved → Bool
  | .undefined => true
  | _ => false

def json? : Resolved → Option Json
  | .value v => some v
  | _ => none

def handle? : Resolved → Option Handle
  | .reference h => some h
  | _ => none

end Resolved

structure Event where
  name : String
  source : NodeKey
  sourceId : Option String
  payload : Json

/-- What came of a handler's call: there was nothing to call, the instance was
in the middle of something, or it answered. -/
inductive Outcome where
  | noInstance
  | busy
  | answered (answer : Answer)

inductive Script where
  | done
  | invoke (target : Handle) (method : String) (args : List Json) (next : Outcome → Script)
  | report (outcome : Outcome) (next : Script)

abbrev Handler := Event → Fields Resolved → Script

abbrev Handlers := Fields Handler

end LiveLayout.Live
