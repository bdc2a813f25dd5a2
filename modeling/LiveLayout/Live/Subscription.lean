import LiveLayout.Live.Evaluate
import LiveLayout.Live.KeyMap

/-!
# Subscriptions

Nodes that cascade subscribe to an event of their parent. When it is fired each
of them fetches for the key that the event carries, or that the selection of
the parent has, and is reset if there is none.
-/

namespace LiveLayout.Live

open Layout (Cascade)

variable {W : Type} [Widget W]

inductive Action where
  | fetch (node : NodeKey) (endpoint : String)
  | reset (node : NodeKey)
  deriving DecidableEq

def Action.node : Action → NodeKey
  | .fetch node _ => node
  | .reset node => node

/-- What a payload says about the key: its value, that there is none, or
nothing at all. -/
inductive KeyReading where
  | given (value : Json)
  | cleared
  | absent

def keyInRecord (record : Json) (field : String) : KeyReading :=
  match record.field? field with
  | some .null => .cleared
  | some v => .given v
  | none => .absent

/-- Looks for the key in a record, or in the first record of a list. No records
are no key. -/
def keyInPayload (payload : Json) (field : String) : KeyReading :=
  match payload with
  | .array [] => .cleared
  | .array (first :: _) => keyInRecord first field
  | record => keyInRecord record field

/-- The endpoint for a key: its encoded text in all places for it. -/
def endpointFor (c : Cascade) (key : Json) : String :=
  String.ofList (Text.joinParts (Text.Percent.encodeChars key.plainText.toList)
    (Text.partsAt '{' (c.keyField.toList ++ ['}']) c.template.toList))

/-- The key of what the parent has selected. -/
def selectedKey (d : Directory) (c : Cascade) : Act W (Option Json) := do
  match ← evaluate d c.selectionText with
  | .value selection =>
    match keyInPayload selection c.keyField with
    | .given v => pure (some v)
    | _ => pure none
  | _ => pure none

def keyFor (d : Directory) (c : Cascade) (payload : Json) : Act W (Option Json) :=
  match keyInPayload payload c.keyField with
  | .given v => pure (some v)
  | .cleared => pure none
  | .absent => selectedKey d c

def actionFor (node : NodeKey) (c : Cascade) : Option Json → Action
  | some key => .fetch node (endpointFor c key)
  | none => .reset node

abbrev Subscriptions := KeyMap Cascade

namespace Subscriptions

/-- Nodes that follow a parent, by whatever event. -/
def followersOf (subs : Subscriptions) (parent : String) : List NodeKey :=
  (subs.filter (·.2.parent = parent)).map (·.1)

/-- What an event of a parent leads to, in the order of the nodes. -/
def actions (d : Directory) (parent event : String) (payload : Json) :
    Subscriptions → Act W (List Action)
  | [] => pure []
  | (node, c) :: rest =>
    if c.parent = parent ∧ c.event = event then do
      let key ← keyFor d c payload
      let more ← actions d parent event payload rest
      pure (actionFor node c key :: more)
    else actions d parent event payload rest

end Subscriptions

end LiveLayout.Live
