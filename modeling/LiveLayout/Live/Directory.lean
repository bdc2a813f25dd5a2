import LiveLayout.Layout.Check
import LiveLayout.Live.Widget

/-!
# Directories and libraries

A directory knows the mounted instances by their ids, with the capabilities
they had when they were entered. A library knows how the widgets of a component
are made.
-/

namespace LiveLayout.Live

open Layout (Rejection)

structure Entry where
  key : NodeKey
  handle : Handle
  capabilities : Capabilities
  deriving DecidableEq

abbrev Directory := Fields Entry

namespace Directory

/-- Enters an instance under an id that nobody has. -/
def register (d : Directory) (id : String) (entry : Entry) : Except Rejection Directory :=
  match Fields.get? d id with
  | some _ => .error (.duplicateId id)
  | none => .ok (d ++ [(id, entry)])

def keyOf? (d : Directory) (id : String) : Option NodeKey := (Fields.get? d id).map (·.key)

def handle? (d : Directory) (id : String) : Option Handle := (Fields.get? d id).map (·.handle)

/-- All ids in ascending order. -/
def ids (d : Directory) : List String := (Fields.names d).mergeSort fun a b => decide (a ≤ b)

end Directory

/-- From the name of a component to how its widgets are made of props. -/
abbrev Library (W : Type) := Fields (Fields Json → W)

namespace Library

/-- A later maker for a name takes the place of an earlier one. -/
def register (l : Library W) (name : String) (make : Fields Json → W) : Library W :=
  Fields.put l name make

end Library

end LiveLayout.Live
