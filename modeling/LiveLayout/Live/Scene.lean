import LiveLayout.Grid.Arrangement
import LiveLayout.Live.Widget
import LiveLayout.Text.Quoted

/-!
# Scenes

What is shown of a layout: its containers, with how they arrange their
children, and the widgets of its components. A scene may lose widgets, but no
container.
-/

namespace LiveLayout.Live

open Layout (Frame Orientation)
open Grid (Arrangement)

/-- A container without its children. -/
structure SceneFrame where
  orientation : Orientation
  arrangement : Arrangement
  style : Fields Json
  classes : List String

def SceneFrame.ofFrame (f : Frame) : SceneFrame :=
  ⟨f.orientation, Grid.arrangement f, f.style, f.classes⟩

structure SceneWidget where
  key : NodeKey
  id : Option String
  component : String
  handle : Handle
  style : Fields Json
  classes : List String

namespace SceneWidget

def describeList (texts : List String) : String :=
  "[" ++ ", ".intercalate (texts.map Text.quoted) ++ "]"

/-- How a widget is shown in messages. -/
def describe (w : SceneWidget) : String :=
  let id := match w.id with
    | none => "None"
    | some id => s!"Some({Text.quoted id})"
  s!"RenderedWidget \x7b key: {w.key.text}, id: {id}, component: {Text.quoted w.component}, " ++
    s!"classes: {describeList w.classes} \x7d"

end SceneWidget

inductive SceneNode where
  | container (frame : SceneFrame) (children : List SceneNode)
  | widget (widget : SceneWidget)

namespace SceneNode

mutual
/-- The widgets in document order. -/
def widgets : SceneNode → List SceneWidget
  | .container _ children => widgetsAll children
  | .widget w => [w]
def widgetsAll : List SceneNode → List SceneWidget
  | [] => []
  | n :: rest => n.widgets ++ widgetsAll rest
end

def isWidget (key : NodeKey) : SceneNode → Bool
  | .widget w => w.key = key
  | .container .. => false

mutual
/-- Takes a widget out of a container below, and says whether it was found. The
first container that has it as a child loses it. -/
def remove (key : NodeKey) : SceneNode → SceneNode × Bool
  | .widget w => (.widget w, false)
  | .container frame children =>
    let kept := children.filter (!isWidget key ·)
    if kept.length = children.length then
      let (children, found) := removeAmong key children
      (.container frame children, found)
    else (.container frame kept, true)
def removeAmong (key : NodeKey) : List SceneNode → List SceneNode × Bool
  | [] => ([], false)
  | n :: rest =>
    let (n, found) := n.remove key
    if found then (n :: rest, true)
    else
      let (rest, found) := removeAmong key rest
      (n :: rest, found)
end

end SceneNode

/-- What is shown, if anything is. -/
abbrev Scene := Option SceneNode

namespace Scene

def widgets : Scene → List SceneWidget
  | none => []
  | some n => n.widgets

def findId? (t : Scene) (id : String) : Option SceneWidget :=
  (widgets t).find? fun w => w.id == some id

def findKey? (t : Scene) (key : NodeKey) : Option SceneWidget :=
  (widgets t).find? fun w => w.key = key

/-- Takes a widget out, and says whether it was found. -/
def remove (t : Scene) (key : NodeKey) : Scene × Bool :=
  match t with
  | none => (none, false)
  | some n =>
    if n.isWidget key then (none, true)
    else
      let (n, found) := n.remove key
      (some n, found)

end Scene

end LiveLayout.Live
