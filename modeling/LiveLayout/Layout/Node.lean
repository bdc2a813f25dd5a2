import LiveLayout.Layout.Data

/-!
# Layout trees

A layout is a tree of containers, which arrange their children, and components,
which are shown by widgets.
-/

namespace LiveLayout.Layout

inductive Orientation where
  | vertical
  | horizontal
  | grid
  deriving DecidableEq

def Orientation.name : Orientation → String
  | .vertical => "vertical"
  | .horizontal => "horizontal"
  | .grid => "grid"

structure GridTemplate where
  columns : Option String
  rows : Option String
  gap : Option Json

/-- A container without its children. -/
structure Frame where
  orientation : Orientation
  template : Option GridTemplate
  style : Fields Json
  classes : List String

/-- What an event of a component calls, and with what. -/
structure Binding where
  handler : String
  args : Fields Setting

def Binding.withArg (b : Binding) (name : String) (value : Setting) : Binding :=
  { b with args := Fields.put b.args name value }

structure Component where
  name : String
  id : Option String
  props : Fields Setting
  events : Fields Binding
  feed : Option Feed
  cascade : Option Cascade
  style : Fields Json
  classes : List String

namespace Component

def plain (name : String) : Component := ⟨name, none, [], [], none, none, [], []⟩

/-- The props a widget is made with. -/
def propsJson (c : Component) : Fields Json := Fields.mapValues Setting.toJson c.props

/-- Has records of its own or follows a parent. -/
def hasSource (c : Component) : Bool := c.feed.isSome || c.cascade.isSome

end Component

inductive Node where
  | container (frame : Frame) (children : List Node)
  | component (component : Component)

namespace Node

mutual
/-- All nodes, a parent before its children and siblings in order. -/
def walk : Node → List Node
  | .container frame children => .container frame children :: walkAll children
  | .component c => [.component c]
def walkAll : List Node → List Node
  | [] => []
  | n :: rest => n.walk ++ walkAll rest
end

mutual
/-- The components in document order. -/
def components : Node → List Component
  | .container _ children => componentsAll children
  | .component c => [c]
def componentsAll : List Node → List Component
  | [] => []
  | n :: rest => n.components ++ componentsAll rest
end

def component? : Node → Option Component
  | .container .. => none
  | .component c => some c

mutual
/-- The components are those that a walk meets. -/
theorem components_eq_walk (n : Node) : n.components = n.walk.filterMap component? := by
  cases n with
  | container frame children =>
    simp [components, walk, List.filterMap_cons, component?, componentsAll_eq_walk children]
  | component c => rfl
theorem componentsAll_eq_walk (ns : List Node) :
    componentsAll ns = (walkAll ns).filterMap component? := by
  cases ns with
  | nil => rfl
  | cons n rest =>
    simp [componentsAll, walkAll, components_eq_walk n, componentsAll_eq_walk rest]
end

mutual
/-- The tree with every component changed, and what the changes leave to say. -/
def changeComponents (change : Component → Component × List α) : Node → Node × List α
  | .container frame children =>
    let (children, said) := changeAll change children
    (.container frame children, said)
  | .component c =>
    let (c, said) := change c
    (.component c, said)
def changeAll (change : Component → Component × List α) : List Node → List Node × List α
  | [] => ([], [])
  | n :: rest =>
    let (n, said) := n.changeComponents change
    let (rest, more) := changeAll change rest
    (n :: rest, said ++ more)
end

end Node

end LiveLayout.Layout
