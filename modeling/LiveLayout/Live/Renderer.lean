import LiveLayout.Live.Dispatch
import LiveLayout.Live.Scene
import LiveLayout.Live.Source
import LiveLayout.Live.Subscription

/-!
# The renderer

A renderer shows a layout on a stage and keeps it going: it makes the widgets,
passes events to their handlers, lets children follow their parents, and
applies what was fetched. A layout that is rejected changes nothing; one that
is usable takes the place of the one shown before.
-/

namespace LiveLayout.Live

open Layout (Node Frame Component Rejection)

variable {W : Type} [Widget W]

structure Mounted where
  id : Option String
  component : String
  deriving DecidableEq

structure Renderer (W : Type) where
  library : Library W
  options : Options
  directory : Directory
  handlers : Handlers
  bindings : Bindings
  subscriptions : Subscriptions
  sources : KeyMap Source
  mounted : KeyMap Mounted
  tree : Scene
  nextKey : Nat
  stage : Stage W

abbrev Run (W : Type) := StateM (Renderer W)

namespace Renderer

/-- Nothing is shown yet; the first key is one. -/
def new (library : Library W) (options : Options) : Renderer W :=
  ⟨library, options, [], [], [], [], [], [], none, 1, .empty⟩

def context (r : Renderer W) : Context := ⟨r.directory, r.options⟩

/-- Does something on the stage. -/
def onStage (act : Act W α) : Run W α := fun r =>
  let (a, stage) := act r.stage
  (a, { r with stage })

def warn (w : Warning) : Run W Unit := onStage (Act.warn w)

def freshKey : Run W NodeKey := fun r => (⟨r.nextKey⟩, { r with nextKey := r.nextKey + 1 })

-- ---------------------------------------------------------------------------
-- Taking down
-- ---------------------------------------------------------------------------

/-- Forgets all that is kept for a node. -/
def forget (r : Renderer W) (key : NodeKey) : Renderer W :=
  { r with
    sources := KeyMap.erase r.sources key
    subscriptions := KeyMap.erase r.subscriptions key
    bindings := Bindings.unbind r.bindings key
    mounted := KeyMap.erase r.mounted key }

/-- Takes down everything that is shown. -/
def teardown : Run W Unit := modify fun r =>
  let r := (KeyMap.keys r.mounted).foldl forget r
  { r with directory := [], bindings := [], subscriptions := [], handlers := [], tree := none }

/-- Takes down one node, and says whether it was mounted. -/
def unmountKey (key : NodeKey) : Run W Bool := do
  let r ← get
  match KeyMap.get? r.mounted key with
  | none => pure false
  | some m =>
    let directory := match m.id with
      | some id => Fields.erase r.directory id
      | none => r.directory
    let r := forget { r with directory } key
    set { r with tree := (Scene.remove r.tree key).1 }
    pure true

def unmount (id : String) : Run W Bool := do
  match Directory.keyOf? (← get).directory id with
  | some key => unmountKey key
  | none => pure false

-- ---------------------------------------------------------------------------
-- Mounting
-- ---------------------------------------------------------------------------

/-- Enters a new instance into the directory if its component has an id. -/
def register (c : Component) (key : NodeKey) (handle : Handle) (w : W) :
    Run W (Except Rejection Unit) := fun r =>
  match c.id with
  | none => (.ok (), r)
  | some id =>
    match Directory.register r.directory id ⟨key, handle, Widget.capabilities w⟩ with
    | .ok directory => (.ok (), { r with directory })
    | .error e => (.error e, r)

/-- Gives a new node its data source and lets it load. -/
def mountSource (c : Component) (key : NodeKey) (handle : Handle) : Run W Unit := do
  if c.hasSource then
    let ctx := (← get).context
    let src ← onStage ((Source.new key c.name c.feed c.cascade.isSome handle).mount ctx)
    modify fun r => { r with sources := KeyMap.insert r.sources key src }

/-- Notes what a new node follows, what its events call, and who it is. -/
def attach (c : Component) (key : NodeKey) (r : Renderer W) : Renderer W :=
  { r with
    subscriptions := match c.cascade with
      | some cascade => KeyMap.insert r.subscriptions key cascade
      | none => r.subscriptions
    bindings := c.events.foldl (fun bs e => Bindings.bind bs key e.1 e.2) r.bindings
    mounted := KeyMap.insert r.mounted key ⟨c.id, c.name⟩ }

def mountComponent (c : Component) : Run W (Option SceneNode) := do
  match Fields.get? (← get).library c.name with
  | none =>
    warn (.unknownComponent c.name)
    pure none
  | some make =>
    let w := make c.propsJson
    let handle ← onStage (Act.add w)
    let key ← freshKey
    match ← register c key handle w with
    | .error rejection =>
      warn (.notRegistered rejection c.name)
      pure none
    | .ok () =>
      mountSource c key handle
      modify (attach c key)
      pure (some (.widget ⟨key, c.id, c.name, handle, c.style, c.classes⟩))

mutual
/-- Mounts the components of a tree in document order. Those whose component is
not in the library are left out. -/
def mountNode : Node → Run W (Option SceneNode)
  | .container frame children => do
    let children ← mountAll children
    pure (some (.container (.ofFrame frame) children))
  | .component c => mountComponent c
def mountAll : List Node → Run W (List SceneNode)
  | [] => pure []
  | n :: rest => do
    let shown ← mountNode n
    let more ← mountAll rest
    pure (shown.toList ++ more)
end

def summary (r : Renderer W) : Summary := ⟨r.mounted.length, r.directory.length, r.sources.length⟩

/-- Shows a layout in place of the one before, unless it is rejected. -/
def render (tree : Node) (handlers : Handlers) : Run W (Except Rejection Scene) := do
  match Layout.check tree with
  | .error rejection => pure (.error rejection)
  | .ok concerns =>
    concerns.forM fun c => warn (.concern c)
    teardown
    modify fun r => { r with handlers }
    let shown ← mountNode tree
    modify fun r => { r with tree := shown }
    onStage (Act.record (.summed (summary (← get))))
    pure (.ok shown)

-- ---------------------------------------------------------------------------
-- Sources of nodes
-- ---------------------------------------------------------------------------

/-- Works on the source of a node, if it has one. -/
def withSource (key : NodeKey) (act : Source → Act W (α × Source)) : Run W (Option α) := do
  match KeyMap.get? (← get).sources key with
  | none => pure none
  | some src =>
    let (a, src) ← onStage (act src)
    modify fun r => { r with sources := KeyMap.insert r.sources key src }
    pure (some a)

def resetSource (key : NodeKey) : Run W Unit := do
  let _ ← withSource key fun src => do
    let src ← src.reset
    pure ((), src)

def resetAll : List NodeKey → Run W Unit
  | [] => pure ()
  | key :: rest => do
    resetSource key
    resetAll rest

/-- Nodes that follow a node, which must have an id to be followed. -/
def followers (r : Renderer W) (key : NodeKey) : List NodeKey :=
  match (KeyMap.get? r.mounted key).bind (·.id) with
  | some id => Subscriptions.followersOf r.subscriptions id
  | none => []

/-- Resets whoever follows the pending nodes, and whoever follows them. A node
is followed once, as long as it is among the `fresh`. -/
def propagate (fresh pending : List NodeKey) : Run W Unit :=
  match pending with
  | [] => pure ()
  | key :: rest =>
    if _h : key ∈ fresh then do
      let next := followers (← get) key
      resetAll next
      propagate (fresh.erase key) (next.reverse ++ rest)
    else propagate fresh rest
termination_by (fresh.length, pending.length)
decreasing_by
  · apply Prod.Lex.left
    rw [List.length_erase_of_mem _h]
    exact Nat.sub_lt (List.length_pos_of_mem _h) Nat.one_pos
  · apply Prod.Lex.right
    simp

/-- Resets all that follow a node whose data are about to change. -/
def resetFollowers (key : NodeKey) : Run W Unit := do
  let r ← get
  propagate (key :: (KeyMap.keys r.subscriptions).filter (· ≠ key)) [key]

-- ---------------------------------------------------------------------------
-- Events
-- ---------------------------------------------------------------------------

def applyAction (a : Action) : Run W Unit := do
  match a with
  | .fetch key endpoint => do
    let ctx := (← get).context
    let _ ← withSource key fun src => src.fetch ctx endpoint
  | .reset key => resetSource key
  resetFollowers a.node

def applyActions : List Action → Run W Unit
  | [] => pure ()
  | a :: rest => do
    applyAction a
    applyActions rest

/-- What children of a node do about its event. -/
def cascadeFrom (event : Event) : Run W Unit := do
  match event.sourceId with
  | none => pure ()
  | some id =>
    let r ← get
    let actions ← onStage
      (Subscriptions.actions r.directory id event.name event.payload r.subscriptions)
    applyActions actions

/-- Fires an event on a node: first its handler, then its children. Says whether
a handler was called. -/
def fireKey (key : NodeKey) (name : String) (payload : Json) : Run W Bool := do
  let r ← get
  match KeyMap.get? r.mounted key with
  | none =>
    warn (.firedUnmounted name key)
    pure false
  | some m =>
    let event : Event := ⟨name, key, m.id, payload⟩
    let handled ← onStage (dispatch r.bindings r.directory r.handlers event)
    cascadeFrom event
    pure handled

def fire (id name : String) (payload : Json) : Run W Bool := do
  match Directory.keyOf? (← get).directory id with
  | some key => fireKey key name payload
  | none =>
    warn (.firedUnknown name id)
    pure false

-- ---------------------------------------------------------------------------
-- Refreshing and pumping
-- ---------------------------------------------------------------------------

/-- Loads the data of a node again, and says whether there was anything to
load. -/
def refreshKey (key : NodeKey) : Run W Bool := do
  let ctx := (← get).context
  match ← withSource key fun src => src.refresh ctx with
  | none =>
    warn (.refreshedSourceless key)
    pure false
  | some refreshed =>
    if refreshed then resetFollowers key
    pure refreshed

def refresh (id : String) : Run W Bool := do
  match Directory.keyOf? (← get).directory id with
  | some key => refreshKey key
  | none =>
    warn (.refreshedUnknown id)
    pure false

/-- Applies completions, and counts those that took effect. -/
def applyAll : List Completion → Run W Nat
  | [] => pure 0
  | c :: rest => do
    let applied ← withSource c.ticket.node fun src => src.apply c
    let more ← applyAll rest
    pure (more + if applied = some true then 1 else 0)

/-- Applies all completions that wait. -/
def pump : Run W Nat := do
  let completions ← onStage Act.drain
  applyAll completions

/-- Completes a job with a response to it. -/
def complete (number : Nat) (response : Except FetchError Json) : Run W Bool :=
  onStage (Act.complete number response)

-- ---------------------------------------------------------------------------
-- Looking
-- ---------------------------------------------------------------------------

def stateOfKey? (r : Renderer W) (key : NodeKey) : Option FetchState :=
  (KeyMap.get? r.sources key).map (·.state)

def stateOf? (r : Renderer W) (id : String) : Option FetchState :=
  (Directory.keyOf? r.directory id).bind r.stateOfKey?

end Renderer

end LiveLayout.Live
