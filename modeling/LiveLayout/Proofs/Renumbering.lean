import LiveLayout.Live.Operation

/-!
# Moving numbers on

Nodes, instances and jobs are numbered in the order in which they come. A
renderer that has a past gives higher numbers than one that has none, and that
should be all the difference. Here is what it means that all numbers in a thing
are moved on by a fixed offset, and that looking things up, entering them and
taking them out works the same on moved numbers.
-/

namespace LiveLayout.Live

open Layout (Rejection)

/-- How far the numbers of nodes, instances and jobs are moved on. -/
structure Offset where
  nodes : Nat
  instances : Nat
  jobs : Nat

-- ---------------------------------------------------------------------------
-- Keys and handles
-- ---------------------------------------------------------------------------

def NodeKey.moved (o : Offset) (key : NodeKey) : NodeKey := ⟨key.ordinal + o.nodes⟩

def Handle.moved (o : Offset) (h : Handle) : Handle := ⟨h.index + o.instances⟩

@[simp] theorem NodeKey.moved_inj {o : Offset} {a b : NodeKey} : a.moved o = b.moved o ↔ a = b := by
  cases a
  cases b
  simp [NodeKey.moved]

@[simp] theorem Handle.moved_inj {o : Offset} {a b : Handle} : a.moved o = b.moved o ↔ a = b := by
  cases a
  cases b
  simp [Handle.moved]

theorem NodeKey.moved_lt {o : Offset} {a b : NodeKey} :
    (a.moved o).ordinal < (b.moved o).ordinal ↔ a.ordinal < b.ordinal := by
  simp [NodeKey.moved]

@[simp] theorem mem_map_moved {o : Offset} {key : NodeKey} {keys : List NodeKey} :
    key.moved o ∈ keys.map (·.moved o) ↔ key ∈ keys := by
  simp

@[simp] theorem erase_map_moved {o : Offset} (keys : List NodeKey) (key : NodeKey) :
    (keys.map (·.moved o)).erase (key.moved o) = (keys.erase key).map (·.moved o) := by
  induction keys with
  | nil => rfl
  | cons other rest ih => by_cases h : other = key <;> simp [h, ih]

namespace KeyMap

/-- Keys moved on, and values changed with them. -/
def moved (o : Offset) (f : α → α) (m : KeyMap α) : KeyMap α := m.map fun p => (p.1.moved o, f p.2)

variable {o : Offset} {f : α → α}

@[simp] theorem get?_moved (m : KeyMap α) (key : NodeKey) :
    get? (m.moved o f) (key.moved o) = (get? m key).map f := by
  induction m with
  | nil => rfl
  | cons p rest ih =>
    by_cases h : p.1 = key
    · simp [moved, get?, h]
    · simpa [moved, get?, h] using ih

/-- The order of the keys is what it was, so a new one goes to the same place. -/
theorem insert_moved (m : KeyMap α) (key : NodeKey) (v : α) :
    insert (m.moved o f) (key.moved o) (f v) = (insert m key v).moved o f := by
  induction m with
  | nil => rfl
  | cons p rest ih =>
    obtain ⟨k, w⟩ := p
    by_cases h : k = key
    · simp [moved, insert, h]
    · by_cases hl : key.ordinal < k.ordinal
      · simp [moved, insert, h, hl, NodeKey.moved_lt]
      · simpa [moved, insert, h, hl, NodeKey.moved_lt] using ih

@[simp] theorem erase_moved (m : KeyMap α) (key : NodeKey) :
    erase (m.moved o f) (key.moved o) = (erase m key).moved o f := by
  simp [erase, moved, List.filter_map, Function.comp_def]

@[simp] theorem keys_moved (m : KeyMap α) : keys (m.moved o f) = (keys m).map (·.moved o) := by
  simp [keys, moved, Function.comp_def]

end KeyMap

-- ---------------------------------------------------------------------------
-- The directory
-- ---------------------------------------------------------------------------

def Entry.moved (o : Offset) (e : Entry) : Entry :=
  { e with key := e.key.moved o, handle := e.handle.moved o }

namespace Directory

def moved (o : Offset) (d : Directory) : Directory := Fields.mapValues (Entry.moved o) d

variable {o : Offset}

@[simp] theorem get?_moved (d : Directory) (id : String) :
    Fields.get? (d.moved o) id = (Fields.get? d id).map (Entry.moved o) :=
  Fields.get?_mapValues ..

@[simp] theorem keyOf?_moved (d : Directory) (id : String) :
    keyOf? (d.moved o) id = (keyOf? d id).map (NodeKey.moved o) := by
  simp [keyOf?, Function.comp_def, Entry.moved]

@[simp] theorem erase_moved (d : Directory) (id : String) :
    Fields.erase (d.moved o) id = moved o (Fields.erase d id) := by
  simp [Fields.erase, moved, Fields.mapValues, List.filter_map, Function.comp_def]

theorem register_moved (d : Directory) (id : String) (e : Entry) :
    register (d.moved o) id (e.moved o) = (register d id e).map (moved o) := by
  unfold register
  rw [get?_moved]
  cases Fields.get? d id with
  | some _ => rfl
  | none => simp [Except.map, moved, Fields.mapValues]

end Directory

-- ---------------------------------------------------------------------------
-- Events and handlers
-- ---------------------------------------------------------------------------

def Resolved.moved (o : Offset) : Resolved → Resolved
  | .reference h => .reference (h.moved o)
  | v => v

def Event.moved (o : Offset) (event : Event) : Event :=
  { event with source := event.source.moved o }

def Script.moved (o : Offset) : Script → Script
  | .done => .done
  | .invoke target method args next =>
    .invoke (target.moved o) method args fun outcome => (next outcome).moved o
  | .report outcome next => .report outcome (next.moved o)

/-- Two handlers that do the same, numbers moved on. A handler that does not
look at the numbers it is given does so with itself. -/
def Handler.Alike (o : Offset) (handler handler' : Handler) : Prop :=
  ∀ event args, handler' (Event.moved o event) (Fields.mapValues (Resolved.moved o) args) =
    (handler event args).moved o

/-- Tables that have handlers of the same names, which do the same. -/
def Handlers.Alike (o : Offset) (handlers handlers' : Handlers) : Prop :=
  ∀ name, Option.Rel (Handler.Alike o) (Fields.get? handlers name) (Fields.get? handlers' name)

theorem Handlers.Alike.nil (o : Offset) : Alike o [] [] := fun _ => .none

theorem Handlers.Alike.lookup {o : Offset} {handlers handlers' : Handlers}
    (h : Alike o handlers handlers') (name : String) :
    (Fields.get? handlers name = none ∧ Fields.get? handlers' name = none) ∨
      ∃ handler handler', Fields.get? handlers name = some handler ∧
        Fields.get? handlers' name = some handler' ∧ Handler.Alike o handler handler' := by
  have hn := h name
  generalize Fields.get? handlers name = x, Fields.get? handlers' name = y at hn ⊢
  cases hn with
  | none => exact .inl ⟨rfl, rfl⟩
  | some ha => exact .inr ⟨_, _, rfl, rfl, ha⟩

def Bound.moved (o : Offset) (b : Bound) : Bound := { b with node := b.node.moved o }

namespace Bindings

def moved (o : Offset) (bs : Bindings) : Bindings := bs.map (Bound.moved o)

variable {o : Offset}

@[simp] theorem isFor_moved (node : NodeKey) (event : String) (b : Bound) :
    isFor (node.moved o) event (b.moved o) = isFor node event b := by
  simp [isFor, Bound.moved]

@[simp] theorem get?_moved (bs : Bindings) (node : NodeKey) (event : String) :
    get? (bs.moved o) (node.moved o) event = get? bs node event := by
  simp only [get?, moved, List.find?_map, Option.map_map, Function.comp_def, isFor_moved]
  rfl

theorem bind_moved (bs : Bindings) (node : NodeKey) (event : String) (binding : Layout.Binding) :
    bind (bs.moved o) (node.moved o) event binding = moved o (bind bs node event binding) := by
  simp only [bind, moved, List.filter_map, Function.comp_def, isFor_moved, List.map_append]
  rfl

@[simp] theorem unbind_moved (bs : Bindings) (node : NodeKey) :
    unbind (bs.moved o) (node.moved o) = moved o (unbind bs node) := by
  simp [unbind, moved, List.filter_map, Function.comp_def, Bound.moved]

theorem foldl_bind_moved (events : Fields Layout.Binding) (node : NodeKey) (bs : Bindings) :
    events.foldl (fun bs e => bind bs (node.moved o) e.1 e.2) (bs.moved o) =
      moved o (events.foldl (fun bs e => bind bs node e.1 e.2) bs) := by
  induction events generalizing bs with
  | nil => rfl
  | cons e rest ih =>
    rw [List.foldl_cons, bind_moved, ih]
    rfl

end Bindings

-- ---------------------------------------------------------------------------
-- Subscriptions and sources
-- ---------------------------------------------------------------------------

def Action.moved (o : Offset) : Action → Action
  | .fetch node endpoint => .fetch (node.moved o) endpoint
  | .reset node => .reset (node.moved o)

theorem Subscriptions.followersOf_moved {o : Offset} (subs : Subscriptions) (parent : String) :
    followersOf (KeyMap.moved o id subs) parent = (followersOf subs parent).map (·.moved o) := by
  simp [followersOf, KeyMap.moved, List.filter_map, Function.comp_def]

def Ticket.moved (o : Offset) (t : Ticket) : Ticket := { t with node := t.node.moved o }

@[simp] theorem Ticket.moved_inj {o : Offset} {a b : Ticket} : a.moved o = b.moved o ↔ a = b := by
  cases a
  cases b
  simp [Ticket.moved]

def Job.moved (o : Offset) (job : Job) : Job := { job with ticket := job.ticket.moved o }

def Completion.moved (o : Offset) (c : Completion) : Completion :=
  { c with ticket := c.ticket.moved o }

def Source.moved (o : Offset) (src : Source) : Source :=
  { src with key := src.key.moved o, widget := src.widget.moved o }

def Context.moved (o : Offset) (ctx : Context) : Context :=
  { ctx with directory := ctx.directory.moved o }

-- ---------------------------------------------------------------------------
-- Scenes
-- ---------------------------------------------------------------------------

def SceneWidget.moved (o : Offset) (w : SceneWidget) : SceneWidget :=
  { w with key := w.key.moved o, handle := w.handle.moved o }

namespace SceneNode

mutual
def moved (o : Offset) : SceneNode → SceneNode
  | .container frame children => .container frame (movedAll o children)
  | .widget w => .widget (w.moved o)
def movedAll (o : Offset) : List SceneNode → List SceneNode
  | [] => []
  | n :: rest => n.moved o :: movedAll o rest
end

variable {o : Offset}

theorem movedAll_eq_map (nodes : List SceneNode) : movedAll o nodes = nodes.map (moved o) := by
  induction nodes with
  | nil => rfl
  | cons n rest ih => rw [movedAll, ih, List.map_cons]

theorem isWidget_moved (key : NodeKey) (n : SceneNode) :
    isWidget (key.moved o) (n.moved o) = isWidget key n := by
  cases n with
  | container => rfl
  | widget w => simp [moved, isWidget, SceneWidget.moved]

theorem filter_moved (key : NodeKey) (nodes : List SceneNode) :
    (movedAll o nodes).filter (!isWidget (key.moved o) ·) =
      movedAll o (nodes.filter (!isWidget key ·)) := by
  simp only [movedAll_eq_map, List.filter_map, Function.comp_def, isWidget_moved]

mutual
theorem remove_moved (key : NodeKey) (n : SceneNode) :
    remove (key.moved o) (n.moved o) = ((remove key n).1.moved o, (remove key n).2) := by
  cases n with
  | widget w => rfl
  | container frame children =>
    simp only [moved, remove, filter_moved]
    rw [movedAll_eq_map, movedAll_eq_map, List.length_map, List.length_map]
    split
    · rw [← movedAll_eq_map, removeAmong_moved key children]
      rfl
    · rw [← movedAll_eq_map]
      rfl
theorem removeAmong_moved (key : NodeKey) (nodes : List SceneNode) :
    removeAmong (key.moved o) (movedAll o nodes) =
      (movedAll o (removeAmong key nodes).1, (removeAmong key nodes).2) := by
  cases nodes with
  | nil => rfl
  | cons n rest =>
    simp only [movedAll, removeAmong, remove_moved key n, removeAmong_moved key rest]
    split <;> rfl
end

end SceneNode

namespace Scene

def moved (o : Offset) (t : Scene) : Scene := t.map (SceneNode.moved o)

theorem remove_moved {o : Offset} (t : Scene) (key : NodeKey) :
    remove (t.moved o) (key.moved o) = ((remove t key).1.moved o, (remove t key).2) := by
  cases t with
  | none => rfl
  | some n =>
    simp only [moved, Option.map_some, remove, SceneNode.isWidget_moved, SceneNode.remove_moved]
    split <;> rfl

end Scene

-- ---------------------------------------------------------------------------
-- The journal, operations and replies
-- ---------------------------------------------------------------------------

def Warning.moved (o : Offset) : Warning → Warning
  | .firedUnmounted event key => .firedUnmounted event (key.moved o)
  | .refreshedSourceless key => .refreshedSourceless (key.moved o)
  | w => w

def Effect.moved (o : Offset) : Effect → Effect
  | .warned w => .warned (w.moved o)
  | .summed summary => .summed summary
  | .evaluated directory source => .evaluated (directory.moved o) source
  | .invoked caller target method args => .invoked caller (target.moved o) method args
  | .pushed target payload => .pushed (target.moved o) payload
  | .submitted number job => .submitted (number + o.jobs) (job.moved o)
  | .called handler event args =>
    .called handler (event.moved o) (Fields.mapValues (Resolved.moved o) args)
  | .told outcome => .told outcome

def Operation.moved (o : Offset) : Operation → Operation
  | .occupy handles => .occupy (handles.map (Handle.moved o))
  | .unmountKey key => .unmountKey (key.moved o)
  | .fireKey key event payload => .fireKey (key.moved o) event payload
  | .refreshKey key => .refreshKey (key.moved o)
  | .complete job response => .complete (job + o.jobs) response
  | op => op

/-- Operations that ask for the same, with numbers moved on in the second one. -/
inductive Operation.Alike (o : Offset) : Operation → Operation → Prop
  | render {tree : Layout.Node} (h : Handlers.Alike o handlers handlers') :
    Alike o (.render tree handlers) (.render tree handlers')
  | plain {op : Operation} (h : ∀ tree handlers, op ≠ .render tree handlers) :
    Alike o op (op.moved o)

def Reply.moved (o : Offset) : Reply → Reply
  | .shown tree => .shown (tree.moved o)
  | reply => reply

end LiveLayout.Live
