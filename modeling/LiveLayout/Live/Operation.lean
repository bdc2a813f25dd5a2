import LiveLayout.Live.Renderer

/-!
# Operations

All that can be done to a renderer from outside, as data, and what it answers.
A run is a list of operations performed one after the other, from a new
renderer on.
-/

namespace LiveLayout.Live

open Layout (Node Rejection)

variable {W : Type} [Widget W]

inductive Operation where
  | occupy (handles : List Handle)
  | render (tree : Node) (handlers : Handlers)
  | teardown
  | unmount (id : String)
  | unmountKey (key : NodeKey)
  | fire (id event : String) (payload : Json)
  | fireKey (key : NodeKey) (event : String) (payload : Json)
  | refresh (id : String)
  | refreshKey (key : NodeKey)
  | complete (job : Nat) (response : Except FetchError Json)
  | pump

inductive Reply where
  | done
  | said (yes : Bool)
  | counted (n : Nat)
  | shown (tree : Scene)
  | rejected (rejection : Rejection)

def Reply.ofRender : Except Rejection Scene → Reply
  | .ok tree => .shown tree
  | .error rejection => .rejected rejection

namespace Renderer

def perform : Operation → Run W Reply
  | .occupy handles => (fun _ => .done) <$> onStage (Act.occupy handles)
  | .render tree handlers => .ofRender <$> render tree handlers
  | .teardown => (fun _ => .done) <$> teardown
  | .unmount id => .said <$> unmount id
  | .unmountKey key => .said <$> unmountKey key
  | .fire id event payload => .said <$> fire id event payload
  | .fireKey key event payload => .said <$> fireKey key event payload
  | .refresh id => .said <$> refresh id
  | .refreshKey key => .said <$> refreshKey key
  | .complete job response => .said <$> complete job response
  | .pump => .counted <$> pump

/-- The renderer after an operation. -/
def after (r : Renderer W) (op : Operation) : Renderer W := (perform op r).2

def afterAll (r : Renderer W) (ops : List Operation) : Renderer W := ops.foldl after r

@[simp] theorem afterAll_nil (r : Renderer W) : afterAll r [] = r := rfl

@[simp] theorem afterAll_cons (r : Renderer W) (op : Operation) (ops : List Operation) :
    afterAll r (op :: ops) = afterAll (after r op) ops := rfl

theorem afterAll_append (r : Renderer W) (first second : List Operation) :
    afterAll r (first ++ second) = afterAll (afterAll r first) second :=
  List.foldl_append

/-- States that some run leads to. -/
inductive Reachable (library : Library W) (options : Options) : Renderer W → Prop
  | new : Reachable library options (new library options)
  | after (op : Operation) : Reachable library options r → Reachable library options (r.after op)

theorem reachable_afterAll {library : Library W} {options : Options} {r : Renderer W}
    (h : Reachable library options r) (ops : List Operation) :
    Reachable library options (r.afterAll ops) := by
  induction ops generalizing r with
  | nil => exact h
  | cons op ops ih => exact ih (.after op h)

theorem reachable_iff {library : Library W} {options : Options} {r : Renderer W} :
    Reachable library options r ↔ ∃ ops, r = (new library options).afterAll ops := by
  constructor
  · intro h
    induction h with
    | new => exact ⟨[], rfl⟩
    | after op _ ih =>
      obtain ⟨ops, rfl⟩ := ih
      exact ⟨ops ++ [op], by rw [afterAll_append]; rfl⟩
  · rintro ⟨ops, rfl⟩
    exact reachable_afterAll .new ops

end Renderer

end LiveLayout.Live
