import LiveLayout.Live.Evaluate

/-!
# Dispatch

Which handler an event of a node calls. All arguments are resolved before the
handler runs.
-/

namespace LiveLayout.Live

open Layout (Binding)

variable {W : Type} [Widget W]

structure Bound where
  node : NodeKey
  event : String
  binding : Binding

/-- Bindings in the order in which they were made. -/
abbrev Bindings := List Bound

namespace Bindings

def isFor (node : NodeKey) (event : String) (b : Bound) : Bool :=
  decide (b.node = node) && b.event == event

/-- Binds an event of a node, in place of what it was bound to. -/
def bind (bs : Bindings) (node : NodeKey) (event : String) (binding : Binding) : Bindings :=
  bs.filter (fun b => !isFor node event b) ++ [⟨node, event, binding⟩]

def get? (bs : Bindings) (node : NodeKey) (event : String) : Option Binding :=
  (bs.find? (isFor node event)).map (·.binding)

def unbind (bs : Bindings) (node : NodeKey) : Bindings := bs.filter (·.node ≠ node)

theorem get?_bind_self (bs : Bindings) (node : NodeKey) (event : String) (binding : Binding) :
    get? (bind bs node event binding) node event = some binding := by
  have h : (bs.filter fun b => !isFor node event b).find? (isFor node event) = none := by
    simp [List.find?_eq_none]
  rw [get?, bind, List.find?_append, h]
  simp [isFor]

end Bindings

/-- Calls the handler that an event is bound to, and says whether there is
one. -/
def dispatch (bs : Bindings) (d : Directory) (handlers : Handlers) (event : Event) :
    Act W Bool := do
  match Bindings.get? bs event.source event.name with
  | none => pure false
  | some binding =>
    match Fields.get? handlers binding.handler with
    | none =>
      Act.warn (.handlerMissing event.name binding.handler)
      pure false
    | some handler =>
      let args ← resolveArguments d binding.args
      Act.record (.called binding.handler event args)
      (handler event args).run
      pure true

end LiveLayout.Live
