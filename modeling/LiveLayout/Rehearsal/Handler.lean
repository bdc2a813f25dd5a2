import LiveLayout.Live.Event

/-!
# Stand-in handlers

Handlers for trying out layouts: one that does nothing but be called, and one
that calls a method of the instance it gets in an argument and tells what comes
of it.
-/

namespace LiveLayout.Rehearsal

open Live (Handler Script Resolved)

def quiet : Handler := fun _ _ => .done

def calling (arg method : String) (args : List Json) : Handler := fun _ resolved =>
  match (Fields.get? resolved arg).bind Resolved.handle? with
  | some handle => .invoke handle method args fun outcome => .report outcome .done
  | none => .report .noInstance .done

end LiveLayout.Rehearsal
