import LiveLayout.Live.Widget

/-!
# Stand-in widgets

A widget for trying out layouts without a component library: its props say what
it answers. It has a selection, a value that can be set, and a count of how
often it was asked.
-/

namespace LiveLayout.Rehearsal

open Live (Capabilities WidgetError Payload Answer Widget)

structure StandIn where
  component : String
  label : String
  props : Fields Json
  selected : Json
  capabilities : Capabilities
  counted : Nat

namespace StandIn

def usualMethods : List String :=
  ["getSelectedRowsData", "selectRows", "getValue", "setValue", "getProps", "echo", "count",
    "explode"]

/-- The strings of `props.capabilities`, or what every stand-in can do. -/
def capabilitiesOf (props : Fields Json) : Capabilities :=
  match Fields.get? props "capabilities" with
  | some (.array items) => .ofList (items.filterMap Json.string?)
  | _ => .ofList usualMethods

def make (component : String) (props : Fields Json) : StandIn where
  component := component
  label := ((Fields.get? props "label").bind Json.string?).getD component
  props := props
  selected := (Fields.get? props "selected").getD (.array [])
  capabilities := capabilitiesOf props
  counted := 0

def answer (w : StandIn) (method : String) (args : List Json) : Answer × StandIn :=
  match method with
  | "getSelectedRowsData" => (.ok w.selected, w)
  | "selectRows" =>
    match args.head? with
    | some (.array rows) => (.ok .null, { w with selected := .array rows })
    | _ => (.error (.badArguments method "expected an array of rows"), w)
  | "getValue" => (.ok ((Fields.get? w.props "value").getD .null), w)
  | "setValue" =>
    (.ok .null, { w with props := Fields.put w.props "value" (args.head?.getD .null) })
  | "getProps" => (.ok (.object w.props), w)
  | "echo" => (.ok (.array args), w)
  | "count" => (.ok (.nat (w.counted + 1)), { w with counted := w.counted + 1 })
  | "explode" => (.error (.failed "boom"), w)
  | "secret" => (.ok (.string "leaked"), w)
  | _ => (.error (.unknownMethod method), w)

instance : Widget StandIn where
  component := component
  capabilities := capabilities
  invoke := answer
  setData w _ := w

end StandIn

end LiveLayout.Rehearsal
