import LiveLayout.Json.Basic

/-!
# Widgets

What a component library offers to a layout: widgets, which are shown for the
components, answer method calls and are given data. The methods that an
expression may call are a set that the widget declares when it is made.
-/

namespace LiveLayout.Live

/-- Which instance, in the order in which they were made. -/
structure Handle where
  index : Nat
  deriving DecidableEq

/-- Which mounted node. Keys are given in ascending order and never again. -/
structure NodeKey where
  ordinal : Nat
  deriving DecidableEq

def NodeKey.text (k : NodeKey) : String := s!"NodeKey({k.ordinal})"

-- ---------------------------------------------------------------------------
-- Capabilities
-- ---------------------------------------------------------------------------

/-- Names of methods, each once, in ascending order. -/
structure Capabilities where
  methods : List String
  deriving DecidableEq

namespace Capabilities

def empty : Capabilities := ⟨[]⟩

def insertInto (method : String) : List String → List String
  | [] => [method]
  | m :: rest =>
    if method = m then m :: rest
    else if method < m then method :: m :: rest
    else m :: insertInto method rest

def insert (c : Capabilities) (method : String) : Capabilities := ⟨insertInto method c.methods⟩

def ofList (methods : List String) : Capabilities := methods.foldl insert empty

def allows (c : Capabilities) (method : String) : Bool := c.methods.contains method

theorem allows_iff {c : Capabilities} : c.allows method = true ↔ method ∈ c.methods := by
  simp [allows]

theorem mem_insertInto {a method : String} {methods : List String} :
    a ∈ insertInto method methods ↔ a = method ∨ a ∈ methods := by
  induction methods with
  | nil => simp [insertInto]
  | cons m rest ih =>
    unfold insertInto
    split
    · next h => subst h; simp
    · split
      · simp
      · simp [ih, or_left_comm]

theorem allows_insert (c : Capabilities) (method other : String) :
    (c.insert method).allows other = (decide (other = method) || c.allows other) := by
  simp [allows, insert, mem_insertInto]

end Capabilities

-- ---------------------------------------------------------------------------
-- The contract
-- ---------------------------------------------------------------------------

/-- Why a method call has no answer. -/
inductive WidgetError where
  | unknownMethod (method : String)
  | badArguments (method problem : String)
  | failed (problem : String)
  deriving DecidableEq

def WidgetError.message : WidgetError → String
  | .unknownMethod method => s!"method '{method}' is not supported"
  | .badArguments method problem => s!"bad arguments for '{method}': {problem}"
  | .failed problem => problem

/-- What a widget is given to show. -/
inductive Payload where
  | loading
  | records (records : List Json)
  | noData

abbrev Answer := Except WidgetError Json

class Widget (W : Type) where
  component : W → String
  capabilities : W → Capabilities
  invoke : W → String → List Json → Answer × W
  setData : W → Payload → W

end LiveLayout.Live
