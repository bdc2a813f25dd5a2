import LiveLayout.Numeric.Decimal
import LiveLayout.Text.Cut

/-!
# Grid tracks

The columns or rows of a grid, as in `1fr 200px repeat(auto-fit, minmax(300px,
1fr))`: a list of items between blanks, where blanks within parentheses do not
count. An item that cannot be read is left out.
-/

namespace LiveLayout.Grid

open Numeric (Single)
open Text (isBlank trim afterStart? beforeEnd? cutAt? addWord)

-- powers are those of the core library, whatever else is in scope
attribute [local instance (high)] instPowNat

inductive Length where
  | pixels (value : Single)
  | percent (value : Single)
  deriving DecidableEq

inductive MinSize where
  | auto
  | minContent
  | maxContent
  | fixed (length : Length)
  deriving DecidableEq

inductive MaxSize where
  | auto
  | minContent
  | maxContent
  | fixed (length : Length)
  | fraction (value : Single)
  deriving DecidableEq

structure Track where
  min : MinSize
  max : MaxSize
  deriving DecidableEq

inductive Repetition where
  | autoFit
  | autoFill
  | count (n : Nat)
  deriving DecidableEq

inductive TrackItem where
  | single (track : Track)
  | repeated (repetition : Repetition) (tracks : List Track)
  deriving DecidableEq

-- ---------------------------------------------------------------------------
-- Sizes
-- ---------------------------------------------------------------------------

def single? (cs : List Char) : Option Single := Numeric.number? .single (trim cs)

/-- `20`, `20px` or `50%`. -/
def length? (cs : List Char) : Option Length :=
  let text := trim cs
  match beforeEnd? ['%'] text with
  | some number => (single? number).map fun x => .percent x.hundredth
  | none => (single? ((beforeEnd? ['p', 'x'] text).getD text)).map .pixels

def minSize? (cs : List Char) : Option MinSize :=
  match String.ofList cs with
  | "auto" => some .auto
  | "min-content" => some .minContent
  | "max-content" => some .maxContent
  | _ => (length? cs).map .fixed

/-- Like a minimum, or a fraction such as `1fr`. -/
def maxSize? (cs : List Char) : Option MaxSize :=
  match String.ofList cs with
  | "auto" => some .auto
  | "min-content" => some .minContent
  | "max-content" => some .maxContent
  | _ =>
    match beforeEnd? ['f', 'r'] cs with
    | some number => (single? number).map .fraction
    | none => (length? cs).map .fixed

-- ---------------------------------------------------------------------------
-- Items
-- ---------------------------------------------------------------------------

/-- What stands between the parentheses of `name(…)`. -/
def inside? (name cs : List Char) : Option (List Char) := do
  let rest ← afterStart? name cs
  let rest ← afterStart? ['('] (Text.dropBlanks rest)
  beforeEnd? [')'] rest

def track? (cs : List Char) : Option Track :=
  match inside? "minmax".toList cs with
  | some inner => do
    let (min, max) ← cutAt? ',' inner
    let min ← minSize? (trim min)
    let max ← maxSize? (trim max)
    pure ⟨min, max⟩
  | none => do
    let max ← maxSize? cs
    pure ⟨(minSize? cs).getD .auto, max⟩

/-- Parentheses open after a character. -/
def depthAfter (depth : Nat) (c : Char) : Nat :=
  if c = '(' then depth + 1 else if c = ')' then depth - 1 else depth

/-- The item a text starts with, and the items after it. -/
def leadingItem (depth : Nat) : List Char → List Char × List (List Char)
  | [] => ([], [])
  | c :: cs =>
    let after := depthAfter depth c
    let (item, rest) := leadingItem after cs
    if after = 0 ∧ isBlank c then ([], addWord item rest) else (c :: item, rest)

/-- The texts between blanks that are outside of all parentheses. -/
def itemTexts (cs : List Char) : List (List Char) :=
  let (item, rest) := leadingItem 0 cs
  addWord item rest

def repetition? (cs : List Char) : Option Repetition :=
  match String.ofList cs with
  | "auto-fit" => some .autoFit
  | "auto-fill" => some .autoFill
  | _ => (Numeric.natural? (2 ^ (16 : Nat) - 1) cs).map .count

/-- A repetition of at least one track. -/
def repeated? (cs : List Char) : Option TrackItem := do
  let (count, tracks) ← cutAt? ',' cs
  let repetition ← repetition? (trim count)
  let tracks := (itemTexts (trim tracks)).filterMap track?
  if tracks.isEmpty then none else some (.repeated repetition tracks)

def item? (cs : List Char) : Option TrackItem :=
  match inside? "repeat".toList cs with
  | some inner => repeated? inner
  | none => (track? cs).map .single

def tracks (source : String) : List TrackItem := (itemTexts source.toList).filterMap item?

example : itemTexts "1fr (a b) c)".toList = ["1fr".toList, "(a b)".toList, "c)".toList] := by
  decide +kernel
example : tracks "auto nothing minmax(min-content, auto)" =
    [.single ⟨.auto, .auto⟩, .single ⟨.minContent, .auto⟩] := by decide +kernel

end LiveLayout.Grid
