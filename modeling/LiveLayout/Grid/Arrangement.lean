import LiveLayout.Grid.Track
import LiveLayout.Layout.Node

/-!
# Arrangements

How a container lays out its children: in a column, in a row, or on a grid with
the tracks of its template, and with what gap between them.
-/

namespace LiveLayout.Grid

open Layout (Orientation Frame)
open Numeric (Single Binary)

structure Arrangement where
  flow : Orientation
  columns : List TrackItem
  rows : List TrackItem
  gap : Length
  deriving DecidableEq

def noGap : Length := .pixels ⟨false, 0⟩

/-- A number of pixels, or a text that says a length. -/
def lengthOf : Json → Option Length
  | .number n => some (.pixels (n.toDouble.convert .single))
  | .string s => length? s.toList
  | _ => none

/-- The gap of the template, or else that of the style. -/
def gapOf (frame : Frame) : Option Json :=
  (frame.template.bind (·.gap)).or (Fields.get? frame.style "gap")

def arrangement (frame : Frame) : Arrangement :=
  let template := if frame.orientation = .grid then frame.template else none
  let tracksOf (source : Option String) := (source.map tracks).getD []
  ⟨frame.orientation, tracksOf (template.bind (·.columns)), tracksOf (template.bind (·.rows)),
    ((gapOf frame).bind lengthOf).getD noGap⟩

end LiveLayout.Grid
