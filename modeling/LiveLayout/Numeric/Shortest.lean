import LiveLayout.Numeric.Binary

/-!
# Shortest decimal digits

The decimal text of a binary number: the fewest significant digits that read
back as the number, and of those the nearest to it. A search over digit counts
tests the two neighbours of the number on each decimal grid in exact
arithmetic against the interval of reals that round to the number.
-/

namespace LiveLayout.Numeric

-- powers are those of the core library, whatever else is in scope
attribute [local instance (high)] instPowNat

def digitCount (n : Nat) : Nat := if n = 0 then 0 else (Nat.toDigits 10 n).length

/-- The power of ten at or below a positive ratio. -/
def ratioLog10 (num den : Nat) : Int :=
  if den ≤ num then (digitCount (num / den) : Int) - 1
  else -(digitCount ((den - 1) / num) : Int)

/-- `digits · 10 ^ exponent`. -/
structure Scientific where
  digits : Nat
  exponent : Int
  deriving DecidableEq

/-- Magnitudes between `low / den` and `high / den`, about `mid / den`, with
or without the ends. -/
structure Interval where
  low : Nat
  mid : Nat
  high : Nat
  den : Nat
  closed : Bool

def Interval.scale (i : Interval) (k : Nat) : Interval :=
  ⟨i.low * k, i.mid * k, i.high * k, i.den, i.closed⟩

def Interval.covers (i : Interval) (n : Nat) : Bool :=
  if i.closed then i.low ≤ n * i.den && n * i.den ≤ i.high
  else i.low < n * i.den && n * i.den < i.high

/-- The whole number in the interval that is nearest to its middle, of two the
even one. -/
def Interval.nearest? (i : Interval) : Option Nat :=
  let below := i.mid / i.den
  let above := below + 1
  match i.covers below, i.covers above with
  | false, false => none
  | true, false => some below
  | false, true => some above
  | true, true => some (divNearest i.mid i.den)

/-- The reals that round to a positive finite code. The step down from a power
of two is half as wide as the step up. -/
def Format.interval (f : Format) (code : Nat) : Interval :=
  let (count, exponent) := f.units code
  let narrow := count = f.binade ∧ f.lowest < exponent
  let low := 4 * count - if narrow then 1 else 2
  let scale := 2 ^ exponent.toNat
  ⟨low * scale, 4 * count * scale, (4 * count + 2) * scale, 4 * 2 ^ (-exponent).toNat,
    count % 2 == 0⟩

/-- Tries grids of ever finer step, `fuel` of them, beginning with a step of
`10 ^ exponent`. -/
def Interval.search (i : Interval) : Nat → Int → Scientific
  | 0, exponent => ⟨i.mid * 10 ^ (-exponent).toNat / (i.den * 10 ^ exponent.toNat), exponent⟩
  | fuel + 1, exponent =>
    let grid := { i.scale (10 ^ (-exponent).toNat) with den := i.den * 10 ^ exponent.toNat }
    match grid.nearest? with
    | some digits => ⟨digits, exponent⟩
    | none => i.search fuel (exponent - 1)

/-- Shortest digits of a positive finite code. -/
def Format.shortest (f : Format) (code : Nat) : Scientific :=
  let i := f.interval code
  i.search f.precision (ratioLog10 i.mid i.den)

example : Format.double.shortest (Format.double.round 3 10) = ⟨3, -1⟩ := by decide +kernel
example : Format.double.shortest 1 = ⟨5, -324⟩ := by decide +kernel
example : Format.double.shortest (Format.double.round (2 ^ 70) 1) = ⟨11805916207174113, 5⟩ := by
  decide +kernel

end LiveLayout.Numeric
