import LiveLayout.Json.Basic
import LiveLayout.Numeric.Decimal

/-!
# Numerals

The number a JSON numeral stands for. Digits alone are an integer if it fits 64
bits, signed or not. Anything else is a double, computed in two steps: the
digits are kept as far as 64 bits hold them, and the double nearest to them is
multiplied or divided by the double nearest to the power of ten. Both steps
round, so the last bit may differ from the nearest double of the numeral.
-/

namespace LiveLayout.Json

open Numeric (Double Binary Format digitValue ofDigits)

-- powers are those of the core library, whatever else is in scope
attribute [local instance (high)] instPowNat

structure Numeral where
  negative : Bool
  whole : List Char
  fraction : List Char
  exponent : Option (Bool × List Char)

def maxWord : Nat := 2 ^ (64 : Nat) - 1

/-- Takes digits in as long as the number fits a word; the count of the digits
left over comes with it. -/
def gather : Nat → List Char → Nat × Nat
  | n, [] => (n, 0)
  | n, c :: cs =>
    let next := n * 10 + digitValue c
    if next ≤ maxWord then gather next cs else (n, cs.length + 1)

def tenTo (k : Nat) : Double := .ofRatio .double false (10 ^ k) 1

/-- Division by a power of ten, in steps that a double can hold. -/
def shrink (x : Double) (k : Nat) : Double :=
  if k ≤ 308 then x.div (tenTo k)
  else if x.isZero then x
  else shrink (x.div (tenTo 308)) (k - 308)
termination_by k

/-- `significand · 10 ^ exponent`, unless it is out of range. -/
def scaled? (significand : Nat) (exponent : Int) : Option Double :=
  let x : Double := .ofRatio .double false significand 1
  if exponent < 0 then some (shrink x exponent.natAbs)
  else if x.isZero then some x
  else if 308 < exponent then none
  else
    let y := x.mul (tenTo exponent.toNat)
    if y.isInfinite then none else some y

/-- The double of a numeral, unless it is out of range. -/
def Numeral.double? (n : Numeral) : Option Double :=
  let (whole, beyond) := gather 0 n.whole
  let (significand, dropped) := gather whole n.fraction
  let point : Int := beyond - (n.fraction.length - dropped : Nat)
  let magnitude := match n.exponent with
    | none => scaled? significand point
    | some (negative, digits) =>
      let e := ofDigits digits
      if 2 ^ (31 : Nat) ≤ e then
        if significand = 0 ∨ negative then some ⟨false, 0⟩ else none
      else scaled? significand (if negative then point - e else point + e)
  magnitude.map fun x => { x with negative := n.negative }

/-- The number of a numeral, unless it is out of range. -/
def Numeral.number? (n : Numeral) : Option Number :=
  let value := ofDigits n.whole
  let plain := n.fraction.isEmpty && n.exponent.isNone
  if plain && !n.negative && decide (value ≤ maxWord) then some (.int value)
  else if plain && n.negative && decide (0 < value) && decide (value ≤ 2 ^ (63 : Nat)) then
    some (.int (-value))
  else n.double?.map .real

end LiveLayout.Json
