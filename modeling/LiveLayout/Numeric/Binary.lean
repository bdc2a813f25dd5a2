/-!
# Binary floating point

Numbers of a binary interchange format as a sign and a code: the code counts
the representable magnitudes upwards from zero, infinity comes after the
largest finite one, and the codes beyond infinity are not numbers. Arithmetic
is exact on ratios of naturals and rounds once, a half to the even neighbour.
-/

namespace LiveLayout.Numeric

-- powers are those of the core library, whatever else is in scope
attribute [local instance (high)] instPowNat

/-- `precision` bits of significand, the unit of the smallest magnitudes
`2 ^ lowest`, and the number `top` of the binade that starts at infinity. -/
structure Format where
  precision : Nat
  lowest : Int
  top : Nat
  deriving DecidableEq

def Format.double : Format := ⟨53, -1074, 2047⟩

def Format.single : Format := ⟨24, -149, 255⟩

/-- Codes from one power of two to the next. -/
def Format.binade (f : Format) : Nat := 2 ^ (f.precision - 1)

def Format.infinity (f : Format) : Nat := f.top * f.binade

/-- The quotient, a half going to the even neighbour. -/
def divNearest (num den : Nat) : Nat :=
  let q := num / den
  let r := num % den
  if 2 * r < den then q else if den < 2 * r then q + 1 else q + q % 2

/-- The power of two at or below a positive ratio. -/
def ratioLog2 (num den : Nat) : Int :=
  let guess : Int := (num.log2 : Int) - den.log2
  if den * 2 ^ guess.toNat ≤ num * 2 ^ (-guess).toNat then guess else guess - 1

/-- The code of the magnitude nearest to a ratio. -/
def Format.round (f : Format) (num den : Nat) : Nat :=
  if num = 0 then 0
  else
    let unit := max (ratioLog2 num den - (f.precision - 1 : Nat)) f.lowest
    let count := divNearest (num * 2 ^ (-unit).toNat) (den * 2 ^ unit.toNat)
    min ((unit - f.lowest).toNat * f.binade + count) f.infinity

/-- Count and exponent of the units a finite code stands for. -/
def Format.units (f : Format) (code : Nat) : Nat × Int :=
  let binade := code / f.binade
  if binade = 0 then (code, f.lowest)
  else (code % f.binade + f.binade, f.lowest + binade - 1)

/-- The magnitude of a finite code as a ratio. -/
def Format.ratio (f : Format) (code : Nat) : Nat × Nat :=
  let (count, exponent) := f.units code
  (count * 2 ^ exponent.toNat, 2 ^ (-exponent).toNat)

example : Format.double.round 1 1 = 0x3FF0000000000000 := by decide +kernel
example : Format.double.round 1 10 = 0x3FB999999999999A := by decide +kernel
example : Format.single.round (10 ^ 39) 1 = Format.single.infinity := by decide +kernel
example : Format.single.round 1 (2 ^ 150) = 0 := by decide +kernel

-- ---------------------------------------------------------------------------
-- Signed numbers
-- ---------------------------------------------------------------------------

structure Binary (f : Format) where
  negative : Bool
  code : Nat
  deriving DecidableEq

abbrev Double := Binary .double

abbrev Single := Binary .single

namespace Binary

def isInfinite (x : Binary f) : Bool := x.code == f.infinity

def isNaN (x : Binary f) : Bool := decide (f.infinity < x.code)

def isFinite (x : Binary f) : Bool := decide (x.code < f.infinity)

def isZero (x : Binary f) : Bool := x.code == 0

def infinite (f : Format) (negative : Bool) : Binary f := ⟨negative, f.infinity⟩

/-- The quiet one without a sign. -/
def nan (f : Format) : Binary f := ⟨false, f.infinity + f.binade / 2⟩

def ofRatio (f : Format) (negative : Bool) (num den : Nat) : Binary f := ⟨negative, f.round num den⟩

def ofInt (f : Format) (n : Int) : Binary f := ofRatio f (n < 0) n.natAbs 1

/-- Product of finite numbers. -/
def mul (x y : Binary f) : Binary f :=
  let (a, b) := f.ratio x.code
  let (c, d) := f.ratio y.code
  ofRatio f (x.negative != y.negative) (a * c) (b * d)

/-- Quotient of a finite number by a finite one that is not zero. -/
def div (x y : Binary f) : Binary f :=
  let (a, b) := f.ratio x.code
  let (c, d) := f.ratio y.code
  ofRatio f (x.negative != y.negative) (a * d) (b * c)

/-- A hundredth; what is not finite stays as it is. -/
def hundredth (x : Binary f) : Binary f :=
  if x.isFinite then
    let (a, b) := f.ratio x.code
    ofRatio f x.negative a (100 * b)
  else x

/-- The nearest number of another format. -/
def convert (g : Format) (x : Binary f) : Binary g :=
  if x.isFinite then
    let (a, b) := f.ratio x.code
    ofRatio g x.negative a b
  else if x.isInfinite then infinite g x.negative
  else nan g

/-- The interchange encoding: the sign bit above the code. -/
def bits (x : Binary f) : Nat :=
  x.code + if x.negative then (f.top + 1) * f.binade else 0

end Binary

example : (Binary.ofInt .single (-1)).bits = 0xBF800000 := by decide +kernel
example : (Binary.ofInt .single 50).hundredth.bits = 0x3F000000 := by decide +kernel

end LiveLayout.Numeric
