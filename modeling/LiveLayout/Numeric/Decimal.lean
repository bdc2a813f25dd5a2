import LiveLayout.Numeric.Binary

/-!
# Decimal literals

Reading numbers written with a sign, digits, a point and an exponent, and the
words for infinity and for what is no number. The value of the digits is exact;
`Decimal.toBinary` rounds it once.
-/

namespace LiveLayout.Numeric

-- powers are those of the core library, whatever else is in scope
attribute [local instance (high)] instPowNat

/-- `±digits · 10 ^ exponent`. -/
structure Decimal where
  negative : Bool
  digits : Nat
  exponent : Int
  deriving DecidableEq

def digitValue (c : Char) : Nat := c.toNat - 0x30

/-- The number a run of digits continues to. -/
def ofDigitsFrom (start : Nat) (cs : List Char) : Nat :=
  cs.foldl (fun n c => n * 10 + digitValue c) start

def ofDigits (cs : List Char) : Nat := ofDigitsFrom 0 cs

def spanDigits (cs : List Char) : List Char × List Char := cs.span Char.isDigit

/-- A sign in front, `+` being silent. -/
def takeSign : List Char → Bool × List Char
  | '-' :: rest => (true, rest)
  | '+' :: rest => (false, rest)
  | cs => (false, cs)

/-- A run of digits with an optional sign. -/
def integer? (cs : List Char) : Option Int :=
  let (negative, rest) := takeSign cs
  if rest.isEmpty || !rest.all Char.isDigit then none
  else some (if negative then -(ofDigits rest : Int) else ofDigits rest)

/-- Digits with an optional point, at least one of them, and an optional
exponent. -/
def unsigned? (negative : Bool) (cs : List Char) : Option Decimal :=
  let (whole, rest) := spanDigits cs
  let (fraction, rest) := match rest with
    | '.' :: rest => spanDigits rest
    | rest => ([], rest)
  if whole.isEmpty && fraction.isEmpty then none
  else
    let digits := ofDigits (whole ++ fraction)
    match rest with
    | [] => some ⟨negative, digits, -(fraction.length : Int)⟩
    | 'e' :: rest | 'E' :: rest =>
      (integer? rest).map fun e => ⟨negative, digits, e - fraction.length⟩
    | _ => none

def decimal? (cs : List Char) : Option Decimal :=
  let (negative, rest) := takeSign cs
  unsigned? negative rest

/-- The nearest number of a format. Beyond ten thousand the exponent alone
decides. -/
def Decimal.toBinary (f : Format) (d : Decimal) : Binary f :=
  if d.digits = 0 then ⟨d.negative, 0⟩
  else
    let size := d.exponent + (Nat.toDigits 10 d.digits).length
    if 10000 < size then .infinite f d.negative
    else if size < -10000 then ⟨d.negative, 0⟩
    else
      .ofRatio f d.negative (d.digits * 10 ^ d.exponent.toNat) (10 ^ (-d.exponent).toNat)

/-- A decimal literal, or one of the words `inf`, `infinity` and `nan` in any
case with an optional sign. -/
def number? (f : Format) (cs : List Char) : Option (Binary f) :=
  let (negative, rest) := takeSign cs
  let word := String.ofList (rest.map Char.toLower)
  if word = "inf" ∨ word = "infinity" then some (.infinite f negative)
  else if word = "nan" then some { Binary.nan f with negative }
  else (unsigned? negative rest).map (·.toBinary f)

/-- A run of digits, with an optional `+`, for a number up to `max`. -/
def natural? (max : Nat) (cs : List Char) : Option Nat :=
  let rest := match cs with
    | '+' :: rest => rest
    | cs => cs
  if rest.isEmpty || !rest.all Char.isDigit || decide (max < ofDigits rest) then none
  else some (ofDigits rest)

example : (number? .single "+5.".toList).map (·.bits) = some 0x40A00000 := by decide +kernel
example : number? .single ".".toList = none := by decide +kernel
example : (number? .double "-.5e1".toList).map (·.bits) = some 0xC014000000000000 := by
  decide +kernel

end LiveLayout.Numeric
