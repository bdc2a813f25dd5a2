/-!
# Percent encoding

A text as part of an address: the UTF-8 bytes of the unreserved characters
stand for themselves, every other byte is a percent sign and two upper-case
hexadecimal digits. `decodeBytes` reads such a text back byte by byte.
-/

namespace LiveLayout.Text.Percent

/-- Letters, digits, `-`, `_`, `.` and `~`. -/
def isUnreserved (b : UInt8) : Bool :=
  (0x30 ≤ b && b ≤ 0x39) || (0x41 ≤ b && b ≤ 0x5A) || (0x61 ≤ b && b ≤ 0x7A) ||
    b == 0x2D || b == 0x5F || b == 0x2E || b == 0x7E

def hexDigit (n : Nat) : Char := Char.ofNat (if n < 10 then 0x30 + n else 0x37 + n)

def encodeByte (b : UInt8) : List Char :=
  if isUnreserved b then [Char.ofNat b.toNat]
  else ['%', hexDigit (b.toNat / 16), hexDigit (b.toNat % 16)]

def encodeChars (cs : List Char) : List Char :=
  cs.flatMap fun c => (String.utf8EncodeChar c).flatMap encodeByte

def encode (s : String) : String := String.ofList (encodeChars s.toList)

theorem encodeChars_append (a b : List Char) :
    encodeChars (a ++ b) = encodeChars a ++ encodeChars b := by
  simp [encodeChars]

-- ---------------------------------------------------------------------------
-- Reading back
-- ---------------------------------------------------------------------------

def hexValue (c : Char) : Option Nat :=
  let n := c.toNat
  if 0x30 ≤ n ∧ n ≤ 0x39 then some (n - 0x30)
  else if 0x41 ≤ n ∧ n ≤ 0x46 then some (n - 0x37)
  else none

theorem hexValue_hexDigit {n : Nat} (h : n < 16) : hexValue (hexDigit n) = some n := by
  revert n; decide

/-- The bytes an encoded text stands for. -/
def decodeBytes : List Char → Option (List UInt8)
  | [] => some []
  | '%' :: hi :: lo :: rest => do
    let high ← hexValue hi
    let low ← hexValue lo
    let bytes ← decodeBytes rest
    pure (UInt8.ofNat (high * 16 + low) :: bytes)
  | c :: rest =>
    if c.toNat < 0x80 ∧ c ≠ '%' then (decodeBytes rest).map (UInt8.ofNat c.toNat :: ·) else none

example : encode "a b/é" = "a%20b%2F%C3%A9" := by cbv

end LiveLayout.Text.Percent
