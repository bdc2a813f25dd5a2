import LiveLayout.Json.Basic
import LiveLayout.Numeric.Shortest

/-!
# JSON text of a value

The compact form: no blanks, integers plain, doubles with the fewest digits
that read back, and in strings only the quote, the backslash and the control
characters escaped.
-/

namespace LiveLayout.Json

open Numeric (Double)

/-- `digits` with the point after the first `place` of them. -/
def positional (digits : List Char) (place : Int) : List Char :=
  if place ≤ 0 then '0' :: '.' :: (List.replicate (-place).toNat '0' ++ digits)
  else if digits.length ≤ place.toNat then
    digits ++ List.replicate (place.toNat - digits.length) '0' ++ ['.', '0']
  else digits.take place.toNat ++ '.' :: digits.drop place.toNat

/-- One digit before the point and an exponent that always has a sign. -/
def withExponent (digits : List Char) (place : Int) : List Char :=
  let significand := match digits with
    | [] => ['0']
    | [d] => [d]
    | d :: more => d :: '.' :: more
  let e := place - 1
  significand ++ 'e' :: (if e < 0 then '-' else '+') :: Nat.toDigits 10 e.natAbs

def dropZeros (digits : List Char) : List Char :=
  (digits.reverse.dropWhile (· == '0')).reverse

/-- Positional from 1e-5 up to 1e16, with an exponent outside. -/
def doubleText (x : Double) : List Char :=
  let magnitude :=
    if x.isZero then ['0', '.', '0']
    else
      let s := Numeric.Format.double.shortest x.code
      let all := Nat.toDigits 10 s.digits
      let place := s.exponent + all.length
      let digits := dropZeros all
      if -5 < place ∧ place ≤ 16 then positional digits place else withExponent digits place
  if x.negative then '-' :: magnitude else magnitude

example : doubleText ⟨true, 0⟩ = "-0.0".toList := by decide +kernel
example : doubleText (.ofRatio .double false 1 100000) = "0.00001".toList := by decide +kernel
example : doubleText (.ofRatio .double false 15 (10 ^ 8)) = "1.5e-7".toList := by decide +kernel
example : doubleText (.ofRatio .double false (10 ^ 16) 1) = "1e+16".toList := by decide +kernel

def intText (n : Int) : List Char :=
  if n < 0 then '-' :: Nat.toDigits 10 n.natAbs else Nat.toDigits 10 n.natAbs

end Json

def Number.text : Number → List Char
  | .int n => Json.intText n
  | .real x => Json.doubleText x

namespace Json

def escapeChar (c : Char) : List Char :=
  match c with
  | '"' => ['\\', '"']
  | '\\' => ['\\', '\\']
  | '\x08' => ['\\', 'b']
  | '\x09' => ['\\', 't']
  | '\x0a' => ['\\', 'n']
  | '\x0c' => ['\\', 'f']
  | '\x0d' => ['\\', 'r']
  | c =>
    if c.toNat < 0x20 then
      ['\\', 'u', '0', '0', Nat.digitChar (c.toNat / 16), Nat.digitChar (c.toNat % 16)]
    else [c]

def stringText (s : String) : List Char := '"' :: (s.toList.flatMap escapeChar ++ ['"'])

mutual
/-- Characters of the compact text. -/
def chars : Json → List Char
  | .null => ['n', 'u', 'l', 'l']
  | .bool true => ['t', 'r', 'u', 'e']
  | .bool false => ['f', 'a', 'l', 's', 'e']
  | .number n => n.text
  | .string s => stringText s
  | .array items => '[' :: (itemChars items ++ [']'])
  | .object fields => '{' :: (fieldChars fields ++ ['}'])
def itemChars : List Json → List Char
  | [] => []
  | [v] => v.chars
  | v :: rest => v.chars ++ ',' :: itemChars rest
def fieldChars : List (String × Json) → List Char
  | [] => []
  | [(k, v)] => stringText k ++ ':' :: v.chars
  | (k, v) :: rest => stringText k ++ ':' :: (v.chars ++ ',' :: fieldChars rest)
end

/-- The compact text of a value. -/
def text (v : Json) : String := String.ofList v.chars

/-- A string itself, any other value as its compact text. -/
def plainText : Json → String
  | .string s => s
  | v => v.text

example : (object [("a", array [null, int (-3)]), ("b", string "\n")]).text =
    "\x7b\"a\":[null,-3],\"b\":\"\\n\"\x7d" := by cbv

end Json

end LiveLayout
