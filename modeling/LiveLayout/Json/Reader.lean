import LiveLayout.Json.Document
import LiveLayout.Json.Numeral

/-!
# Reading JSON text

`Source.ofString` turns any text into a document. Nothing is refused here: what
is wrong with a text stands in the document, at the place where a reader meets
it. Containers nest to a depth of 127.
-/

namespace LiveLayout.Json

open Numeric (spanDigits ofDigits)

def isSpace (c : Char) : Bool := c == ' ' || c == '\t' || c == '\n' || c == '\r'

def dropSpace (cs : List Char) : List Char := cs.dropWhile isSpace

def maxDepth : Nat := 127

/-- Where the text is neither readable nor passable. -/
def flawAt (cs : List Char) (fault : Fault) : Flaw := ⟨cs.head?, fault, some fault⟩

/-- A flaw where one more character was needed. -/
def missing (cs : List Char) : Flaw := flawAt cs (if cs.isEmpty then .cutShort else .malformed)

-- ---------------------------------------------------------------------------
-- Strings
-- ---------------------------------------------------------------------------

def hexValue? (c : Char) : Option Nat :=
  if c.isDigit then some (c.toNat - 0x30)
  else if 'a' ≤ c ∧ c ≤ 'f' then some (c.toNat - 0x57)
  else if 'A' ≤ c ∧ c ≤ 'F' then some (c.toNat - 0x37)
  else none

def hexValue4? (a b c d : Char) : Option Nat := do
  let a ← hexValue? a
  let b ← hexValue? b
  let c ← hexValue? c
  let d ← hexValue? d
  pure (((a * 16 + b) * 16 + c) * 16 + d)

def escaped? : Char → Option Char
  | '"' => some '"'
  | '\\' => some '\\'
  | '/' => some '/'
  | 'b' => some '\x08'
  | 'f' => some '\x0c'
  | 'n' => some '\n'
  | 'r' => some '\r'
  | 't' => some '\t'
  | _ => none

/-- What stands between two quotes so far: the characters in reverse, or nothing
once a surrogate has stayed alone; and the first half of a pair that waits for
the second. -/
structure Inside where
  chars : Option (List Char)
  half : Option Nat

namespace Inside

def start : Inside := ⟨some [], none⟩

def push (s : Inside) (c : Char) : Inside :=
  ⟨if s.half.isSome then none else s.chars.map (c :: ·), none⟩

/-- Takes in a code unit of UTF-16. -/
def pushUnit (s : Inside) (unit : Nat) : Inside :=
  match s.half with
  | some high =>
    if 0xDC00 ≤ unit ∧ unit ≤ 0xDFFF then
      let c := Char.ofNat (0x10000 + (high - 0xD800) * 0x400 + (unit - 0xDC00))
      ⟨s.chars.map (c :: ·), none⟩
    else ⟨none, none⟩
  | none =>
    if 0xDC00 ≤ unit ∧ unit ≤ 0xDFFF then ⟨none, none⟩
    else if 0xD800 ≤ unit ∧ unit ≤ 0xDBFF then ⟨s.chars, some unit⟩
    else s.push (Char.ofNat unit)

def finish (s : Inside) : Option String :=
  if s.half.isSome then none else s.chars.map fun cs => String.ofList cs.reverse

end Inside

/-- Scans up to the closing quote. The text is there if it is readable as far
as it goes, and the rest if there is a closing quote. -/
def scanString (s : Inside) : List Char → Option String × Except Fault (List Char)
  | [] => (s.chars.map fun _ => "", .error .cutShort)
  | '"' :: rest => (s.finish, .ok rest)
  | '\\' :: 'u' :: a :: b :: c :: d :: rest =>
    match hexValue4? a b c d with
    | some unit => scanString (s.pushUnit unit) rest
    | none =>
      let size := (a :: b :: c :: d :: rest).foldl (fun n c => n + c.utf8Size) 0
      (s.chars.map fun _ => "", .error (if size < 4 then .cutShort else .malformed))
  | '\\' :: 'u' :: rest =>
    let size := rest.foldl (fun n c => n + c.utf8Size) 0
    (s.chars.map fun _ => "", .error (if size < 4 then .cutShort else .malformed))
  | '\\' :: c :: rest =>
    match escaped? c with
    | some e => scanString (s.push e) rest
    | none => (s.chars.map fun _ => "", .error .malformed)
  | ['\\'] => (s.chars.map fun _ => "", .error .cutShort)
  | c :: rest =>
    if c.toNat < 0x20 then (s.chars.map fun _ => "", .error .malformed)
    else scanString (s.push c) rest

-- ---------------------------------------------------------------------------
-- Leaves
-- ---------------------------------------------------------------------------

/-- A document and the text after it, if the text is still JSON there. -/
abbrev Reading := Document × Option (List Char)

def unreadable (lead : Char) : Document := .broken ⟨some lead, .malformed, none⟩

def readString (cs : List Char) : Reading :=
  match scanString .start cs with
  | (some s, .ok rest) => (.string s, some rest)
  | (none, .ok rest) => (unreadable '"', some rest)
  | (some _, .error fault) => (.broken ⟨some '"', fault, some fault⟩, none)
  | (none, .error fault) => (.broken ⟨some '"', .malformed, some fault⟩, none)

/-- A word whose first character is known. -/
def readWord (lead : Char) (d : Document) : List Char → List Char → Reading
  | [], rest => (d, some rest)
  | _ :: _, [] => (.broken ⟨some lead, .cutShort, some .cutShort⟩, none)
  | w :: ws, c :: cs =>
    if w = c then readWord lead d ws cs
    else (.broken ⟨some lead, .malformed, some .malformed⟩, none)

/-- A numeral that breaks off before `cs`. Only a reader tells the end of the
text from a wrong character. -/
def brokenNumeral (lead : Char) (cs : List Char) : Reading :=
  (.broken ⟨some lead, if cs.isEmpty then .cutShort else .malformed, some .malformed⟩, none)

def finishNumeral (lead : Char) (n : Numeral) (rest : List Char) : Reading :=
  match n.number? with
  | some x => (.number x, some rest)
  | none => (unreadable lead, some rest)

/-- The exponent part, if there is one, and the end of the numeral. -/
def readExponent (lead : Char) (n : Numeral) : List Char → Reading
  | c :: cs =>
    if c = 'e' ∨ c = 'E' then
      let (negative, rest) := Numeric.takeSign cs
      let (digits, rest) := spanDigits rest
      if digits.isEmpty then brokenNumeral lead rest
      else finishNumeral lead { n with exponent := some (negative, digits) } rest
    else finishNumeral lead n (c :: cs)
  | [] => finishNumeral lead n []

def readNumeral (lead : Char) (negative : Bool) (cs : List Char) : Reading :=
  let (whole, rest) := spanDigits cs
  match whole, rest with
  | [], rest => brokenNumeral lead rest
  | '0' :: _ :: _, _ => (.broken ⟨some lead, .malformed, some .malformed⟩, none)
  | whole, '.' :: rest =>
    let (fraction, rest) := spanDigits rest
    if fraction.isEmpty then brokenNumeral lead rest
    else readExponent lead ⟨negative, whole, fraction, none⟩ rest
  | whole, rest => readExponent lead ⟨negative, whole, [], none⟩ rest

-- ---------------------------------------------------------------------------
-- Values
-- ---------------------------------------------------------------------------

/-- Parts of a container up to its end or to where it stops. -/
structure Parts (α : Type) where
  parts : List α
  stop : Option Flaw
  rest : Option (List Char)

def Parts.stopAt (flaw : Flaw) : Parts α := ⟨[], some flaw, none⟩

def Parts.cons (part : α) (more : Parts α) : Parts α := { more with parts := part :: more.parts }

mutual
def readValue : (fuel : Nat) → (depth : Nat) → List Char → Reading
  | 0, _, cs => (.broken (missing cs), none)
  | fuel + 1, depth, cs =>
    match dropSpace cs with
    | [] => (.broken (missing []), none)
    | '"' :: rest => readString rest
    | 'n' :: rest => readWord 'n' .null ['u', 'l', 'l'] rest
    | 't' :: rest => readWord 't' (.bool true) ['r', 'u', 'e'] rest
    | 'f' :: rest => readWord 'f' (.bool false) ['a', 'l', 's', 'e'] rest
    | '-' :: rest => readNumeral '-' true rest
    | '[' :: rest =>
      let r := readItems fuel (depth + 1) true rest
      let stop :=
        if depth < maxDepth then r.stop
        else some ⟨some '[', .malformed, (skipItems r.parts).or (r.stop.bind (·.skip))⟩
      (.array (if depth < maxDepth then r.parts else []) stop, r.rest)
    | '{' :: rest =>
      let r := readFields fuel (depth + 1) true rest
      let stop :=
        if depth < maxDepth then r.stop
        else some ⟨some '{', .malformed, (skipFields r.parts).or (r.stop.bind (·.skip))⟩
      (.object (if depth < maxDepth then r.parts else []) stop, r.rest)
    | c :: rest =>
      if c.isDigit then readNumeral c false (c :: rest)
      else (.broken (flawAt (c :: rest) .malformed), none)

def readItems : (fuel : Nat) → (depth : Nat) → (first : Bool) → List Char → Parts Document
  | 0, _, _, cs => .stopAt (missing cs)
  | fuel + 1, depth, first, cs =>
    match dropSpace cs with
    | [] => .stopAt (missing [])
    | ']' :: rest => ⟨[], none, some rest⟩
    | c :: rest =>
      if first then readItem fuel depth (c :: rest)
      else if c = ',' then
        match dropSpace rest with
        | [] => .stopAt ⟨some ',', .cutShort, some .cutShort⟩
        | ']' :: _ => .stopAt ⟨some ',', .malformed, some .malformed⟩
        | more => readItem fuel depth more
      else .stopAt (flawAt (c :: rest) .malformed)

/-- One item and those after it. -/
def readItem : (fuel : Nat) → (depth : Nat) → List Char → Parts Document
  | 0, _, cs => .stopAt (missing cs)
  | fuel + 1, depth, cs =>
    let (item, rest) := readValue fuel depth cs
    match rest with
    | some rest => .cons item (readItems fuel depth false rest)
    | none => ⟨[item], some (missing []), none⟩

def readFields :
    (fuel : Nat) → (depth : Nat) → (first : Bool) → List Char → Parts (String × Document)
  | 0, _, _, cs => .stopAt (missing cs)
  | fuel + 1, depth, first, cs =>
    match dropSpace cs with
    | [] => .stopAt (missing [])
    | '}' :: rest => ⟨[], none, some rest⟩
    | c :: rest =>
      if first then
        if c = '"' then readField fuel depth rest else .stopAt (flawAt (c :: rest) .malformed)
      else if c = ',' then
        match dropSpace rest with
        | [] => .stopAt ⟨some ',', .cutShort, some .cutShort⟩
        | '"' :: more => readField fuel depth more
        | _ => .stopAt ⟨some ',', .malformed, some .malformed⟩
      else .stopAt (flawAt (c :: rest) .malformed)

/-- One field, after the quote that opens its name, and those after it. A name
that cannot be read ends the object for a reader. -/
def readField : (fuel : Nat) → (depth : Nat) → List Char → Parts (String × Document)
  | 0, _, cs => .stopAt (missing cs)
  | fuel + 1, depth, cs =>
    match readString cs with
    | (.string name, some rest) => readFieldValue fuel depth name rest
    | (.broken flaw, some rest) =>
      let more := readFieldValue fuel depth "" rest
      ⟨[], some { flaw with skip := (skipFields more.parts).or (more.stop.bind (·.skip)) },
        more.rest⟩
    | (.broken flaw, none) => .stopAt flaw
    | _ => .stopAt (missing [])

def readFieldValue : (fuel : Nat) → (depth : Nat) → String → List Char → Parts (String × Document)
  | 0, _, _, cs => .stopAt (missing cs)
  | fuel + 1, depth, name, cs =>
    match dropSpace cs with
    | ':' :: rest =>
      let (d, rest) := readValue fuel depth rest
      match rest with
      | some rest => .cons (name, d) (readFields fuel depth false rest)
      | none => ⟨[(name, d)], some (missing []), none⟩
    | rest => ⟨[(name, .broken (missing rest))], some (missing rest), none⟩
end

def Source.ofChars (cs : List Char) : Source :=
  let (root, rest) := readValue (4 * cs.length + 4) 0 cs
  let trailing := rest.bind fun rest => if (dropSpace rest).isEmpty then none else some .malformed
  ⟨root, trailing⟩

def Source.ofString (text : String) : Source := .ofChars text.toList

/-- The value a text is, read as a whole. -/
def read (text : String) : Except Fault Json := do
  let source := Source.ofString text
  let value ← source.root.value
  match source.trailing with
  | some fault => throw fault
  | none => pure value

end LiveLayout.Json
