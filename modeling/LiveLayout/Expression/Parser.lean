import LiveLayout.Expression.Basic
import LiveLayout.Numeric.Decimal
import LiveLayout.Text.Alphanumeric
import LiveLayout.Text.Blank

/-!
# Reading expressions

`Expression.parse` reads the text of an expression, blanks around it aside.
Every reader here takes the characters that are left and returns what it read
with the characters left after it, or stops with what is wrong at that place.
-/

namespace LiveLayout.Expression

open Text (dropBlanks isAlphabetic isAlphanumeric)

-- powers are those of the core library, whatever else is in scope
attribute [local instance (high)] instPowNat

/-- What stops a reader. The characters left tell the place. -/
inductive Stop where
  | missingPrefix
  | missingId (left : List Char)
  | missingMethod (left : List Char)
  | unexpected (found : Char) (after : List Char)
  | unterminated (what : Construct)
  | chainedCall
  | nestedExpression
  deriving DecidableEq

def Stop.problem (cs : List Char) : Stop → Problem
  | .missingPrefix => .missingPrefix (String.ofList cs)
  | .missingId left => .missingId (String.ofList cs) (cs.length - left.length)
  | .missingMethod left => .missingMethod (String.ofList cs) (cs.length - left.length)
  | .unexpected found after => .unexpected (String.ofList cs) found (cs.length - (after.length + 1))
  | .unterminated what => .unterminated (String.ofList cs) what
  | .chainedCall => .chainedCall (String.ofList cs)
  | .nestedExpression => .nestedExpression (String.ofList cs)

abbrev Reads (α : Type) := Except Stop (α × List Char)

-- ---------------------------------------------------------------------------
-- Names, strings and numbers
-- ---------------------------------------------------------------------------

/-- Characters of method names and of the bare keys of objects. -/
def isNameChar (c : Char) : Bool := isAlphanumeric c || c == '_'

/-- Ids may have dashes too. -/
def isIdChar (c : Char) : Bool := isNameChar c || c == '-'

/-- The rest of a string up to its closing quote. A backslash makes a newline
of `n`, a tab of `t`, and of any other character that character. -/
def readQuoted (quote : Char) : List Char → Reads (List Char)
  | [] => .error (.unterminated .string)
  | ['\\'] => .error (.unterminated .string)
  | '\\' :: c :: rest =>
    let e := if c = 'n' then '\n' else if c = 't' then '\t' else c
    (readQuoted quote rest).map fun (cs, left) => (e :: cs, left)
  | c :: rest =>
    if c = quote then .ok ([], rest)
    else (readQuoted quote rest).map fun (cs, left) => (c :: cs, left)

def readString (quote : Char) (cs : List Char) : Reads String :=
  (readQuoted quote cs).map fun (text, left) => (String.ofList text, left)

def isNumberChar (c : Char) : Bool :=
  c.isDigit || c == '-' || c == '+' || c == '.' || c == 'e' || c == 'E'

def fitsWord (n : Int) : Bool := decide (-(2 ^ (63 : Nat) : Int) ≤ n) && decide (n < 2 ^ (63 : Nat))

/-- A text as a 64-bit integer if it is one, and otherwise as a finite double. -/
def number? (text : List Char) : Option Number :=
  match (Numeric.integer? text).filter fitsWord with
  | some n => some (.int n)
  | none =>
    (((Numeric.decimal? text).map (·.toBinary .double)).filter (·.isFinite)).map .real

/-- A number, which starts at `first`. -/
def readNumber (first : Char) (rest : List Char) : Reads Json :=
  let (text, left) := (first :: rest).span isNumberChar
  match number? text with
  | some n => .ok (.number n, left)
  | none => .error (.unexpected first rest)

def word? (name : List Char) : Option Json :=
  match String.ofList name with
  | "true" => some (.bool true)
  | "false" => some (.bool false)
  | "null" | "undefined" => some .null
  | _ => none

/-- A literal word, which starts at `first`. -/
def readWord (first : Char) (rest : List Char) : Reads Json :=
  let (name, left) := (first :: rest).span isNameChar
  match word? name with
  | some v => .ok (v, left)
  | none => .error (.unexpected first rest)

/-- A key of an object, quoted or bare. -/
def readKey : List Char → Reads String
  | [] => .error (.unterminated .object)
  | c :: rest =>
    if c = '"' ∨ c = '\'' then readString c rest
    else if isAlphabetic c || c == '_' then
      let (name, left) := (c :: rest).span isNameChar
      .ok (String.ofList name, left)
    else .error (.unexpected c rest)

-- ---------------------------------------------------------------------------
-- Literals
-- ---------------------------------------------------------------------------

mutual
def readLiteral : (fuel : Nat) → List Char → Reads Json
  | 0, _ => .error (.unterminated .argumentList)
  | fuel + 1, cs =>
    match dropBlanks cs with
    | [] => .error (.unterminated .argumentList)
    | c :: rest =>
      if c = '"' ∨ c = '\'' then (readString c rest).map fun (s, left) => (.string s, left)
      else if c = '[' then
        (readItems fuel .array ']' rest).map fun (items, left) => (.array items, left)
      else if c = '{' then
        (readEntries fuel rest).map fun (entries, left) => (.object (Fields.ofPairs entries), left)
      else if c = '$' then .error .nestedExpression
      else if c.isDigit || c == '-' || c == '.' then readNumber c rest
      else if isAlphabetic c then readWord c rest
      else .error (.unexpected c rest)

/-- Literals up to `close`, after what opened `what`. -/
def readItems (fuel : Nat) (what : Construct) (close : Char) (cs : List Char) : Reads (List Json) :=
  match fuel with
  | 0 => .error (.unterminated what)
  | fuel + 1 =>
    if (dropBlanks cs).head? = some close then .ok ([], (dropBlanks cs).tail)
    else readItemsFrom fuel what close cs

/-- One literal and those after it. -/
def readItemsFrom (fuel : Nat) (what : Construct) (close : Char) (cs : List Char) :
    Except Stop (List Json × List Char) :=
  match fuel with
  | 0 => .error (.unterminated what)
  | fuel + 1 => do
    let (item, left) ← readLiteral fuel cs
    match dropBlanks left with
    | [] => .error (.unterminated what)
    | c :: rest =>
      if c = ',' then
        let (items, left) ← readItemsFrom fuel what close rest
        pure (item :: items, left)
      else if c = close then pure ([item], rest)
      else .error (.unexpected c rest)

/-- Entries of an object up to its brace. -/
def readEntries (fuel : Nat) (cs : List Char) : Reads (List (String × Json)) :=
  match fuel with
  | 0 => .error (.unterminated .object)
  | fuel + 1 =>
    if (dropBlanks cs).head? = some '}' then .ok ([], (dropBlanks cs).tail)
    else readEntriesFrom fuel cs

/-- One entry and those after it. -/
def readEntriesFrom (fuel : Nat) (cs : List Char) :
    Except Stop (List (String × Json) × List Char) :=
  match fuel with
  | 0 => .error (.unterminated .object)
  | fuel + 1 => do
    let (key, left) ← readKey (dropBlanks cs)
    match dropBlanks left with
    | [] => .error (.unterminated .object)
    | c :: rest =>
      if c ≠ ':' then .error (.unexpected c rest)
      else
        let (value, left) ← readLiteral fuel rest
        match dropBlanks left with
        | [] => .error (.unterminated .object)
        | c :: rest =>
          if c = ',' then
            let (entries, left) ← readEntriesFrom fuel rest
            pure ((key, value) :: entries, left)
          else if c = '}' then pure ([(key, value)], rest)
          else .error (.unexpected c rest)
end

/-- Arguments after the opening parenthesis, through the closing one. At most
three steps are taken before a character is used up. -/
def readArguments (cs : List Char) : Reads (List Json) :=
  readItems (3 * cs.length + 3) .argumentList ')' cs

-- ---------------------------------------------------------------------------
-- Expressions
-- ---------------------------------------------------------------------------

/-- What follows the point after the id. -/
def readCall (cs : List Char) : Except Stop MethodCall :=
  let (method, left) := cs.span isNameChar
  if method.isEmpty then .error (.missingMethod left)
  else
    match dropBlanks left with
    | [] => .error (.unterminated .argumentList)
    | c :: rest =>
      if c ≠ '(' then .error (.unexpected c rest)
      else do
        let (args, left) ← readArguments rest
        match dropBlanks left with
        | [] => pure ⟨String.ofList method, args⟩
        | c :: rest => if c = '.' then .error .chainedCall else .error (.unexpected c rest)

def readExpression : List Char → Except Stop Expression
  | '$' :: rest =>
    let (target, left) := rest.span isIdChar
    if target.isEmpty then .error (.missingId left)
    else
      match left with
      | [] => .ok ⟨String.ofList target, none⟩
      | c :: rest =>
        if c = '.' then (readCall rest).map fun call => ⟨String.ofList target, some call⟩
        else .error (.unexpected c rest)
  | _ => .error .missingPrefix

def parse (source : String) : Except Problem Expression :=
  let cs := Text.trim source.toList
  (readExpression cs).mapError (Stop.problem cs)

end LiveLayout.Expression
