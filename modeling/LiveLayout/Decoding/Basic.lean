import LiveLayout.Decoding.Error
import LiveLayout.Json.Reader

/-!
# Decoding documents

Decoders for the parts that records are made of. How strictly a document is
taken depends on where it comes from, its `Origin`. Decoders go through a
document from the left, so the first thing that is wrong is the one reported.
-/

namespace LiveLayout.Decoding

open Json (Document Flaw Source)

/-- Where a document comes from: straight from a text, which may be broken; from
a value; or from a part that was read as a whole before its shape was known,
either handed over (`held`) or only looked at (`lent`) because it may have to be
looked at again. -/
inductive Origin where
  | text
  | value
  | held
  | lent
  deriving DecidableEq

-- ---------------------------------------------------------------------------
-- Leaves
-- ---------------------------------------------------------------------------

def string : Document → Result String
  | .string s => .ok s
  | d => refuse "a string" d

def word : Document → Result Nat
  | .number (.int n) =>
    if n < 0 then fail (.invalidValue (.number (.int n)) "u64") else .ok n.toNat
  | d => refuse "u64" d

def json (d : Document) : Result Json :=
  match d.value with
  | .ok v => .ok v
  | .error f => fault f

/-- A null stands for nothing. -/
def optional (decode : Document → Result α) : Document → Result (Option α)
  | .null => .ok none
  | .broken flaw =>
    if flaw.lead = some 'n' then fault flaw.read else (decode (.broken flaw)).map some
  | d => (decode d).map some

/-- Passes over a document that nobody asked for. -/
def ignore (d : Document) : Result Unit :=
  match d.skip with
  | none => .ok ()
  | some f => fault f

/-- Reads a document as a whole before its shape is looked at. Only a text can
break off in it. -/
def hold (origin : Origin) (d : Document) : Result Unit :=
  match origin with
  | .text => (json d).map fun _ => ()
  | _ => .ok ()

def ended : Option Flaw → Result Unit
  | none => .ok ()
  | some flaw => fault flaw.read

-- ---------------------------------------------------------------------------
-- Sequences and maps
-- ---------------------------------------------------------------------------

def items (decode : Document → Result α) : List Document → Result (List α)
  | [] => .ok []
  | d :: rest => do
    let a ← decode d
    let as ← items decode rest
    pure (a :: as)

def entries (decode : Document → Result α) : List (String × Document) → Result (List (String × α))
  | [] => .ok []
  | (k, d) :: rest => do
    let a ← decode d
    let as ← entries decode rest
    pure ((k, a) :: as)

def list (decode : Document → Result α) : Document → Result (List α)
  | .array docs stop => do
    let as ← items decode docs
    ended stop
    pure as
  | d => refuse "a sequence" d

def map (decode : Document → Result α) : Document → Result (Fields α)
  | .object docs stop => do
    let as ← entries decode docs
    ended stop
    pure (Fields.ofPairs as)
  | d => refuse "a map" d

-- ---------------------------------------------------------------------------
-- Choices
-- ---------------------------------------------------------------------------

/-- The variant of a name. -/
def variant (variants : Fields α) (name : String) : Result α :=
  match Fields.get? variants name with
  | some a => .ok a
  | none => fail (.unknownVariant name (Fields.names variants))

/-- The empty content of a variant written as a map with one key. -/
def unit (origin : Origin) : Document → Result Unit
  | .null => .ok ()
  | .object [] none => if origin = .held then .ok () else fail (.invalidType .map "unit")
  | d => refuse "unit" d

/-- A choice among names: a string, or a map of the name to null. -/
def choice (variants : Fields α) (origin : Origin) (d : Document) : Result α :=
  match origin, d with
  | _, .string name => variant variants name
  | .text, .object [] none => fault .malformed
  | .text, .object [] (some flaw) => fault flaw.read
  | .text, .object ((name, content) :: more) stop => do
    let a ← variant variants name
    unit .text content
    match more, stop with
    | [], none => pure a
    | [], some flaw => fault (if flaw.lead.isNone then .cutShort else .malformed)
    | _, _ => fault .malformed
  | .text, .broken flaw =>
    fault (if flaw.lead = none ∨ flaw.lead = some '"' then flaw.read else .malformed)
  | .text, _ => fault .malformed
  | origin, .object [(name, content)] _ => do
    let a ← variant variants name
    unit origin content
    pure a
  | _, .object .. => fail (.invalidValue .map "map with a single key")
  | _, d => refuse "string or map" d

/-- A choice by shape: the first attempt that succeeds. What went wrong in the
attempts is not told. -/
def byShape (type : String) (attempts : List (Document → Result α)) (origin : Origin)
    (d : Document) : Result α := do
  hold origin d
  match attempts.findSome? fun attempt => (attempt d).toOption with
  | some a => pure a
  | none => fail (.noVariant type)

-- ---------------------------------------------------------------------------
-- Records
-- ---------------------------------------------------------------------------

/-- Fills the place of a field that may be given once. -/
def once (name : String) (place : Option α) (decode : Document → Result α) (d : Document) :
    Result (Option α) :=
  match place with
  | some _ => fail (.duplicateField name)
  | none => (decode d).map some

def need (name : String) (place : Option α) : Result α :=
  match place with
  | some a => .ok a
  | none => fail (.missingField name)

/-- The fields of a record that is written as a sequence, as far as they have
not been taken. -/
structure Row where
  items : List Document
  stop : Option Flaw
  taken : Nat

abbrev RowReader (α : Type) := StateT Row (Except Error) α

namespace Row

/-- Takes the next field, if there is one. -/
def next? (decode : Document → Result α) : RowReader (Option α) := fun row =>
  match row.items with
  | d :: rest => (decode d).map fun a => (some a, ⟨rest, row.stop, row.taken + 1⟩)
  | [] => (ended row.stop).map fun _ => (none, row)

def nextOr (default : α) (decode : Document → Result α) : RowReader α := do
  pure ((← next? decode).getD default)

/-- Takes a field that a record of the expected shape must have. -/
def needNext (expected : String) (decode : Document → Result α) : RowReader α := fun row => do
  match ← next? decode row with
  | (some a, row) => pure (a, row)
  | (none, row) => fail (.invalidLength row.taken expected)

def plural (n : Nat) (noun : String) : String := s!"{n} {noun}" ++ if n = 1 then "" else "s"

/-- Refuses what is left over when the record is complete. -/
def finish (origin : Origin) (row : Row) : Result Unit :=
  let length := row.taken + row.items.length
  match origin with
  | .text =>
    match row.items, row.stop with
    | [], none => .ok ()
    | [], some flaw => fault (if flaw.lead.isNone then .cutShort else .malformed)
    | _, _ => fault .malformed
  | .value =>
    if row.items.isEmpty then .ok () else fail (.invalidLength length "fewer elements in array")
  | _ =>
    if row.items.isEmpty then .ok ()
    else fail (.invalidLength length (plural row.taken "element" ++ " in sequence"))

/-- Reads a whole record from a sequence. -/
def read (origin : Origin) (reader : RowReader α) (items : List Document) (stop : Option Flaw) :
    Result α := do
  let (a, row) ← reader ⟨items, stop, 0⟩
  row.finish origin
  pure a

end Row

-- ---------------------------------------------------------------------------
-- Whole inputs
-- ---------------------------------------------------------------------------

/-- What is to be decoded: a text, or a value that has been read already. -/
inductive Input where
  | text (text : String)
  | value (value : Json)

/-- Decodes an input to its end. -/
def run (decode : Origin → Document → Result α) : Input → Result α
  | .text text => do
    let source := Source.ofString text
    let a ← decode .text source.root
    match source.trailing with
    | none => pure a
    | some f => fault f
  | .value v => decode .value v.document

end LiveLayout.Decoding
