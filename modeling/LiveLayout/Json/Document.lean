import LiveLayout.Json.Basic

/-!
# Documents

A document is what a text says when it is read as JSON: a value in which a
repeated name still stands twice, and which ends where the text stops being
JSON. A reader with an expectation walks it from the left, so whichever comes
first counts: a place where the text is broken, or one where its content is
not what was expected. `value` reads a whole document as a value, `skip` passes
over one whose content does not matter.
-/

namespace LiveLayout.Json

/-- Why a text is not JSON: something wrong stands in it, or it ends too early. -/
inductive Fault where
  | malformed
  | cutShort
  deriving DecidableEq

/-- A broken place: the character that stands there, the fault for a reader,
and the fault for one who passes over it. Numbers out of range, unpaired
surrogates and nesting beyond the limit stop only a reader. -/
structure Flaw where
  lead : Option Char
  read : Fault
  skip : Option Fault
  deriving DecidableEq

inductive Document where
  | null
  | bool (value : Bool)
  | number (value : Number)
  | string (value : String)
  | array (items : List Document) (stop : Option Flaw)
  | object (fields : List (String × Document)) (stop : Option Flaw)
  | broken (flaw : Flaw)
  deriving Inhabited

/-- A whole text: one document, and the fault of whatever follows it. -/
structure Source where
  root : Document
  trailing : Option Fault

def stopped : Option Flaw → Except Fault Unit
  | none => .ok ()
  | some flaw => .error flaw.read

-- ---------------------------------------------------------------------------
-- Reading and passing over
-- ---------------------------------------------------------------------------

mutual
def Document.value : Document → Except Fault Json
  | .null => .ok .null
  | .bool b => .ok (.bool b)
  | .number n => .ok (.number n)
  | .string s => .ok (.string s)
  | .array items stop => do
    let values ← itemValues items
    stopped stop
    pure (.array values)
  | .object fields stop => do
    let values ← fieldValues fields
    stopped stop
    pure (.object (Fields.ofPairs values))
  | .broken flaw => .error flaw.read
def itemValues : List Document → Except Fault (List Json)
  | [] => .ok []
  | d :: rest => do
    let v ← d.value
    pure (v :: (← itemValues rest))
def fieldValues : List (String × Document) → Except Fault (List (String × Json))
  | [] => .ok []
  | (k, d) :: rest => do
    let v ← d.value
    pure ((k, v) :: (← fieldValues rest))
end

mutual
/-- The fault met by passing over a document. -/
def Document.skip : Document → Option Fault
  | .array items stop => (skipItems items).or (stop.bind (·.skip))
  | .object fields stop => (skipFields fields).or (stop.bind (·.skip))
  | .broken flaw => flaw.skip
  | _ => none
def skipItems : List Document → Option Fault
  | [] => none
  | d :: rest => d.skip.or (skipItems rest)
def skipFields : List (String × Document) → Option Fault
  | [] => none
  | (_, d) :: rest => d.skip.or (skipFields rest)
end

-- ---------------------------------------------------------------------------
-- Documents of values
-- ---------------------------------------------------------------------------

mutual
/-- The document that says a value. -/
def document : Json → Document
  | .null => .null
  | .bool b => .bool b
  | .number n => .number n
  | .string s => .string s
  | .array items => .array (itemDocuments items) none
  | .object fields => .object (fieldDocuments fields) none
def itemDocuments : List Json → List Document
  | [] => []
  | v :: rest => v.document :: itemDocuments rest
def fieldDocuments : List (String × Json) → List (String × Document)
  | [] => []
  | (k, v) :: rest => (k, v.document) :: fieldDocuments rest
end

mutual
theorem skip_document (v : Json) : v.document.skip = none := by
  cases v with
  | array items => simp [document, Document.skip, skipItems_itemDocuments items]
  | object fields => simp [document, Document.skip, skipFields_fieldDocuments fields]
  | _ => rfl
theorem skipItems_itemDocuments (items : List Json) : skipItems (itemDocuments items) = none := by
  cases items with
  | nil => rfl
  | cons v rest =>
    simp [itemDocuments, skipItems, skip_document v, skipItems_itemDocuments rest]
theorem skipFields_fieldDocuments (fields : List (String × Json)) :
    skipFields (fieldDocuments fields) = none := by
  cases fields with
  | nil => rfl
  | cons p rest =>
    simp [fieldDocuments, skipFields, skip_document p.2, skipFields_fieldDocuments rest]
end

end LiveLayout.Json
