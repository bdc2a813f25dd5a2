import LiveLayout.Expression.Parser

/-!
# The grammar of expressions

Which texts are expressions, and what they say, without a reader: a relation
for each construct between the characters it is written with and what they
mean. Runs of characters need no rule that they go on as far as they can. What
may follow a word, a bare key or a number is a blank, a comma, a colon or a
bracket, and none of these could belong to the run.
-/

namespace LiveLayout.Expression

open Text (isBlank isAlphabetic)

-- powers are those of the core library, whatever else is in scope
attribute [local instance (high)] instPowNat

-- ---------------------------------------------------------------------------
-- Runs and strings
-- ---------------------------------------------------------------------------

/-- Any number of blanks, also none. -/
def Blanks (ws : List Char) : Prop := ∀ c ∈ ws, isBlank c = true

/-- At least one character, and all of one class. -/
def Run (p : Char → Bool) (cs : List Char) : Prop := cs ≠ [] ∧ ∀ c ∈ cs, p c = true

/-- What stands between two quotes, and the text it means. -/
inductive Quoted (quote : Char) : List Char → List Char → Prop where
  | done : Quoted quote [] []
  | plain {c : Char} {cs text : List Char} (hq : c ≠ quote) (hb : c ≠ '\\') :
      Quoted quote cs text → Quoted quote (c :: cs) (c :: text)
  | newline {cs text : List Char} :
      Quoted quote cs text → Quoted quote ('\\' :: 'n' :: cs) ('\n' :: text)
  | tab {cs text : List Char} :
      Quoted quote cs text → Quoted quote ('\\' :: 't' :: cs) ('\t' :: text)
  | escaped {c : Char} {cs text : List Char} (hn : c ≠ 'n') (ht : c ≠ 't') :
      Quoted quote cs text → Quoted quote ('\\' :: c :: cs) (c :: text)

/-- A string with its quotes, single or double. -/
inductive Str : List Char → String → Prop where
  | mk {quote : Char} {cs text : List Char} (hq : quote = '"' ∨ quote = '\'') :
      Quoted quote cs text → Str (quote :: (cs ++ [quote])) (String.ofList text)

-- ---------------------------------------------------------------------------
-- Words, numbers and keys
-- ---------------------------------------------------------------------------

inductive Word : List Char → Json → Prop where
  | true : Word ['t', 'r', 'u', 'e'] (.bool true)
  | false : Word ['f', 'a', 'l', 's', 'e'] (.bool false)
  | null : Word ['n', 'u', 'l', 'l'] .null
  | undefined : Word ['u', 'n', 'd', 'e', 'f', 'i', 'n', 'e', 'd'] .null

/-- The text is that of a 64-bit integer. -/
def IsWord (text : List Char) (n : Int) : Prop :=
  Numeric.integer? text = some n ∧ -2 ^ (63 : Nat) ≤ n ∧ n < 2 ^ (63 : Nat)

/-- What a run of digits, signs, points and exponent marks means: an integer if
it is one that fits, and else the double nearest to it, if that is finite. -/
inductive Numeral : List Char → Number → Prop where
  | int {text : List Char} {n : Int} : IsWord text n → Numeral text (.int n)
  | real {text : List Char} {d : Numeric.Decimal} :
      (∀ n, ¬ IsWord text n) → Numeric.decimal? text = some d →
      (d.toBinary .double).isFinite = true → Numeral text (.real (d.toBinary .double))

def startsNumber (c : Char) : Bool := c.isDigit || c == '-' || c == '.'

def startsKey (c : Char) : Bool := isAlphabetic c || c == '_'

inductive Key : List Char → String → Prop where
  | quoted {text : List Char} {s : String} : Str text s → Key text s
  | bare {c : Char} {cs : List Char} (hc : startsKey c = true) (hcs : Run isNameChar (c :: cs)) :
      Key (c :: cs) (String.ofList (c :: cs))

-- ---------------------------------------------------------------------------
-- Lists, literals and expressions
-- ---------------------------------------------------------------------------

/-- At least one thing of a kind, with commas between them. Each comma may have
blanks on either side. -/
inductive Series (P : List Char → α → Prop) : List Char → List α → Prop where
  | last {cs : List Char} {a : α} : P cs a → Series P cs [a]
  | more {cs ws ws' rest : List Char} {a : α} {as : List α} :
      P cs a → Blanks ws → Blanks ws' → Series P rest as →
      Series P (cs ++ (ws ++ ',' :: (ws' ++ rest))) (a :: as)

/-- What stands between two brackets: nothing, or a series, with blanks around. -/
inductive Listed (P : List Char → α → Prop) : List Char → List α → Prop where
  | none {ws : List Char} : Blanks ws → Listed P ws []
  | some {ws cs ws' : List Char} {as : List α} :
      Blanks ws → Series P cs as → Blanks ws' → Listed P (ws ++ (cs ++ ws')) as

/-- The entries of an object in the order they are written, gathered: every key
once, in the place of its first entry, with the value of its last one. -/
structure Gathers (entries : List (String × α)) (fields : Fields α) : Prop where
  names : fields.names = (entries.map (·.1)).eraseDups
  values : ∀ key, fields.get? key = Fields.get? entries.reverse key

mutual
inductive Literal : List Char → Json → Prop where
  | word {cs : List Char} {v : Json} : Word cs v → Literal cs v
  | string {cs : List Char} {s : String} : Str cs s → Literal cs (.string s)
  | number {c : Char} {cs : List Char} {n : Number} (hc : startsNumber c = true)
      (hcs : Run isNumberChar (c :: cs)) : Numeral (c :: cs) n → Literal (c :: cs) (.number n)
  | array {cs : List Char} {items : List Json} :
      Listed Literal cs items → Literal ('[' :: (cs ++ [']'])) (.array items)
  | object {cs : List Char} {entries : List (String × Json)} {fields : Fields Json} :
      Listed Entry cs entries → Gathers entries fields →
      Literal ('{' :: (cs ++ ['}'])) (.object fields)

inductive Entry : List Char → String × Json → Prop where
  | mk {cs ws ws' rest : List Char} {key : String} {v : Json} :
      Key cs key → Blanks ws → Blanks ws' → Literal rest v →
      Entry (cs ++ (ws ++ ':' :: (ws' ++ rest))) (key, v)
end

/-- A method with its arguments. Only here, behind the name of the method and
inside of the parentheses or after them, can an expression have blanks. -/
inductive Call : List Char → MethodCall → Prop where
  | mk {method ws cs ws' : List Char} {args : List Json} :
      Run isNameChar method → Blanks ws → Listed Literal cs args → Blanks ws' →
      Call (method ++ (ws ++ '(' :: (cs ++ ')' :: ws'))) ⟨String.ofList method, args⟩

/-- The texts of expressions. -/
inductive Derives : List Char → Expression → Prop where
  | reference {name : List Char} :
      Run isIdChar name → Derives ('$' :: name) ⟨String.ofList name, none⟩
  | call {name cs : List Char} {call : MethodCall} :
      Run isIdChar name → Call cs call →
      Derives ('$' :: (name ++ '.' :: cs)) ⟨String.ofList name, some call⟩

end LiveLayout.Expression
