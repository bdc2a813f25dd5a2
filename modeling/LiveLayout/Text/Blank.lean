/-!
# Blanks

The white space of the Unicode character database, and what is cut along it:
trimmed texts and words. Texts are lists of characters here; `words` is the same
operation on strings as `wordsOf`.
-/

namespace LiveLayout.Text

/-- The 25 characters with the property White_Space. -/
def isBlank (c : Char) : Bool :=
  let n := c.toNat
  (9 ≤ n && n ≤ 13) || n == 0x20 || n == 0x85 || n == 0xA0 || n == 0x1680 ||
    (0x2000 ≤ n && n ≤ 0x200A) || n == 0x2028 || n == 0x2029 || n == 0x202F ||
    n == 0x205F || n == 0x3000

theorem isBlank_of_isWhitespace {c : Char} (h : c.isWhitespace = true) : isBlank c = true := by
  simp only [Char.isWhitespace, Bool.or_eq_true, decide_eq_true_eq] at h
  rcases h with ((rfl | rfl) | rfl) | rfl <;> decide

def dropBlanks (cs : List Char) : List Char := cs.dropWhile isBlank

def dropTrailing (p : Char → Bool) (cs : List Char) : List Char := (cs.reverse.dropWhile p).reverse

def trim (cs : List Char) : List Char := dropTrailing isBlank (dropBlanks cs)

theorem dropBlanks_of_solid {c : Char} (h : isBlank c = false) (cs : List Char) :
    dropBlanks (c :: cs) = c :: cs := by
  simp [dropBlanks, h]

/-- A text from one solid character to another is all that trimming leaves. -/
theorem trim_of_solid {c d : Char} (hc : isBlank c = false) (hd : isBlank d = false)
    (cs : List Char) {ws : List Char} (hw : ∀ w ∈ ws, isBlank w = true) :
    trim (c :: (cs ++ d :: ws)) = c :: (cs ++ [d]) := by
  have hr : (c :: (cs ++ d :: ws)).reverse = ws.reverse ++ d :: (c :: cs).reverse := by simp
  rw [trim, dropBlanks_of_solid hc, dropTrailing, hr, List.dropWhile_append_of_pos (by simpa using hw),
    List.dropWhile_cons_of_neg (by simp [hd])]
  simp

-- ---------------------------------------------------------------------------
-- Words
-- ---------------------------------------------------------------------------

/-- A word of no characters is no word. -/
def addWord : List Char → List (List Char) → List (List Char)
  | [], rest => rest
  | word, rest => word :: rest

/-- The run of solid characters a text starts with, and the words after it. -/
def leadingWord : List Char → List Char × List (List Char)
  | [] => ([], [])
  | c :: cs =>
    let (word, rest) := leadingWord cs
    if isBlank c then ([], addWord word rest) else (c :: word, rest)

def wordsOf (cs : List Char) : List (List Char) :=
  let (word, rest) := leadingWord cs
  addWord word rest

/-- The maximal runs of solid characters, in order. -/
def words (s : String) : List String := (wordsOf s.toList).map String.ofList

example : words " a\tbc \u3000 d" = ["a", "bc", "d"] := by cbv

end LiveLayout.Text
