import LiveLayout.Proofs.Parsing

/-!
# What numbers are written with

A text that is read as a number consists of digits, signs, a point, the mark of
an exponent, and the letters of the words for infinity and for what is no
number.
-/

namespace LiveLayout.Numeric

open Text (isBlank)

/-- Small letters and signs that a number can have. -/
def numeralMarks : List Char := ['+', '-', '.', 'e', 'i', 'n', 'f', 't', 'y', 'a']

/-- Can be part of a number. -/
def isNumeral (c : Char) : Bool := c.isDigit || c.toLower ∈ numeralMarks

def Numerals (cs : List Char) : Prop := ∀ c ∈ cs, isNumeral c = true

theorem isNumeral_blankCodes : ∀ n ∈ Expression.blankCodes, isNumeral (Char.ofNat n) = false := by
  decide +kernel

theorem isBlank_of_isNumeral {c : Char} (h : isNumeral c = true) : isBlank c = false := by
  refine Bool.eq_false_iff.mpr fun hb => ?_
  have hn := isNumeral_blankCodes c.toNat (Expression.mem_blankCodes hb)
  rw [Char.ofNat_toNat, h] at hn
  cases hn

theorem numerals_nil : Numerals [] := fun _ h => nomatch h

theorem Numerals.cons {c : Char} {cs : List Char} (hc : isNumeral c = true) (h : Numerals cs) :
    Numerals (c :: cs) :=
  List.forall_mem_cons.mpr ⟨hc, h⟩

theorem Numerals.append {a b : List Char} (ha : Numerals a) (hb : Numerals b) :
    Numerals (a ++ b) :=
  List.forall_mem_append.mpr ⟨ha, hb⟩

theorem Numerals.notMem {c : Char} {cs : List Char} (h : Numerals cs) (hc : isNumeral c = false) :
    c ∉ cs := by
  intro hm
  simp [h c hm] at hc

theorem numerals_of_digits {cs : List Char} (h : ∀ c ∈ cs, c.isDigit = true) : Numerals cs := by
  intro c hc
  simp [isNumeral, h c hc]

-- ---------------------------------------------------------------------------
-- Parts of numbers
-- ---------------------------------------------------------------------------

theorem numerals_of_takeSign {cs : List Char} (h : Numerals (takeSign cs).2) : Numerals cs := by
  unfold takeSign at h
  split at h
  · exact .cons (by decide) h
  · exact .cons (by decide) h
  · exact h

theorem numerals_of_spanDigits {cs : List Char} (h : Numerals (spanDigits cs).2) :
    Numerals cs := by
  obtain ⟨digits, rest, hs, rfl, hd⟩ := Expression.exists_run Char.isDigit cs
  rw [spanDigits, hs] at h
  exact (numerals_of_digits hd).append h

theorem integer?_numerals {cs : List Char} (h : integer? cs = some n) : Numerals cs := by
  unfold integer? at h
  dsimp only at h
  split at h
  · cases h
  · next hd =>
    simp only [Bool.or_eq_true, Bool.not_eq_true', not_or, Bool.not_eq_false,
      List.all_eq_true] at hd
    exact numerals_of_takeSign (numerals_of_digits hd.2)

theorem exponent_numerals {c : Char} {cs : List Char} {f : Int → Decimal}
    (hc : isNumeral c = true) (h : (integer? cs).map f = some d) : Numerals (c :: cs) := by
  obtain ⟨e, he, -⟩ := Option.map_eq_some_iff.mp h
  exact .cons hc (integer?_numerals he)

theorem unsigned?_numerals {cs : List Char} (h : unsigned? negative cs = some d) :
    Numerals cs := by
  unfold unsigned? at h
  dsimp only at h
  refine numerals_of_spanDigits ?_
  generalize (spanDigits cs).1 = whole at h
  generalize (spanDigits cs).2 = rest at h ⊢
  split at h
  · -- with a point
    refine .cons (by decide) (numerals_of_spanDigits ?_)
    split at h
    · cases h
    · split at h
      · next he => exact he ▸ numerals_nil
      · next he => exact he ▸ exponent_numerals (by decide) h
      · next he => exact he ▸ exponent_numerals (by decide) h
      · cases h
  · dsimp only at h
    split at h
    · cases h
    · split at h
      · exact numerals_nil
      · exact exponent_numerals (by decide) h
      · exact exponent_numerals (by decide) h
      · cases h

/-- A word may be written in small and in capital letters. -/
theorem numerals_of_toLower {cs : List Char} {word : String}
    (h : String.ofList (cs.map Char.toLower) = word)
    (hw : word.toList.all (· ∈ numeralMarks) = true) : Numerals cs := by
  intro c hc
  have hm : c.toLower ∈ word.toList := by
    rw [← h, String.toList_ofList]
    exact List.mem_map_of_mem hc
  have hn := List.all_eq_true.mp hw _ hm
  simp_all [isNumeral]

theorem number?_numerals {f : Format} {cs : List Char} {x : Binary f}
    (h : number? f cs = some x) : Numerals cs := by
  unfold number? at h
  dsimp only at h
  refine numerals_of_takeSign ?_
  generalize (takeSign cs).2 = rest at h ⊢
  split at h
  · next hw =>
    rcases hw with hw | hw
    · exact numerals_of_toLower hw (by decide)
    · exact numerals_of_toLower hw (by decide)
  · split at h
    · next hw => exact numerals_of_toLower hw (by decide)
    · obtain ⟨d, hd, -⟩ := Option.map_eq_some_iff.mp h
      exact unsigned?_numerals hd

theorem number?_nil (f : Format) : number? f [] = none := rfl

theorem natural?_numerals {max : Nat} {cs : List Char} (h : natural? max cs = some n) :
    Numerals cs := by
  have hdigits : ∀ rest : List Char,
      (rest.isEmpty || !rest.all Char.isDigit || decide (max < ofDigits rest)) = false →
      Numerals rest := by
    intro rest hr
    simp only [Bool.or_eq_false_iff, Bool.not_eq_false', List.all_eq_true] at hr
    exact numerals_of_digits hr.1.2
  unfold natural? at h
  dsimp only at h
  split at h
  · split at h
    · cases h
    · next hr => exact .cons (by decide) (hdigits _ (Bool.eq_false_iff.mpr hr))
  · split at h
    · cases h
    · next hr => exact hdigits _ (Bool.eq_false_iff.mpr hr)

end LiveLayout.Numeric
