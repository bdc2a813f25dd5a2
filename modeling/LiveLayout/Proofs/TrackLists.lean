import LiveLayout.Proofs.Numerals
import LiveLayout.Proofs.Splitting

/-!
# Track lists

Which texts are lists of tracks, and what they say, without a reader: a relation
for each construct between the characters it is written with and what they mean.
The reader finds in every such text just the tracks that it says.
-/

namespace LiveLayout.Grid

open Expression (Blanks)
open Numeric (Single number? natural? Numerals)
open Text (isBlank trim afterStart? beforeEnd? cutAt?)

-- powers are those of the core library, whatever else is in scope
attribute [local instance (high)] instPowNat

-- ---------------------------------------------------------------------------
-- The grammar
-- ---------------------------------------------------------------------------

/-- The size at most that a keyword or a length asks for. -/
def MinSize.toMax : MinSize → MaxSize
  | .auto => .auto
  | .minContent => .minContent
  | .maxContent => .maxContent
  | .fixed length => .fixed length

/-- `20`, `20px` or `50%`, with any number. -/
inductive SaysLength : List Char → Length → Prop
  | plain (h : number? .single n = some x) : SaysLength n (.pixels x)
  | pixels (h : number? .single n = some x) : SaysLength (n ++ ['p', 'x']) (.pixels x)
  | percent (h : number? .single n = some x) : SaysLength (n ++ ['%']) (.percent x.hundredth)

/-- A keyword or a length. -/
inductive SaysSize : List Char → MinSize → Prop
  | auto : SaysSize "auto".toList .auto
  | minContent : SaysSize "min-content".toList .minContent
  | maxContent : SaysSize "max-content".toList .maxContent
  | fixed (h : SaysLength cs length) : SaysSize cs (.fixed length)

/-- A keyword, a length or a fraction. -/
inductive SaysLimit : List Char → MaxSize → Prop
  | size (h : SaysSize cs size) : SaysLimit cs size.toMax
  | fraction (h : number? .single n = some x) : SaysLimit (n ++ ['f', 'r']) (.fraction x)

/-- Something with blanks around it, or with none. -/
inductive Padded (P : List Char → α → Prop) : List Char → α → Prop
  | mk (hb : Blanks before) (h : P cs a) (ha : Blanks after) :
      Padded P (before ++ (cs ++ after)) a

/-- A single track: its least and its largest size are the same, but a fraction
has no least size. -/
inductive SaysTrack : List Char → Track → Prop
  | size (h : SaysSize cs size) : SaysTrack cs ⟨size, size.toMax⟩
  | fraction (h : number? .single n = some x) : SaysTrack (n ++ ['f', 'r']) ⟨.auto, .fraction x⟩
  | minmax (hl : Padded SaysSize low size) (hh : Padded SaysLimit high limit) :
      SaysTrack ("minmax".toList ++ '(' :: (low ++ ',' :: high ++ [')'])) ⟨size, limit⟩

/-- At least one thing of a kind, with blanks between them and, as one likes,
around. -/
inductive Row (P : List Char → α → Prop) : List Char → List α → Prop
  | last (h : Padded P cs a) : Row P cs [a]
  | more (h : Padded P cs a) (hw : isBlank w = true) (hr : Row P rest as) :
      Row P (cs ++ w :: rest) (a :: as)

inductive SaysCount : List Char → Repetition → Prop
  | autoFit : SaysCount "auto-fit".toList .autoFit
  | autoFill : SaysCount "auto-fill".toList .autoFill
  | count (h : natural? 65535 cs = some n) : SaysCount cs (.count n)

inductive SaysItem : List Char → TrackItem → Prop
  | single (h : SaysTrack cs track) : SaysItem cs (.single track)
  | repeated (hc : Padded SaysCount count repetition) (hr : Row SaysTrack row ts) :
      SaysItem ("repeat".toList ++ '(' :: (count ++ ',' :: row ++ [')'])) (.repeated repetition ts)

-- ---------------------------------------------------------------------------
-- Characters
-- ---------------------------------------------------------------------------

/-- Ends no text: is neither a blank, nor a parenthesis, nor a comma. -/
def isTight (c : Char) : Bool := !isBlank c && isPlain c && c ≠ ','

def Tight (cs : List Char) : Prop := ∀ c ∈ cs, isTight c = true

theorem tight_of_all {cs : List Char} (h : cs.all isTight = true) : Tight cs :=
  List.all_eq_true.mp h

theorem Tight.append {a b : List Char} (ha : Tight a) (hb : Tight b) : Tight (a ++ b) :=
  List.forall_mem_append.mpr ⟨ha, hb⟩

theorem tight_of_numerals {cs : List Char} (h : Numerals cs) : Tight cs := by
  intro c hc
  have hb := Numeric.isBlank_of_isNumeral (h c hc)
  have hne : ∀ d, Numeric.isNumeral d = false → c ≠ d := by
    rintro d hd rfl
    exact h.notMem hd hc
  simp [isTight, isPlain, hb, hne '(' (by decide), hne ')' (by decide), hne ',' (by decide)]

theorem Tight.solid {cs : List Char} (h : Tight cs) : ∀ c ∈ cs, isBlank c = false := by
  intro c hc
  have ht := h c hc
  simp only [isTight, Bool.and_eq_true, Bool.not_eq_true'] at ht
  exact ht.1.1

/-- May stand in parentheses, on one side of a comma. -/
def Confined (cs : List Char) : Prop := ∀ c ∈ cs, isPlain c = true ∧ c ≠ ','

theorem Tight.confined {cs : List Char} (h : Tight cs) : Confined cs := by
  intro c hc
  have ht := h c hc
  simp only [isTight, Bool.and_eq_true, decide_eq_true_eq] at ht
  exact ⟨ht.1.2, ht.2⟩

theorem confined_of_blanks {ws : List Char} (h : Blanks ws) : Confined ws := by
  intro c hc
  have hb := h c hc
  have hne : ∀ d, isBlank d = false → c ≠ d := fun d => ne_of_isBlank hb
  simp [isPlain, hne '(' (by decide), hne ')' (by decide), hne ',' (by decide)]

theorem Confined.append {a b : List Char} (ha : Confined a) (hb : Confined b) :
    Confined (a ++ b) :=
  List.forall_mem_append.mpr ⟨ha, hb⟩

theorem Tight.dropTrailing {cs after : List Char} (hc : Tight cs) (ha : Blanks after) :
    Text.dropTrailing isBlank (cs ++ after) = cs := by
  have hkept : cs.reverse.dropWhile isBlank = cs.reverse := by
    cases hr : cs.reverse with
    | nil => rfl
    | cons d ds =>
      have hd := hc.solid d (List.mem_reverse.mp (hr ▸ List.mem_cons_self))
      exact List.dropWhile_cons_of_neg (by simp [hd])
  have hr : ∀ c ∈ after.reverse, isBlank c = true := fun c hc => ha c (List.mem_reverse.mp hc)
  rw [Text.dropTrailing, List.reverse_append, List.dropWhile_append_of_pos hr, hkept,
    List.reverse_reverse]

theorem trim_tight {cs before after : List Char} (hc : Tight cs) (hb : Blanks before)
    (ha : Blanks after) : trim (before ++ (cs ++ after)) = cs := by
  rw [trim, hb.dropBlanks_append]
  cases cs with
  | nil =>
    have hn : Text.dropBlanks after = [] := List.dropWhile_eq_nil_iff.mpr ha
    rw [List.nil_append, hn]
    rfl
  | cons c rest =>
    rw [List.cons_append, Text.dropBlanks_of_solid (hc.solid c List.mem_cons_self)]
    exact hc.dropTrailing ha

theorem Tight.trim {cs : List Char} (hc : Tight cs) : trim cs = cs := by
  simpa using trim_tight hc Expression.blanks_nil Expression.blanks_nil

-- ---------------------------------------------------------------------------
-- Sizes
-- ---------------------------------------------------------------------------

/-- No keyword is written with these characters alone. -/
def isMeasure (c : Char) : Bool := Numeric.isNumeral c || c ∈ ['p', 'x', '%', 'r']

/-- A number with what is written behind it. -/
structure Measured (cs : List Char) : Prop where
  tight : Tight cs
  starts : ∃ c rest, cs = c :: rest ∧ Numeric.isNumeral c = true
  measures : ∀ c ∈ cs, isMeasure c = true

theorem measured_of_number {n unit : List Char} (h : number? .single n = some x)
    (hu : (unit.all fun c => isMeasure c && isTight c) = true) : Measured (n ++ unit) := by
  have hn := Numeric.number?_numerals h
  simp only [List.all_eq_true, Bool.and_eq_true] at hu
  refine ⟨(tight_of_numerals hn).append fun c hc => (hu c hc).2, ?_, ?_⟩
  · cases n with
    | nil => simp [Numeric.number?_nil] at h
    | cons c rest => exact ⟨c, rest ++ unit, rfl, hn c List.mem_cons_self⟩
  · intro c hc
    rcases List.mem_append.mp hc with hc | hc
    · simp [isMeasure, hn c hc]
    · exact (hu c hc).1

theorem Measured.notMem {cs : List Char} (h : Measured cs) {c : Char} (hc : isMeasure c = false) :
    c ∉ cs := by
  intro hm
  simp [h.measures c hm] at hc

theorem SaysLength.measured (h : SaysLength cs length) : Measured cs := by
  cases h with
  | plain h =>
    have hm : Measured (cs ++ []) := measured_of_number h rfl
    simpa using hm
  | pixels h | percent h => exact measured_of_number h (by decide)

theorem notMem_number {n : List Char} {c : Char} (h : number? .single n = some x)
    (hc : Numeric.isNumeral c = false) : c ∉ n :=
  (Numeric.number?_numerals h).notMem hc

theorem SaysLength.notMem_fraction (h : SaysLength cs length) : 'r' ∉ cs := by
  cases h with
  | plain h | pixels h | percent h => simp [notMem_number h (c := 'r') (by decide)]

/-- A number and its unit end with nothing that neither of them has. -/
theorem beforeEnd?_number {n unit ending : List Char} {c : Char} (h : number? .single n = some x)
    (hc : Numeric.isNumeral c = false) (hu : c ∉ unit) (he : c ∈ ending) :
    beforeEnd? ending (n ++ unit) = none :=
  Text.beforeEnd?_of_notMem he (by simp [notMem_number h hc, hu])

theorem single?_number {n : List Char} (h : number? .single n = some x) : single? n = some x := by
  rw [single?, (tight_of_numerals (Numeric.number?_numerals h)).trim, h]

theorem length?_said (h : SaysLength cs length) : length? cs = some length := by
  rw [length?, h.measured.tight.trim]
  cases h with
  | plain h =>
    have hp : beforeEnd? ['%'] cs = none :=
      Text.beforeEnd?_of_notMem (c := '%') (by simp) (notMem_number h (by decide))
    have hx : beforeEnd? ['p', 'x'] cs = none :=
      Text.beforeEnd?_of_notMem (c := 'x') (by simp) (notMem_number h (by decide))
    simp [hp, hx, single?_number h]
  | @pixels n x h =>
    have hp : beforeEnd? ['%'] (n ++ ['p', 'x']) = none :=
      beforeEnd?_number h (c := '%') (by decide) (by simp) (by simp)
    simp [hp, Text.beforeEnd?_append, single?_number h]
  | percent h => simp [Text.beforeEnd?_append, single?_number h]

theorem ofList_ne {cs : List Char} {word : String} (hc : c ∈ word.toList) (hn : c ∉ cs) :
    String.ofList cs ≠ word := by
  rintro rfl
  simp [hn] at hc

/-- What is measured is no keyword. -/
theorem Measured.no_keyword (h : Measured cs) : String.ofList cs ≠ "auto" ∧
    String.ofList cs ≠ "min-content" ∧ String.ofList cs ≠ "max-content" := by
  have hu := h.notMem (c := 'u') (by decide)
  have hm := h.notMem (c := 'm') (by decide)
  exact ⟨ofList_ne (by decide) hu, ofList_ne (by decide) hm, ofList_ne (by decide) hm⟩

theorem Measured.minSize? (h : Measured cs) : minSize? cs = (length? cs).map .fixed := by
  obtain ⟨hauto, hmin, hmax⟩ := h.no_keyword
  unfold Grid.minSize?
  split
  · next he => exact absurd he hauto
  · next he => exact absurd he hmin
  · next he => exact absurd he hmax
  · rfl

theorem minSize?_said (h : SaysSize cs size) : minSize? cs = some size := by
  cases h with
  | auto | minContent | maxContent => rfl
  | fixed h => simp [h.measured.minSize?, length?_said h]

theorem Measured.maxSize? (h : Measured cs) :
    maxSize? cs = (beforeEnd? ['f', 'r'] cs).elim ((length? cs).map .fixed)
      fun number => (single? number).map .fraction := by
  obtain ⟨hauto, hmin, hmax⟩ := h.no_keyword
  unfold Grid.maxSize?
  split
  · next he => exact absurd he hauto
  · next he => exact absurd he hmin
  · next he => exact absurd he hmax
  · cases beforeEnd? ['f', 'r'] cs <;> rfl

theorem maxSize?_size (h : SaysSize cs size) : maxSize? cs = some size.toMax := by
  cases h with
  | auto | minContent | maxContent => rfl
  | fixed h =>
    have hf : beforeEnd? ['f', 'r'] cs = none :=
      Text.beforeEnd?_of_notMem (c := 'r') (by simp) h.notMem_fraction
    simp [h.measured.maxSize?, hf, length?_said h, MinSize.toMax]

theorem measured_fraction {n : List Char} (h : number? .single n = some x) :
    Measured (n ++ ['f', 'r']) :=
  measured_of_number h (by decide)

theorem maxSize?_fraction {n : List Char} (h : number? .single n = some x) :
    maxSize? (n ++ ['f', 'r']) = some (.fraction x) := by
  simp [(measured_fraction h).maxSize?, Text.beforeEnd?_append, single?_number h]

/-- A fraction is no least size. -/
theorem minSize?_fraction {n : List Char} (h : number? .single n = some x) :
    minSize? (n ++ ['f', 'r']) = none := by
  have hm := measured_fraction h
  have hp : beforeEnd? ['%'] (n ++ ['f', 'r']) = none :=
    beforeEnd?_number h (c := '%') (by decide) (by simp) (by simp)
  have hx : beforeEnd? ['p', 'x'] (n ++ ['f', 'r']) = none :=
    beforeEnd?_number h (c := 'x') (by decide) (by simp) (by simp)
  have hs : single? (n ++ ['f', 'r']) = none := by
    rw [single?, hm.tight.trim]
    cases hn : number? .single (n ++ ['f', 'r']) with
    | none => rfl
    | some y => exact absurd (by simp) (notMem_number hn (c := 'r') (by decide))
  simp [hm.minSize?, length?, hm.tight.trim, hp, hx, hs]

theorem maxSize?_said (h : SaysLimit cs limit) : maxSize? cs = some limit := by
  cases h with
  | size h => exact maxSize?_size h
  | fraction h => exact maxSize?_fraction h

-- ---------------------------------------------------------------------------
-- Sizes in parentheses
-- ---------------------------------------------------------------------------

theorem SaysSize.tight (h : SaysSize cs size) : Tight cs := by
  cases h with
  | auto | minContent | maxContent => exact tight_of_all (by decide)
  | fixed h => exact h.measured.tight

theorem SaysLimit.tight (h : SaysLimit cs limit) : Tight cs := by
  cases h with
  | size h => exact h.tight
  | fraction h => exact (measured_fraction h).tight

theorem SaysCount.tight (h : SaysCount cs repetition) : Tight cs := by
  cases h with
  | autoFit | autoFill => exact tight_of_all (by decide)
  | count h => exact tight_of_numerals (Numeric.natural?_numerals h)

section
variable {P : List Char → α → Prop}

theorem Padded.trim (h : Padded P cs a) (ht : ∀ cs a, P cs a → Tight cs) :
    P (Text.trim cs) a := by
  obtain ⟨hb, h, ha⟩ := h
  rwa [trim_tight (ht _ _ h) hb ha]

theorem Padded.confined (h : Padded P cs a) (ht : ∀ cs a, P cs a → Tight cs) : Confined cs := by
  obtain ⟨hb, h, ha⟩ := h
  exact (confined_of_blanks hb).append ((ht _ _ h).confined.append (confined_of_blanks ha))

end

theorem Tight.unbroken {cs : List Char} (h : Tight cs) (depth : Nat) : Unbroken depth cs depth :=
  unbroken_plain (fun c hc => (h.confined c hc).1) fun _ => h.solid

theorem Confined.unbroken {cs : List Char} (h : Confined cs) (depth : Nat) :
    Unbroken (depth + 1) cs (depth + 1) :=
  unbroken_plain (fun c hc => (h c hc).1) (by simp)

theorem Confined.cutAt? {a : List Char} (h : Confined a) (b : List Char) :
    cutAt? ',' (a ++ ',' :: b) = some (a, b) :=
  Text.cutAt?_append (fun hm => (h ',' hm).2 rfl) b

/-- What stands in parentheses on both sides of a comma. -/
theorem unbroken_pair {a b : List Char} (ha : Confined a)
    (hb : Unbroken (depth + 1) b (depth + 1)) :
    Unbroken (depth + 1) (a ++ ',' :: b) (depth + 1) :=
  (ha.unbroken depth).append (.cons (fun _ => by decide) hb)

theorem inside?_call (name inner : List Char) :
    inside? name (name ++ '(' :: (inner ++ [')'])) = some inner := by
  have hd : Text.dropBlanks ('(' :: (inner ++ [')'])) = ['('] ++ (inner ++ [')']) :=
    Text.dropBlanks_of_solid (by decide) _
  simp only [inside?, Text.afterStart?_append, hd, Text.beforeEnd?_append, Option.bind_eq_bind,
    Option.bind_some]

theorem inside?_of_ne {c d : Char} (h : c ≠ d) (name cs : List Char) :
    inside? (c :: name) (d :: cs) = none := by
  simp [inside?, Text.afterStart?_cons, h]

-- ---------------------------------------------------------------------------
-- Tracks
-- ---------------------------------------------------------------------------

/-- A text of another beginning is no call. -/
theorem Measured.inside? (h : Measured cs) {c : Char} (hc : Numeric.isNumeral c = false)
    (name : List Char) : inside? (c :: name) cs = none := by
  obtain ⟨d, rest, rfl, hd⟩ := h.starts
  refine inside?_of_ne ?_ name rest
  rintro rfl
  simp [hd] at hc

theorem inside?_size (h : SaysSize cs size) : inside? "minmax".toList cs = none := by
  cases h with
  | auto | minContent | maxContent => rfl
  | fixed h => exact h.measured.inside? (c := 'm') (by decide) _

theorem inside?_fraction {n : List Char} (h : number? .single n = some x) :
    inside? "minmax".toList (n ++ ['f', 'r']) = none :=
  (measured_fraction h).inside? (c := 'm') (by decide) _

theorem track?_said (h : SaysTrack cs track) : track? cs = some track := by
  cases h with
  | size h =>
    rw [track?, inside?_size h]
    simp [maxSize?_size h, minSize?_said h]
  | fraction h =>
    rw [track?, inside?_fraction h]
    simp [maxSize?_fraction h, minSize?_fraction h]
  | minmax hl hh =>
    have hlow := minSize?_said (hl.trim fun _ _ => SaysSize.tight)
    have hhigh := maxSize?_said (hh.trim fun _ _ => SaysLimit.tight)
    rw [track?, inside?_call]
    simp [(hl.confined fun _ _ => SaysSize.tight).cutAt?, hlow, hhigh]

theorem unbroken_word {word : List Char} (h : word.all isTight = true) (depth : Nat) :
    Unbroken depth word depth :=
  (tight_of_all h).unbroken depth

theorem SaysTrack.unbroken (h : SaysTrack cs track) (depth : Nat) : Unbroken depth cs depth := by
  cases h with
  | size h => exact h.tight.unbroken depth
  | fraction h => exact (measured_fraction h).tight.unbroken depth
  | minmax hl hh =>
    have hhigh := (hh.confined fun _ _ => SaysLimit.tight).unbroken depth
    exact (unbroken_pair (hl.confined fun _ _ => SaysSize.tight) hhigh).call
      (unbroken_word (by decide))

/-- A track begins with a number, with a keyword or with its name. -/
theorem SaysTrack.starts (h : SaysTrack cs track) : ∃ c rest, cs = c :: rest ∧ c ≠ 'r' := by
  have hmeasured : ∀ {cs}, Measured cs → ∃ c rest, cs = c :: rest ∧ c ≠ 'r' := by
    intro cs h
    obtain ⟨c, rest, rfl, hc⟩ := h.starts
    refine ⟨c, rest, rfl, ?_⟩
    rintro rfl
    cases hc
  cases h with
  | size h =>
    cases h with
    | auto | minContent | maxContent => exact ⟨_, _, rfl, by decide⟩
    | fixed h => exact hmeasured h.measured
  | fraction h => exact hmeasured (measured_fraction h)
  | minmax => exact ⟨_, _, rfl, by decide⟩

-- ---------------------------------------------------------------------------
-- Rows
-- ---------------------------------------------------------------------------

section
variable {P : List Char → α → Prop}

theorem Padded.itemTexts (h : Padded P cs a) (hu : ∀ cs a, P cs a → Unbroken 0 cs 0 ∧ cs ≠ []) :
    openAfter 0 cs = 0 ∧ ∃ text, P text a ∧ itemTexts cs = [text] := by
  obtain ⟨hb, h, ha⟩ := h
  obtain ⟨hunbroken, hne⟩ := hu _ _ h
  have hopen := hunbroken.openAfter
  refine ⟨by simp [openAfter_append, openAfter_blanks, hb, ha, hopen], _, h, ?_⟩
  rw [itemTexts_blanks_append hb, itemTexts_append_blanks hopen ha,
    itemTexts_of_unbroken hunbroken hne]

/-- The items of a row are read one by one. -/
theorem Row.read {read : List Char → Option α} (h : Row P cs as)
    (hu : ∀ cs a, P cs a → Unbroken 0 cs 0 ∧ cs ≠ []) (hr : ∀ cs a, P cs a → read cs = some a) :
    openAfter 0 cs = 0 ∧ (itemTexts cs).filterMap read = as := by
  induction h with
  | last h =>
    obtain ⟨hopen, text, ht, he⟩ := h.itemTexts hu
    exact ⟨hopen, by simp [he, hr _ _ ht]⟩
  | more h hw _ ih =>
    obtain ⟨hopen, text, ht, he⟩ := h.itemTexts hu
    refine ⟨by simp [openAfter_append, hopen, depthAfter_blank hw, ih.1], ?_⟩
    rw [itemTexts_append hopen hw, he, List.filterMap_append, ih.2]
    simp [hr _ _ ht]

theorem Row.unbroken (h : Row P cs as) (hu : ∀ cs a, P cs a → ∀ d, Unbroken d cs d) (depth : Nat) :
    Unbroken (depth + 1) cs (depth + 1) := by
  have hpadded : ∀ {cs a}, Padded P cs a → Unbroken (depth + 1) cs (depth + 1) := by
    rintro _ a ⟨hb, h, ha⟩
    exact ((confined_of_blanks hb).unbroken depth).append
      ((hu _ _ h _).append ((confined_of_blanks ha).unbroken depth))
  induction h with
  | last h => exact hpadded h
  | more h hw _ ih =>
    refine (hpadded h).append (.cons ?_ ?_)
    · simp [depthAfter_blank hw]
    · rwa [depthAfter_blank hw]

theorem Row.ne_nil (h : Row P cs as) : as ≠ [] := by
  cases h <;> simp

end

-- ---------------------------------------------------------------------------
-- Lists of tracks
-- ---------------------------------------------------------------------------

theorem repetition?_said (h : SaysCount cs repetition) : repetition? cs = some repetition := by
  cases h with
  | autoFit | autoFill => rfl
  | count h =>
    have hu : 'u' ∉ cs := (Numeric.natural?_numerals h).notMem (by decide)
    unfold repetition?
    split
    · next he => exact absurd he (ofList_ne (by decide) hu)
    · next he => exact absurd he (ofList_ne (by decide) hu)
    · simp [h]

theorem SaysTrack.whole (h : SaysTrack cs track) : Unbroken 0 cs 0 ∧ cs ≠ [] := by
  obtain ⟨c, rest, rfl, -⟩ := h.starts
  exact ⟨h.unbroken 0, by simp⟩

theorem repeated?_said (hc : Padded SaysCount count repetition) (hr : Row SaysTrack row ts) :
    repeated? (count ++ ',' :: row) = some (.repeated repetition ts) := by
  obtain ⟨hopen, hread⟩ := hr.read (fun _ _ => SaysTrack.whole) fun _ _ => track?_said
  have hcount := repetition?_said (hc.trim fun _ _ => SaysCount.tight)
  have hne : ts.isEmpty = false := by simp [hr.ne_nil]
  rw [← itemTexts_trim hopen] at hread
  simp only [repeated?, (hc.confined fun _ _ => SaysCount.tight).cutAt?, Option.bind_eq_bind,
    Option.bind_some, hcount, hread, hne, Bool.false_eq_true, if_false]

theorem item?_said (h : SaysItem cs item) : item? cs = some item := by
  cases h with
  | single h =>
    have ht := track?_said h
    obtain ⟨c, rest, rfl, hc⟩ := h.starts
    have hi : inside? "repeat".toList (c :: rest) = none := inside?_of_ne (Ne.symm hc) _ rest
    rw [item?, hi]
    simp [ht]
  | repeated hc hr =>
    rw [item?, inside?_call]
    exact repeated?_said hc hr

theorem SaysItem.whole (h : SaysItem cs item) : Unbroken 0 cs 0 ∧ cs ≠ [] := by
  cases h with
  | single h => exact h.whole
  | repeated hc hr =>
    have hrow := hr.unbroken (fun _ _ => SaysTrack.unbroken) 0
    exact ⟨(unbroken_pair (hc.confined fun _ _ => SaysCount.tight) hrow).call
      (unbroken_word (by decide)), by simp⟩

/-- Every list of the grammar is read, item by item, as what it says. -/
theorem tracks_said {source : String} (h : Row SaysItem source.toList items) :
    tracks source = items :=
  (h.read (fun _ _ => SaysItem.whole) fun _ _ => item?_said).2

/-- A fraction, and as many columns of two kinds as fit. -/
def fittedColumns : String := " 1fr\trepeat( auto-fit ,minmax( 300px, 1fr) 50%)"

theorem tracks_said_fittedColumns :
    let one : Single := .ofInt .single 1
    let half : Length := .percent (Numeric.Binary.ofInt .single 50).hundredth
    let items : List TrackItem :=
      [.single ⟨.auto, .fraction one⟩,
       .repeated .autoFit
        [⟨.fixed (.pixels (.ofInt .single 300)), .fraction one⟩, ⟨.fixed half, .fixed half⟩]]
    Row SaysItem fittedColumns.toList items ∧ tracks fittedColumns = items := by
  intro one half items
  have h1 : number? .single ['1'] = some one := by decide +kernel
  have h50 : number? .single ['5', '0'] = some (.ofInt .single 50) := by decide +kernel
  have h300 : number? .single ['3', '0', '0'] = some (.ofInt .single 300) := by decide +kernel
  have hsp : Blanks [' '] := by simp [Blanks, isBlank]
  have hno := Expression.blanks_nil
  have hminmax : SaysTrack _ ⟨.fixed (.pixels (.ofInt .single 300)), .fraction one⟩ :=
    .minmax (.mk hsp (.fixed (.pixels h300)) hno) (.mk hsp (.fraction h1) hno)
  have hrow : Row SaysTrack _ _ :=
    .more (.mk hno hminmax hno) (w := ' ') (by decide)
      (.last (.mk hno (.size (.fixed (.percent h50))) hno))
  have hone : SaysItem ['1', 'f', 'r'] (.single ⟨.auto, .fraction one⟩) := .single (.fraction h1)
  have hfitted : SaysItem _ (.repeated .autoFit _) := .repeated (.mk hsp .autoFit hsp) hrow
  have h : Row SaysItem fittedColumns.toList items :=
    .more (.mk hsp hone hno) (w := '\t') (by decide) (.last (.mk hno hfitted hno))
  exact ⟨h, tracks_said h⟩

end LiveLayout.Grid
