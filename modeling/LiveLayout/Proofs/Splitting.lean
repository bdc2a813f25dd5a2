import LiveLayout.Grid.Track
import LiveLayout.Proofs.Parsing

/-!
# Splitting track lists

A list of tracks is split at the blanks outside of all parentheses. A text that
leaves no parenthesis open is split by itself, whatever comes before or after
it. So what cannot be read in a list does not change how the rest of it is read.
-/

namespace LiveLayout.Grid

open Expression (Blanks blanks_nil)
open Text (isBlank addWord dropBlanks trim)

-- ---------------------------------------------------------------------------
-- Parentheses
-- ---------------------------------------------------------------------------

/-- Parentheses open at the end of a text: `(` opens one, and `)` closes one if
there is any. -/
def openAfter (depth : Nat) (cs : List Char) : Nat := cs.foldl depthAfter depth

@[simp] theorem openAfter_nil (depth : Nat) : openAfter depth [] = depth := rfl

@[simp] theorem openAfter_cons (depth : Nat) (c : Char) (cs : List Char) :
    openAfter depth (c :: cs) = openAfter (depthAfter depth c) cs := rfl

theorem openAfter_append (depth : Nat) (a b : List Char) :
    openAfter depth (a ++ b) = openAfter (openAfter depth a) b :=
  List.foldl_append

theorem depthAfter_of_ne {c : Char} (ho : c ≠ '(') (hc : c ≠ ')') (depth : Nat) :
    depthAfter depth c = depth := by
  simp [depthAfter, ho, hc]

theorem ne_of_isBlank {c d : Char} (hc : isBlank c = true) (hd : isBlank d = false) : c ≠ d := by
  rintro rfl
  simp [hc] at hd

theorem depthAfter_blank {w : Char} (hw : isBlank w = true) (depth : Nat) :
    depthAfter depth w = depth :=
  depthAfter_of_ne (ne_of_isBlank hw (by decide)) (ne_of_isBlank hw (by decide)) depth

theorem openAfter_blanks {ws : List Char} (hw : Blanks ws) (depth : Nat) :
    openAfter depth ws = depth := by
  induction ws with
  | nil => rfl
  | cons w ws ih =>
    rw [openAfter_cons, depthAfter_blank (hw w List.mem_cons_self)]
    exact ih fun c hc => hw c (List.mem_cons_of_mem _ hc)

-- ---------------------------------------------------------------------------
-- Texts behind each other
-- ---------------------------------------------------------------------------

theorem addWord_append (word : List Char) (rest more : List (List Char)) :
    addWord word (rest ++ more) = addWord word rest ++ more := by
  cases word <;> rfl

/-- A blank behind a text that closes all of its parentheses ends an item, and
with it all that the text has to do with what comes. -/
theorem leadingItem_append {depth : Nat} {a : List Char} {w : Char} (ha : openAfter depth a = 0)
    (hw : isBlank w = true) (b : List Char) :
    leadingItem depth (a ++ w :: b) =
      ((leadingItem depth a).1, (leadingItem depth a).2 ++ itemTexts b) := by
  induction a generalizing depth with
  | nil =>
    obtain rfl : depth = 0 := ha
    simp [leadingItem, depthAfter_blank, hw, itemTexts]
  | cons c cs ih =>
    simp only [List.cons_append, leadingItem, ih ha]
    split
    · simp only [addWord_append]
    · rfl

theorem itemTexts_append {a : List Char} {w : Char} (ha : openAfter 0 a = 0)
    (hw : isBlank w = true) (b : List Char) :
    itemTexts (a ++ w :: b) = itemTexts a ++ itemTexts b := by
  simp [itemTexts, leadingItem_append ha hw, addWord_append]

theorem itemTexts_blanks_append {ws : List Char} (hw : Blanks ws) (cs : List Char) :
    itemTexts (ws ++ cs) = itemTexts cs := by
  induction ws with
  | nil => rfl
  | cons w ws ih =>
    have hs : itemTexts (w :: (ws ++ cs)) = itemTexts (ws ++ cs) :=
      itemTexts_append (a := []) rfl (hw w List.mem_cons_self) _
    exact hs.trans (ih fun c hc => hw c (List.mem_cons_of_mem _ hc))

theorem itemTexts_append_blanks {cs ws : List Char} (hc : openAfter 0 cs = 0) (hw : Blanks ws) :
    itemTexts (cs ++ ws) = itemTexts cs := by
  cases ws with
  | nil => rw [List.append_nil]
  | cons w ws =>
    have hb : Blanks ws := fun c hc => hw c (List.mem_cons_of_mem _ hc)
    have hn : itemTexts (ws ++ []) = [] := itemTexts_blanks_append hb []
    rw [List.append_nil] at hn
    rw [itemTexts_append hc (hw w List.mem_cons_self), hn, List.append_nil]

theorem exists_trim (cs : List Char) :
    ∃ before after, Blanks before ∧ Blanks after ∧ cs = before ++ (trim cs ++ after) := by
  obtain ⟨before, hb, hcs⟩ := Expression.exists_blanks cs
  obtain ⟨after, ha, hr⟩ := Expression.exists_blanks (dropBlanks cs).reverse
  have htrim : dropBlanks cs = trim cs ++ after.reverse := by
    have hrev := congrArg List.reverse hr
    rwa [List.reverse_reverse, List.reverse_append] at hrev
  refine ⟨before, after.reverse, hb, fun c hc => ha c (List.mem_reverse.mp hc), ?_⟩
  rw [← htrim, ← hcs]

theorem itemTexts_trim {cs : List Char} (hc : openAfter 0 cs = 0) :
    itemTexts (trim cs) = itemTexts cs := by
  obtain ⟨before, after, hb, ha, hcs⟩ := exists_trim cs
  have ht : openAfter 0 (trim cs) = 0 := by
    rw [hcs] at hc
    simpa [openAfter_append, openAfter_blanks, hb, ha] using hc
  conv_rhs => rw [hcs, itemTexts_blanks_append hb, itemTexts_append_blanks ht ha]

-- ---------------------------------------------------------------------------
-- Single items
-- ---------------------------------------------------------------------------

/-- From one depth to another, a text has no blank outside of all parentheses. -/
inductive Unbroken : Nat → List Char → Nat → Prop
  | nil : Unbroken depth [] depth
  | cons (hc : depthAfter depth c = 0 → isBlank c = false)
      (h : Unbroken (depthAfter depth c) cs last) : Unbroken depth (c :: cs) last

theorem Unbroken.append (ha : Unbroken depth a mid) (hb : Unbroken mid b last) :
    Unbroken depth (a ++ b) last := by
  induction ha with
  | nil => exact hb
  | cons hc _ ih => exact .cons hc (ih hb)

theorem Unbroken.openAfter (h : Unbroken depth cs last) : openAfter depth cs = last := by
  induction h with
  | nil => rfl
  | cons _ _ ih => exact ih

/-- Is no parenthesis. -/
def isPlain (c : Char) : Bool := c ≠ '(' && c ≠ ')'

theorem unbroken_plain {cs : List Char} (hp : ∀ c ∈ cs, isPlain c = true)
    (hs : depth = 0 → ∀ c ∈ cs, isBlank c = false) : Unbroken depth cs depth := by
  induction cs with
  | nil => exact .nil
  | cons c cs ih =>
    have hc : depthAfter depth c = depth := by
      have hc := hp c List.mem_cons_self
      exact depthAfter_of_ne (by rintro rfl; cases hc) (by rintro rfl; cases hc) _
    refine .cons (fun h0 => hs (hc.symm.trans h0) c List.mem_cons_self) ?_
    rw [hc]
    exact ih (fun d hd => hp d (List.mem_cons_of_mem _ hd))
      fun h0 d hd => hs h0 d (List.mem_cons_of_mem _ hd)

/-- A name with its parentheses, if what stands in them is unbroken there. -/
theorem Unbroken.call {name inner : List Char} (hn : ∀ d, Unbroken d name d)
    (h : Unbroken (depth + 1) inner (depth + 1)) :
    Unbroken depth (name ++ '(' :: (inner ++ [')'])) depth := by
  have hclose : Unbroken (depth + 1) [')'] depth := .cons (fun _ => by decide) .nil
  exact (hn depth).append (.cons (fun _ => by decide) (h.append hclose))

theorem leadingItem_of_unbroken (h : Unbroken depth cs last) : leadingItem depth cs = (cs, []) := by
  induction h with
  | nil => rfl
  | @cons depth c cs last hc _ ih =>
    have hn : ¬(depthAfter depth c = 0 ∧ isBlank c = true) := by
      rintro ⟨h0, hb⟩
      simp [hc h0] at hb
    simp [leadingItem, ih, hn]

theorem itemTexts_of_unbroken (h : Unbroken 0 cs last) (hne : cs ≠ []) : itemTexts cs = [cs] := by
  obtain ⟨c, rest, rfl⟩ := List.exists_cons_of_ne_nil hne
  rw [itemTexts, leadingItem_of_unbroken h]
  rfl

-- ---------------------------------------------------------------------------
-- What cannot be read
-- ---------------------------------------------------------------------------

/-- None of the items of a text is known. -/
def Unreadable (source : String) : Prop := ∀ text ∈ itemTexts source.toList, item? text = none

theorem tracks_of_unreadable {source : String} (h : Unreadable source) : tracks source = [] :=
  List.filterMap_eq_nil_iff.mpr h

theorem itemTexts_push {s : String} {w : Char} (hs : openAfter 0 s.toList = 0)
    (hw : isBlank w = true) (t : String) :
    itemTexts (s.push w ++ t).toList = itemTexts s.toList ++ itemTexts t.toList := by
  simpa using itemTexts_append hs hw t.toList

theorem tracks_push {s : String} {w : Char} (hs : openAfter 0 s.toList = 0)
    (hw : isBlank w = true) (t : String) : tracks (s.push w ++ t) = tracks s ++ tracks t := by
  simp only [tracks, itemTexts_push hs hw, List.filterMap_append]

/-- A list of tracks is split and read as its parts on both sides of a blank are,
if the first part leaves no parenthesis open. Items that cannot be read are as
good as not written, whatever stands before and after them. -/
theorem tracks_append {a : String} {w : Char} (ha : openAfter 0 a.toList = 0)
    (hw : isBlank w = true) (b : String) :
    itemTexts (a.push w ++ b).toList = itemTexts a.toList ++ itemTexts b.toList ∧
      tracks (a.push w ++ b) = tracks a ++ tracks b ∧
      ∀ (bad : String) (v : Char), Unreadable bad → openAfter 0 bad.toList = 0 →
        isBlank v = true →
        tracks (a.push w ++ bad) = tracks a ∧ tracks (bad.push v ++ b) = tracks b ∧
          tracks (a.push w ++ (bad.push v ++ b)) = tracks (a.push w ++ b) := by
  refine ⟨itemTexts_push ha hw b, tracks_push ha hw b, fun bad v hbad hopen hv => ?_⟩
  have hnone := tracks_of_unreadable hbad
  simp [tracks_push ha hw, tracks_push hopen hv, hnone]

/-- Parentheses that close nothing, a wide blank, and one that stays open. -/
theorem tracks_append_stray :
    openAfter 0 "1fr é)) 2px".toList = 0 ∧ isBlank '\u3000' = true ∧
      tracks ("1fr é)) 2px".push '\u3000' ++ "auto fit(1px") =
        tracks "1fr é)) 2px" ++ tracks "auto fit(1px" ∧
      Unreadable "oops)" ∧ openAfter 0 "oops)".toList = 0 ∧
      tracks ("1fr é)) 2px".push '\u3000' ++ ("oops)".push '\n' ++ "auto fit(1px")) =
        tracks ("1fr é)) 2px".push '\u3000' ++ "auto fit(1px") := by
  have ha : openAfter 0 "1fr é)) 2px".toList = 0 := by decide +kernel
  have hw : isBlank '\u3000' = true := by decide
  have hbad : Unreadable "oops)" := by unfold Unreadable; decide +kernel
  have hopen : openAfter 0 "oops)".toList = 0 := by decide +kernel
  obtain ⟨-, hread, hdrop⟩ := tracks_append ha hw "auto fit(1px"
  exact ⟨ha, hw, hread, hbad, hopen, (hdrop "oops)" '\n' hbad hopen (by decide)).2.2⟩

end LiveLayout.Grid
