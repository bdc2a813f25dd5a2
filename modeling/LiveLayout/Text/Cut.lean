import LiveLayout.Text.Blank

/-!
# Cutting texts

Pieces of a text at a mark: what follows a beginning, what precedes an end, the
parts before and after the first mark, and the parts between all its
occurrences, found from the left and never overlapping.
-/

namespace LiveLayout.Text

def afterStart? (start cs : List Char) : Option (List Char) := List.isPrefixOf? start cs

theorem afterStart?_cons (a c : Char) (as cs : List Char) :
    afterStart? (a :: as) (c :: cs) = if a == c then afterStart? as cs else none := rfl

theorem afterStart?_eq_some {start cs rest : List Char} (h : afterStart? start cs = some rest) :
    cs = start ++ rest := by
  induction start generalizing cs with
  | nil => exact Option.some.inj h
  | cons a as ih =>
    cases cs with
    | nil => cases h
    | cons c cs =>
      rw [afterStart?_cons] at h
      split at h
      · next he => rw [ih h, eq_of_beq he, List.cons_append]
      · cases h

theorem afterStart?_append (start rest : List Char) :
    afterStart? start (start ++ rest) = some rest := by
  induction start with
  | nil => rfl
  | cons a as ih => simp [afterStart?_cons, ih]

def beforeEnd? (ending cs : List Char) : Option (List Char) := List.isSuffixOf? ending cs

theorem beforeEnd?_append (cs ending : List Char) : beforeEnd? ending (cs ++ ending) = some cs := by
  show (afterStart? ending.reverse (cs ++ ending).reverse).map List.reverse = some cs
  simp [afterStart?_append]

theorem beforeEnd?_eq_some {ending cs front : List Char} (h : beforeEnd? ending cs = some front) :
    cs = front ++ ending := by
  obtain ⟨rest, hr, rfl⟩ := Option.map_eq_some_iff.mp h
  have hc := congrArg List.reverse (afterStart?_eq_some hr)
  simpa using hc

theorem beforeEnd?_of_notMem {ending cs : List Char} {c : Char} (he : c ∈ ending) (hc : c ∉ cs) :
    beforeEnd? ending cs = none := by
  cases h : beforeEnd? ending cs with
  | none => rfl
  | some front =>
    rw [beforeEnd?_eq_some h] at hc
    exact absurd (List.mem_append_right front he) hc

/-- The parts before and after the first character `mark`. -/
def cutAt? (mark : Char) : List Char → Option (List Char × List Char)
  | [] => none
  | c :: cs =>
    if c = mark then some ([], cs) else (cutAt? mark cs).map fun (a, b) => (c :: a, b)

theorem cutAt?_eq_some {mark : Char} {cs a b : List Char} (h : cutAt? mark cs = some (a, b)) :
    cs = a ++ mark :: b ∧ mark ∉ a := by
  induction cs generalizing a with
  | nil => simp [cutAt?] at h
  | cons c cs ih =>
    unfold cutAt? at h
    split at h
    · simp only [Option.some.injEq, Prod.mk.injEq] at h
      obtain ⟨rfl, rfl⟩ := h
      simp_all
    · simp only [Option.map_eq_some_iff, Prod.mk.injEq, Prod.exists] at h
      obtain ⟨x, y, hxy, rfl, rfl⟩ := h
      obtain ⟨rfl, hm⟩ := ih hxy
      exact ⟨rfl, by simp only [List.mem_cons, not_or]; exact ⟨fun e => by simp_all, hm⟩⟩

theorem cutAt?_append {mark : Char} {a : List Char} (h : mark ∉ a) (b : List Char) :
    cutAt? mark (a ++ mark :: b) = some (a, b) := by
  induction a with
  | nil => simp [cutAt?]
  | cons c cs ih =>
    simp only [List.mem_cons, not_or] at h
    simp [cutAt?, Ne.symm h.1, ih h.2]

/-- The parts between the occurrences of `mark :: more`. -/
def partsAt (mark : Char) (more : List Char) (cs : List Char) : List (List Char) :=
  match cs with
  | [] => [[]]
  | c :: rest =>
    match _found : afterStart? (mark :: more) (c :: rest) with
    | some after => [] :: partsAt mark more after
    | none =>
      match partsAt mark more rest with
      | [] => [[c]]
      | part :: parts => (c :: part) :: parts
termination_by cs.length
decreasing_by
  · have := congrArg List.length (afterStart?_eq_some _found)
    simp at this ⊢; omega
  · simp

/-- Whether `mark :: more` occurs. -/
def occurs (mark : Char) (more : List Char) : List Char → Bool
  | [] => false
  | c :: cs => (mark :: more).isPrefixOf (c :: cs) || occurs mark more cs

/-- The parts between the occurrences, put together around `middle`. -/
def joinParts (middle : List Char) (parts : List (List Char)) : List Char := middle.intercalate parts

example : partsAt 'a' ['b'] "xababy".toList = ["x".toList, [], "y".toList] := by cbv

end LiveLayout.Text
