import LiveLayout.Live.Subscription
import LiveLayout.Proofs.Escaping
import Mathlib.Data.List.Infix

/-!
# Keys in endpoints

The template of an endpoint is cut at its placeholders, and the encoded text of
the key stands in their place. So a key cannot add to an endpoint anything that
separates its parts, and the endpoint tells the text of the key.
-/

namespace LiveLayout

namespace Text

-- ---------------------------------------------------------------------------
-- Cuts
-- ---------------------------------------------------------------------------

/-- Cuts a text at the first occurrence of a mark, and what comes after that in
the same way. -/
inductive Cuts (mark : List Char) : List Char → List (List Char) → Prop
  | last (h : ¬mark <:+: cs) : Cuts mark cs [cs]
  | next (hf : ∀ front back, part ++ (mark ++ rest) = front ++ (mark ++ back) →
        part.length ≤ front.length)
      (h : Cuts mark rest parts) : Cuts mark (part ++ (mark ++ rest)) (part :: parts)

theorem Cuts.ne_nil (h : Cuts mark cs parts) : parts ≠ [] := by
  cases h <;> simp

theorem Cuts.intercalate (h : Cuts mark cs parts) : mark.intercalate parts = cs := by
  induction h with
  | last => simp
  | next _ h ih => rw [List.intercalate_cons_of_ne_nil h.ne_nil, ih, List.append_assoc]

theorem Cuts.unique (h : Cuts mark cs parts) (h' : Cuts mark cs others) : others = parts := by
  induction h generalizing others with
  | last hn =>
    cases h' with
    | last => rfl
    | @next part rest _ _ => exact absurd ⟨part, rest, List.append_assoc ..⟩ hn
  | @next part rest _ hf _ ih =>
    generalize hcs : part ++ (mark ++ rest) = cs at h'
    cases h' with
    | last hn => exact absurd ⟨part, rest, (List.append_assoc ..).trans hcs⟩ hn
    | next hf' hr =>
      -- both cut at the first occurrence
      have hl := Nat.le_antisymm (hf _ _ hcs) (hf' _ _ hcs.symm)
      obtain ⟨rfl, he⟩ := List.append_inj hcs hl
      rw [List.append_cancel_left he] at ih
      rw [ih hr]

theorem Cuts.cons (h : Cuts mark cs (part :: parts)) (hn : ¬mark <+: c :: cs) :
    Cuts mark (c :: cs) ((c :: part) :: parts) := by
  cases h with
  | last ho => exact .last fun hm => (List.infix_cons_iff.mp hm).elim hn ho
  | next hf hr =>
    rw [← List.cons_append]
    refine .next (fun front back he => ?_) hr
    cases front with
    | nil => exact absurd ⟨back, he.symm⟩ hn
    | cons f front => exact Nat.succ_le_succ (hf front back (List.cons.inj he).2)

theorem not_prefix_of_afterStart? (h : afterStart? start cs = none) : ¬start <+: cs := by
  rintro ⟨rest, rfl⟩
  induction start with
  | nil => cases h
  | cons a as ih =>
    rw [List.cons_append, afterStart?_cons, if_pos (beq_self_eq_true a)] at h
    exact ih h

theorem partsAt_cuts (mark : Char) (more cs : List Char) :
    Cuts (mark :: more) cs (partsAt mark more cs) := by
  fun_induction partsAt mark more cs with
  | case1 => exact .last (by simp)
  | case2 c rest after hf ih =>
    rw [afterStart?_eq_some hf]
    have hfirst : Cuts (mark :: more) ([] ++ (mark :: more ++ after))
        ([] :: partsAt mark more after) := .next (fun _ _ _ => Nat.zero_le _) ih
    exact hfirst
  | case3 c rest hn hp ih => exact absurd hp ih.ne_nil
  | case4 c rest hn part parts hp ih =>
    rw [hp] at ih
    exact ih.cons (not_prefix_of_afterStart? hn)

-- ---------------------------------------------------------------------------
-- Putting parts together
-- ---------------------------------------------------------------------------

theorem length_intercalate (middle part : List Char) (parts : List (List Char)) :
    (middle.intercalate (part :: parts)).length =
      (part :: parts).flatten.length + parts.length * middle.length := by
  induction parts generalizing part with
  | nil => simp
  | cons next rest ih =>
    rw [List.intercalate_cons_cons, List.length_append, List.length_append, ih next]
    simp only [List.flatten_cons, List.length_append, List.length_cons, Nat.succ_mul]
    omega

/-- What stands between two parts can be told from the whole. -/
theorem intercalate_inj {middle other : List Char}
    (h : middle.intercalate (part :: next :: parts) = other.intercalate (part :: next :: parts)) :
    middle = other := by
  have hl := congrArg List.length h
  rw [length_intercalate, length_intercalate, Nat.add_left_cancel_iff] at hl
  have hlen : middle.length = other.length := Nat.eq_of_mul_eq_mul_left (Nat.succ_pos _) hl
  rw [List.intercalate_cons_cons, List.intercalate_cons_cons, List.append_assoc,
    List.append_assoc] at h
  exact (List.append_inj (List.append_cancel_left h) hlen).1

/-- Without a mark there is only one part, and nothing stands anywhere. -/
theorem Cuts.intercalate_eq_iff (h : Cuts mark cs parts) {middle other : List Char} :
    middle.intercalate parts = other.intercalate parts ↔ middle = other ∨ ¬mark <:+: cs := by
  cases h with
  | last hn => simp [hn]
  | @next part rest parts _ h =>
    have hm : mark <:+: part ++ (mark ++ rest) := ⟨part, rest, List.append_assoc ..⟩
    obtain ⟨next, more, rfl⟩ := List.exists_cons_of_ne_nil h.ne_nil
    simp only [hm, not_true, or_false]
    exact ⟨intercalate_inj, fun he => he ▸ rfl⟩

theorem count_intercalate {middle : List Char} (h : c ∉ middle) (parts : List (List Char)) :
    (middle.intercalate parts).count c = parts.flatten.count c := by
  have hm : middle.count c = 0 := List.count_eq_zero.mpr h
  induction parts with
  | nil => rfl
  | cons part rest ih =>
    cases rest with
    | nil => simp
    | cons next rest => simp [List.intercalate_cons_cons, ih, hm]

theorem flatten_sublist_intercalate (middle : List Char) (parts : List (List Char)) :
    parts.flatten.Sublist (middle.intercalate parts) := by
  induction parts with
  | nil => exact .slnil
  | cons part rest ih =>
    cases rest with
    | nil => simp
    | cons next rest =>
      rw [List.intercalate_cons_cons, List.append_assoc, List.flatten_cons]
      exact (List.Sublist.refl part).append (ih.trans (List.sublist_append_right _ _))

end Text

namespace Live

open Layout (Cascade)
open Text (Cuts partsAt joinParts)
open Text.Percent (Encodes bytes decode reserved encodeChars)

-- ---------------------------------------------------------------------------
-- Endpoints
-- ---------------------------------------------------------------------------

/-- The text of a key: a string is its own, any other value has its compact text. -/
inductive KeyText : Json → String → Prop
  | string : KeyText (.string s) s
  | compact (h : ∀ s, key ≠ .string s) : KeyText key key.text

theorem keyText_iff : KeyText key text ↔ text = key.plainText := by
  constructor
  · intro h
    cases h with
    | string => rfl
    | compact hn =>
      cases key with
      | string s => exact absurd rfl (hn s)
      | null | bool | number | array | object => rfl
  · rintro rfl
    cases key with
    | string s => exact .string
    | null | bool | number | array | object => exact .compact (by simp)

/-- The text of a key stands, encoded, between the parts of a template. It can be
read back from there, adds nothing that is reserved, and is all of the key that
an endpoint tells. -/
structure Substitutes (c : Cascade) (parts : List (List Char)) : Prop where
  text : ∀ (key : Json) (text : String), KeyText key text ↔ text = key.plainText
  cut : ∀ others, Cuts c.placeholder.toList c.template.toList others ↔ others = parts
  filled : ∀ key : Json, ∃ e, Encodes (bytes key.plainText) e ∧ decode e = some key.plainText ∧
    ∀ node, actionFor node c (some key) = .fetch node (String.ofList (e.intercalate parts))
  confined : ∀ mark ∈ reserved, ∀ key : Json,
    (endpointFor c key).toList.count mark = parts.flatten.count mark ∧
      (endpointFor c key).toList.count mark ≤ c.template.toList.count mark
  faithful : ∀ key other : Json, endpointFor c key = endpointFor c other ↔
    key.plainText = other.plainText ∨ ¬c.placeholder.toList <:+: c.template.toList

theorem endpointFor_substitutes (c : Cascade) :
    Substitutes c (partsAt '{' (c.keyField.toList ++ ['}']) c.template.toList) := by
  have hcut : Cuts c.placeholder.toList c.template.toList
      (partsAt '{' (c.keyField.toList ++ ['}']) c.template.toList) := by
    rw [Cascade.placeholder, String.toList_ofList]
    exact Text.partsAt_cuts ..
  have henc (key : Json) := Text.Percent.encodes_encodeChars key.plainText
  refine ⟨fun _ _ => keyText_iff, fun others => ⟨hcut.unique, fun he => he ▸ hcut⟩,
    fun key => ?_, fun mark hm key => ?_, fun key other => ?_⟩
  · exact ⟨_, henc key, (henc key).decode, fun node => rfl⟩
  · have hn := Text.count_intercalate ((henc key).notMem hm)
    rw [endpointFor, String.toList_ofList, joinParts, hn]
    refine ⟨rfl, ?_⟩
    have hs := Text.flatten_sublist_intercalate c.placeholder.toList
      (partsAt '{' (c.keyField.toList ++ ['}']) c.template.toList)
    rw [hcut.intercalate] at hs
    exact hs.count_le mark
  · simp only [endpointFor, joinParts, String.ofList_inj, hcut.intercalate_eq_iff]
    refine or_congr ⟨fun he => ?_, fun he => he ▸ rfl⟩ Iff.rfl
    exact (henc key).text_inj (he ▸ henc other)

example : endpointFor ⟨"grid", "select", "/{id}/rows?of={id}", "id", none⟩ (.string "a/b") =
    "/a%2Fb/rows?of=a%2Fb" := by cbv

end Live

end LiveLayout
