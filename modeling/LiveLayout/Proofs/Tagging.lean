import LiveLayout.Proofs.ValueLaws
import Mathlib.Logic.Function.Iterate

/-!
# Tags by text

Settings and values are trees of one shape, in which only the texts differ: in
a setting they are tagged as expressions or as strings. A setting that is read
from a value has the tags that its texts ask for, and its expressions are the
marked texts of the value in document order. Writing it and reading it again
changes nothing, and this is true of no other settings.
-/

namespace LiveLayout

-- ---------------------------------------------------------------------------
-- Places
-- ---------------------------------------------------------------------------

/-- Where a part stands in a tree: which child to go to, on each level. Places
are in document order when they are in lexicographic order. -/
abbrev Place := List Nat

/-- What stands at a place of a tree. -/
def partAt? (children : α → List α) (a : α) : Place → Option α
  | [] => some a
  | i :: place => (children a)[i]?.bind fun b => partAt? children b place

/-- A change that goes through the children changes what stands at each place. -/
theorem partAt?_map {children : α → List α} {children' : β → List β} {f : α → β}
    (hf : ∀ a, children' (f a) = (children a).map f) (a : α) (place : Place) :
    partAt? children' (f a) place = (partAt? children a place).map f := by
  induction place generalizing a with
  | nil => rfl
  | cons i place ih =>
    rw [partAt?, partAt?, hf, List.getElem?_map]
    cases (children a)[i]? with
    | none => rfl
    | some b => exact ih b

/-- The texts that stand at places are these, in document order. -/
structure InOrder (stands : Place → String → Prop) (texts : List (Place × String)) : Prop where
  mem_iff : ∀ place s, (place, s) ∈ texts ↔ stands place s
  ordered : texts.Pairwise fun a b => a.1 < b.1

/-- The texts of a first child come before those of the children behind it. -/
theorem InOrder.cons {stands : α → Place → String → Prop} {n : Nat} {a : α} {as : List α}
    {first rest : List (Place × String)} (hf : InOrder (stands a) first)
    (hr : InOrder (fun place s =>
      ∃ i below b, place = (n + 1 + i) :: below ∧ as[i]? = some b ∧ stands b below s) rest) :
    InOrder (fun place s =>
      ∃ i below b, place = (n + i) :: below ∧ (a :: as)[i]? = some b ∧ stands b below s)
      (first.map (fun t => (n :: t.1, t.2)) ++ rest) where
  mem_iff place s := by
    rw [List.mem_append, hr.mem_iff]
    constructor
    · rintro (h | ⟨i, below, b, rfl, hb, hs⟩)
      · obtain ⟨⟨below, s'⟩, ht, he⟩ := List.mem_map.mp h
        obtain ⟨rfl, rfl⟩ := Prod.mk.inj he
        exact ⟨0, below, a, rfl, rfl, (hf.mem_iff _ _).mp ht⟩
      · exact ⟨i + 1, below, b, by rw [Nat.add_assoc, Nat.add_comm 1], hb, hs⟩
    · rintro ⟨_ | i, below, b, rfl, hb, hs⟩
      · cases hb
        exact .inl (List.mem_map.mpr ⟨(below, s), (hf.mem_iff _ _).mpr hs, rfl⟩)
      · exact .inr ⟨i, below, b, by rw [Nat.add_assoc, Nat.add_comm 1], hb, hs⟩
  ordered := by
    refine List.pairwise_append.mpr ⟨?_, hr.ordered, fun t ht u hu => ?_⟩
    · exact List.pairwise_map.mpr (hf.ordered.imp fun h => List.cons_lt_cons_iff.mpr (.inr ⟨rfl, h⟩))
    · obtain ⟨t, -, rfl⟩ := List.mem_map.mp ht
      obtain ⟨i, below, b, hu, -⟩ := (hr.mem_iff u.1 u.2).mp hu
      rw [hu]
      exact List.cons_lt_cons_iff.mpr (.inl (by omega))

/-- Children in a row, counted from a number on. -/
theorem exists_inOrder {stands : α → Place → String → Prop} {textsOf : α → List String}
    {as : List α} (n : Nat)
    (h : ∀ a ∈ as, ∃ texts, InOrder (stands a) texts ∧ textsOf a = texts.map (·.2)) :
    ∃ texts, InOrder (fun place s =>
        ∃ i below a, place = (n + i) :: below ∧ as[i]? = some a ∧ stands a below s) texts ∧
      as.flatMap textsOf = texts.map (·.2) := by
  induction as generalizing n with
  | nil => exact ⟨[], ⟨by simp, .nil⟩, rfl⟩
  | cons a as ih =>
    obtain ⟨first, hf, he⟩ := h a List.mem_cons_self
    obtain ⟨rest, hr, hes⟩ := ih (n + 1) fun b hb => h b (List.mem_cons_of_mem _ hb)
    refine ⟨_, hf.cons hr, ?_⟩
    rw [List.flatMap_cons, he, hes, List.map_append, List.map_map]
    rfl

-- ---------------------------------------------------------------------------
-- Values and settings as trees
-- ---------------------------------------------------------------------------

namespace Json

/-- What stands directly in a value. The names of fields are no parts. -/
def children : Json → List Json
  | .array items => items
  | .object fields => fields.map (·.2)
  | _ => []

def part? (v : Json) (place : Place) : Option Json := partAt? children v place

end Json

namespace Setting

def children : Setting → List Setting
  | .list items => items
  | .map entries => entries.map (·.2)
  | _ => []

def part? (c : Setting) (place : Place) : Option Setting := partAt? children c place

mutual
/-- Induction over settings as trees. -/
theorem of_children {P : Setting → Prop} (node : ∀ c, (∀ d ∈ c.children, P d) → P c)
    (c : Setting) : P c := by
  cases c with
  | list items => exact node _ (of_items node items)
  | map entries => exact node _ (of_entries node entries)
  | _ => exact node _ (by simp [children])
theorem of_items {P : Setting → Prop} (node : ∀ c, (∀ d ∈ c.children, P d) → P c)
    (items : List Setting) : ∀ d ∈ items, P d := by
  cases items with
  | nil => simp
  | cons d rest => exact List.forall_mem_cons.mpr ⟨of_children node d, of_items node rest⟩
theorem of_entries {P : Setting → Prop} (node : ∀ c, (∀ d ∈ c.children, P d) → P c)
    (entries : List (String × Setting)) : ∀ d ∈ entries.map (·.2), P d := by
  cases entries with
  | nil => simp
  | cons p rest => exact List.forall_mem_cons.mpr ⟨of_children node p.2, of_entries node rest⟩
end

theorem ofItems_eq_map (items : List Json) : ofItems items = items.map ofJson := by
  induction items with
  | nil => rfl
  | cons v rest ih => simp [ofItems, ih]

theorem ofFields_eq_mapValues (fields : Fields Json) :
    ofFields fields = Fields.mapValues ofJson fields := by
  induction fields with
  | nil => rfl
  | cons p rest ih => simpa [ofFields, Fields.mapValues] using ih

theorem itemsJson_eq_map (items : List Setting) : itemsJson items = items.map toJson := by
  induction items with
  | nil => rfl
  | cons c rest ih => simp [itemsJson, ih]

theorem entriesJson_eq_mapValues (entries : Fields Setting) :
    entriesJson entries = Fields.mapValues toJson entries := by
  induction entries with
  | nil => rfl
  | cons p rest ih => simpa [entriesJson, Fields.mapValues] using ih

theorem itemExpressions_eq_flatMap (items : List Setting) :
    itemExpressions items = items.flatMap expressions := by
  induction items with
  | nil => rfl
  | cons c rest ih => simp [itemExpressions, ih]

theorem entryExpressions_eq_flatMap (entries : Fields Setting) :
    entryExpressions entries = (entries.map (·.2)).flatMap expressions := by
  induction entries with
  | nil => rfl
  | cons p rest ih => simpa [entryExpressions] using ih

theorem children_ofJson (v : Json) : (ofJson v).children = v.children.map ofJson := by
  cases v with
  | string s => unfold ofJson ofString; split <;> rfl
  | array items => exact ofItems_eq_map items
  | object fields =>
    simp [ofJson, children, Json.children, ofFields_eq_mapValues, Fields.mapValues]
  | _ => rfl

theorem part?_ofJson (v : Json) (place : Place) :
    (ofJson v).part? place = (v.part? place).map ofJson :=
  partAt?_map children_ofJson v place

theorem part?_nil (c : Setting) : c.part? [] = some c := rfl

theorem part?_cons {c d : Setting} {i : Nat} (hd : c.children[i]? = some d) (place : Place) :
    c.part? (i :: place) = d.part? place := by
  simp [part?, partAt?, hd]

/-- All but the whole stands in one of the children. -/
theorem part?_eq_some {c d : Setting} {place : Place} (hd : c ≠ d) :
    c.part? place = some d ↔
      ∃ i below b, place = i :: below ∧ c.children[i]? = some b ∧ b.part? below = some d := by
  cases place with
  | nil => simp [part?_nil, hd]
  | cons i below =>
    constructor
    · intro h
      obtain ⟨b, hb, h⟩ := Option.bind_eq_some_iff.mp h
      exact ⟨i, below, b, rfl, hb, h⟩
    · rintro ⟨_, _, b, he, hb, h⟩
      cases he
      exact Option.bind_eq_some_iff.mpr ⟨b, hb, h⟩

-- ---------------------------------------------------------------------------
-- Expressions in document order
-- ---------------------------------------------------------------------------

theorem expression?_eq_some {c : Setting} {s : String} :
    c.expression? = some s ↔ c = .expression s := by
  cases c <;> simp [expression?]

theorem expressions_eq (c : Setting) :
    c.expressions = c.expression?.toList ++ c.children.flatMap expressions := by
  cases c with
  | list items => exact itemExpressions_eq_flatMap items
  | map entries => exact entryExpressions_eq_flatMap entries
  | _ => rfl

theorem expressions_inOrder (c : Setting) :
    ∃ texts, InOrder (fun place s => c.part? place = some (.expression s)) texts ∧
      c.expressions = texts.map (·.2) := by
  induction c using of_children with
  | node c ih =>
    cases he : c.expression? with
    | some source =>
      obtain rfl := expression?_eq_some.mp he
      refine ⟨[([], source)], ⟨fun place s => ?_, List.pairwise_singleton ..⟩, rfl⟩
      cases place <;> simp [part?, partAt?, children, eq_comm]
    | none =>
      have hne (s : String) : c ≠ .expression s := fun h => by simp [h, expression?] at he
      obtain ⟨texts, ht, hs⟩ := exists_inOrder 0 ih
      refine ⟨texts, ?_, by rw [expressions_eq, he]; exact hs⟩
      simpa only [part?_eq_some (hne _), Nat.zero_add] using ht

-- ---------------------------------------------------------------------------
-- Tags
-- ---------------------------------------------------------------------------

/-- A text that starts with a dollar sign. -/
def Marked (s : String) : Prop := s.toList.head? = some '$'

theorem marksExpression_iff {s : String} : marksExpression s = true ↔ Marked s :=
  beq_iff_eq

theorem ofString_of_marked {s : String} (h : Marked s) : ofString s = .expression s :=
  if_pos (marksExpression_iff.mpr h)

theorem ofString_of_unmarked {s : String} (h : ¬Marked s) : ofString s = .string s :=
  if_neg fun hm => h (marksExpression_iff.mp hm)

/-- A setting tells the value that it was read from. -/
theorem eq_of_ofJson_eq {v : Json} {c : Setting} (h : ofJson v = c) : v = c.toJson :=
  h ▸ (toJson_ofJson v).symm

theorem ofJson_eq_expression {v : Json} {s : String} :
    ofJson v = .expression s ↔ v = .string s ∧ Marked s := by
  constructor
  · intro h
    obtain rfl : v = .string s := eq_of_ofJson_eq h
    refine ⟨rfl, Classical.by_contradiction fun hs => ?_⟩
    cases (ofString_of_unmarked hs).symm.trans h
  · rintro ⟨rfl, hs⟩
    exact ofString_of_marked hs

theorem ofJson_eq_string {v : Json} {s : String} :
    ofJson v = .string s ↔ v = .string s ∧ ¬Marked s := by
  constructor
  · intro h
    obtain rfl : v = .string s := eq_of_ofJson_eq h
    refine ⟨rfl, fun hs => ?_⟩
    cases (ofString_of_marked hs).symm.trans h
  · rintro ⟨rfl, hs⟩
    exact ofString_of_unmarked hs

/-- Where the marked texts of a value are, there its setting has expressions. -/
theorem expression_at_iff {v : Json} {place : Place} {s : String} :
    (ofJson v).part? place = some (.expression s) ↔
      v.part? place = some (.string s) ∧ Marked s := by
  simp only [part?_ofJson, Option.map_eq_some_iff, ofJson_eq_expression]
  exact ⟨fun ⟨_, hw, he, hs⟩ => ⟨he ▸ hw, hs⟩, fun ⟨hw, hs⟩ => ⟨_, hw, rfl, hs⟩⟩

theorem string_at_iff {v : Json} {place : Place} {s : String} :
    (ofJson v).part? place = some (.string s) ↔
      v.part? place = some (.string s) ∧ ¬Marked s := by
  simp only [part?_ofJson, Option.map_eq_some_iff, ofJson_eq_string]
  exact ⟨fun ⟨_, hw, he, hs⟩ => ⟨he ▸ hw, hs⟩, fun ⟨hw, hs⟩ => ⟨_, hw, rfl, hs⟩⟩

-- ---------------------------------------------------------------------------
-- There and back
-- ---------------------------------------------------------------------------

/-- Every text inside a setting has the tag that it asks for. -/
def TaggedByText (c : Setting) : Prop :=
  ∀ place s, (c.part? place = some (.string s) → ¬Marked s) ∧
    (c.part? place = some (.expression s) → Marked s)

theorem taggedByText_ofJson (v : Json) : (ofJson v).TaggedByText :=
  fun _ _ => ⟨fun h => (string_at_iff.mp h).2, fun h => (expression_at_iff.mp h).2⟩

theorem TaggedByText.child {c d : Setting} (hc : c.TaggedByText) (hd : d ∈ c.children) :
    d.TaggedByText := by
  obtain ⟨i, hi⟩ := List.mem_iff_getElem?.mp hd
  intro place s
  rw [← part?_cons hi]
  exact hc (i :: place) s

theorem TaggedByText.ofJson_toJson {c : Setting} (hc : c.TaggedByText) : ofJson c.toJson = c := by
  induction c using of_children with
  | node c ih =>
    have hd (d) (h : d ∈ c.children) : ofJson d.toJson = d := ih d h (hc.child h)
    cases c with
    | string s => exact ofString_of_unmarked ((hc [] s).1 rfl)
    | expression s => exact ofString_of_marked ((hc [] s).2 rfl)
    | list items =>
      have hi : items.map (ofJson ∘ toJson) = items.map id := List.map_congr_left hd
      simp [toJson, ofJson, itemsJson_eq_map, ofItems_eq_map, hi]
    | map entries =>
      have he : entries.map (fun p => (p.1, ofJson p.2.toJson)) = entries.map id :=
        List.map_congr_left fun p hp => Prod.ext rfl (hd p.2 (List.mem_map_of_mem hp))
      simp [toJson, ofJson, entriesJson_eq_mapValues, ofFields_eq_mapValues, Fields.mapValues,
        Function.comp_def, he]
    | _ => rfl

/-- A setting is read again as itself just if its texts have the tags that they
ask for. -/
theorem ofJson_toJson_eq_iff {c : Setting} : ofJson c.toJson = c ↔ c.TaggedByText :=
  ⟨fun h => h ▸ taggedByText_ofJson _, TaggedByText.ofJson_toJson⟩

-- a string that is marked comes back as an expression
example : ofJson (Setting.string "$x").toJson = .expression "$x" := rfl

/-- The setting of a value writes the value again, lists its marked texts as
expressions in document order, tags each text by itself, and stays what it is
in any number of round trips. A setting comes back as it was just if all of its
texts are tagged so. -/
theorem faithful_image :
    (∀ v : Json, (ofJson v).toJson = v ∧
      (∃ texts, InOrder (fun place s => v.part? place = some (.string s) ∧ Marked s) texts ∧
        (ofJson v).expressions = texts.map (·.2)) ∧
      (∀ place s,
        ((ofJson v).part? place = some (.expression s) ↔
          v.part? place = some (.string s) ∧ Marked s) ∧
        ((ofJson v).part? place = some (.string s) ↔
          v.part? place = some (.string s) ∧ ¬Marked s)) ∧
      ∀ n, (fun c => ofJson c.toJson)^[n] (ofJson v) = ofJson v) ∧
    ∀ c : Setting, ofJson c.toJson = c ↔ c.TaggedByText := by
  refine ⟨fun v => ⟨toJson_ofJson v, ?_, fun _ _ => ⟨expression_at_iff, string_at_iff⟩,
    fun n => ?_⟩, fun _ => ofJson_toJson_eq_iff⟩
  · simpa only [expression_at_iff] using expressions_inOrder (ofJson v)
  · exact Function.iterate_fixed (congrArg ofJson (toJson_ofJson v)) n

end Setting
end LiveLayout
