import LiveLayout.Proofs.Parsing

/-!
# Printed expressions, read again

Arguments are printed as JSON, and so are the escapes in their texts. The reader
of expressions has escapes of its own: it knows those of the quote, the
backslash, the newline and the tab, and takes any other escaped character for
itself. So a printed expression is always read. It is read as what was printed,
but for the other control characters, of whose escapes all but the backslash
stays in the text.
-/

namespace LiveLayout

open Expression (Blanks blanks_nil Run Quoted Str Series Listed Literal Entry Derives parse isIdChar
  isNameChar isNumberChar startsNumber fitsWord)

-- powers are those of the core library, whatever else is in scope
attribute [local instance (high)] instPowNat

namespace Json

-- ---------------------------------------------------------------------------
-- Characters and texts
-- ---------------------------------------------------------------------------

/-- The printer escapes it in a way that the reader does not know. -/
def isLost (c : Char) : Bool := decide (c.toNat < 0x20) && c != '\n' && c != '\t'

/-- What a printed character is read as. -/
def rereadChar (c : Char) : List Char := if isLost c then (escapeChar c).tail else [c]

theorem escapeChar_of_plain {c : Char} (hq : c ≠ '"') (hb : c ≠ '\\') (hc : ¬c.toNat < 0x20) :
    escapeChar c = [c] := by
  unfold escapeChar
  split
  all_goals first | exact if_neg hc | exact absurd rfl ‹_›

/-- What is left of the escape of a lost character is plain, and is not taken
for the escape of a newline or a tab. -/
theorem lost_codes : ∀ n < 0x20, isLost (Char.ofNat n) = true →
    escapeChar (Char.ofNat n) = '\\' :: rereadChar (Char.ofNat n) ∧
      (rereadChar (Char.ofNat n)).head?.all (fun d => d != 'n' && d != 't') = true ∧
      rereadChar (Char.ofNat n) ≠ [] ∧
      (rereadChar (Char.ofNat n)).all (fun d => d != '"' && d != '\\' && !isLost d) = true := by
  decide +kernel

theorem escape_of_isLost {c : Char} (h : isLost c = true) :
    ∃ d ds, rereadChar c = d :: ds ∧ escapeChar c = '\\' :: d :: ds ∧ d ≠ 'n' ∧ d ≠ 't' ∧
      ∀ e ∈ d :: ds, e ≠ '"' ∧ e ≠ '\\' ∧ isLost e = false := by
  have hc : c.toNat < 0x20 := by simp_all [isLost]
  obtain ⟨he, hhead, hne, hplain⟩ := lost_codes c.toNat hc (by rwa [Char.ofNat_toNat])
  rw [Char.ofNat_toNat] at he hhead hne hplain
  obtain ⟨d, ds, hd⟩ := List.exists_cons_of_ne_nil hne
  rw [hd] at he hhead hplain
  obtain ⟨hn, ht⟩ : d ≠ 'n' ∧ d ≠ 't' := by simpa using hhead
  refine ⟨d, ds, hd, he, hn, ht, fun e hm => ?_⟩
  simpa [and_assoc] using List.all_eq_true.mp hplain e hm

theorem quoted_plain {ds cs text : List Char} (hd : ∀ d ∈ ds, d ≠ '"' ∧ d ≠ '\\')
    (h : Quoted '"' cs text) : Quoted '"' (ds ++ cs) (ds ++ text) := by
  induction ds with
  | nil => exact h
  | cons d ds ih =>
    obtain ⟨hq, hb⟩ := hd d List.mem_cons_self
    exact .plain hq hb (ih fun e he => hd e (List.mem_cons_of_mem d he))

theorem quoted_escapeChar (c : Char) {cs text : List Char} (h : Quoted '"' cs text) :
    Quoted '"' (escapeChar c ++ cs) (rereadChar c ++ text) := by
  by_cases hl : isLost c = true
  · obtain ⟨d, ds, hr, he, hn, ht, hp⟩ := escape_of_isLost hl
    rw [hr, he]
    exact .escaped hn ht (quoted_plain (fun e he => ⟨(hp e (.tail d he)).1, (hp e (.tail d he)).2.1⟩) h)
  · rw [rereadChar, if_neg hl]
    by_cases hq : c = '"'
    · subst hq; exact .escaped (by decide) (by decide) h
    by_cases hb : c = '\\'
    · subst hb; exact .escaped (by decide) (by decide) h
    by_cases hn : c = '\n'
    · subst hn; exact .newline h
    by_cases ht : c = '\t'
    · subst ht; exact .tab h
    have hc : ¬c.toNat < 0x20 := by simpa [isLost, hn, ht] using hl
    rw [escapeChar_of_plain hq hb hc]
    exact .plain hq hb h

/-- What a printed text is read as. -/
def rereadString (s : String) : String := String.ofList (s.toList.flatMap rereadChar)

example : rereadString "a\x00\n\"" = "au0000\n\"" := by cbv

theorem str_stringText (s : String) : Str (stringText s) (rereadString s) := by
  refine .mk (.inl rfl) ?_
  induction s.toList with
  | nil => exact .done
  | cons c cs ih => exact quoted_escapeChar c ih

/-- No character of it is lost. -/
def Intact (s : String) : Prop := ∀ c ∈ s.toList, isLost c = false

theorem intact_rereadString (s : String) : Intact (rereadString s) := by
  intro d hd
  rw [rereadString, String.toList_ofList] at hd
  obtain ⟨c, -, hd⟩ := List.mem_flatMap.mp hd
  by_cases hl : isLost c = true
  · obtain ⟨e, es, hr, -, -, -, hp⟩ := escape_of_isLost hl
    exact (hp d (hr ▸ hd)).2.2
  · rw [rereadChar, if_neg hl, List.mem_singleton] at hd
    simpa [hd] using hl

theorem rereadString_of_intact {s : String} (h : Intact s) : rereadString s = s := by
  have hc : ∀ cs : List Char, (∀ c ∈ cs, isLost c = false) → cs.flatMap rereadChar = cs := by
    intro cs
    induction cs with
    | nil => exact fun _ => rfl
    | cons c cs ih =>
      intro hcs
      rw [List.flatMap_cons, ih fun d hd => hcs d (.tail c hd), rereadChar,
        if_neg (by simp [hcs c List.mem_cons_self])]
      rfl
  rw [rereadString, hc s.toList h, String.ofList_toList]

-- ---------------------------------------------------------------------------
-- Integers
-- ---------------------------------------------------------------------------

theorem ofDigits_toDigits (n : Nat) : Numeric.ofDigits (Nat.toDigits 10 n) = n := by
  have h := Nat.ofDigitChars_ten_toDigits (n := n)
  rw [Nat.ofDigitChars_eq_foldl] at h
  simpa [Numeric.ofDigits, Numeric.ofDigitsFrom, Numeric.digitValue, Nat.mul_comm] using h

theorem toDigits_cons (n : Nat) : ∃ d ds, Nat.toDigits 10 n = d :: ds ∧
    ∀ c ∈ d :: ds, c.isDigit = true := by
  obtain ⟨d, ds, h⟩ := List.exists_cons_of_ne_nil (Nat.toDigits_ne_nil (n := n) (b := 10))
  exact ⟨d, ds, h, fun c hc => Nat.isDigit_of_mem_toDigits (by decide) (by decide) (h ▸ hc)⟩

theorem takeSign_of_isDigit {c : Char} (hc : c.isDigit = true) (cs : List Char) :
    Numeric.takeSign (c :: cs) = (false, c :: cs) := by
  unfold Numeric.takeSign
  split
  next heq => obtain ⟨rfl, rfl⟩ := List.cons.inj heq; exact absurd hc (by decide)
  next heq => obtain ⟨rfl, rfl⟩ := List.cons.inj heq; exact absurd hc (by decide)
  next => rfl

theorem integer?_intText (n : Int) : Numeric.integer? (intText n) = some n := by
  obtain ⟨d, ds, hd, hds⟩ := toDigits_cons n.natAbs
  have hall : (d :: ds).all Char.isDigit = true := List.all_eq_true.mpr hds
  have hvalue : Numeric.ofDigits (d :: ds) = n.natAbs := hd ▸ ofDigits_toDigits n.natAbs
  unfold intText
  rw [hd]
  split
  · simp only [Numeric.integer?, Numeric.takeSign, hall, hvalue]
    show some (-(n.natAbs : Int)) = some n
    exact congrArg some (by omega)
  · simp only [Numeric.integer?, takeSign_of_isDigit (hds d List.mem_cons_self), hall, hvalue]
    show some (n.natAbs : Int) = some n
    exact congrArg some (by omega)

theorem intText_cons (n : Int) : ∃ c cs, intText n = c :: cs ∧ startsNumber c = true ∧
    Run isNumberChar (c :: cs) := by
  obtain ⟨d, ds, hd, hds⟩ := toDigits_cons n.natAbs
  have hrun : ∀ c ∈ d :: ds, isNumberChar c = true := fun c hc => by simp [isNumberChar, hds c hc]
  unfold intText
  rw [hd]
  split
  · refine ⟨'-', d :: ds, rfl, by decide, by simp, fun c hc => ?_⟩
    rcases List.mem_cons.mp hc with rfl | hc
    · decide
    · exact hrun c hc
  · exact ⟨d, ds, rfl, by simp [startsNumber, hds d List.mem_cons_self], by simp, hrun⟩

theorem literal_intText {n : Int} (h : fitsWord n = true) :
    Literal (intText n) (.number (.int n)) := by
  obtain ⟨c, cs, ht, hc, hr⟩ := intText_cons n
  have hn : Expression.IsWord (c :: cs) n := ⟨ht ▸ integer?_intText n, Expression.fitsWord_iff.mp h⟩
  rw [ht]
  exact .number hc hr (.int hn)

-- ---------------------------------------------------------------------------
-- Values
-- ---------------------------------------------------------------------------

/-- Made of nulls, booleans, 64-bit integers, texts, arrays, and objects whose
keys differ. -/
inductive Whole : Json → Prop where
  | null : Whole .null
  | bool (b : Bool) : Whole (.bool b)
  | int {n : Int} : fitsWord n = true → Whole (.number (.int n))
  | string (s : String) : Whole (.string s)
  | array {items : List Json} : (∀ v ∈ items, Whole v) → Whole (.array items)
  | object {fields : Fields Json} :
      (Fields.names fields).Nodup → (∀ p ∈ fields, Whole p.2) → Whole (.object fields)

mutual
/-- What a printed value is read as. Keys that are read as the same one make
one field. -/
def reread : Json → Json
  | .string s => .string (rereadString s)
  | .array items => .array (rereadItems items)
  | .object fields => .object (Fields.ofPairs (rereadFields fields))
  | v => v
def rereadItems : List Json → List Json
  | [] => []
  | v :: rest => v.reread :: rereadItems rest
def rereadFields : List (String × Json) → List (String × Json)
  | [] => []
  | (k, v) :: rest => (rereadString k, v.reread) :: rereadFields rest
end

mutual
/-- All texts in a value, be they values or keys. -/
def strings : Json → List String
  | .string s => [s]
  | .array items => itemStrings items
  | .object fields => fieldStrings fields
  | _ => []
def itemStrings : List Json → List String
  | [] => []
  | v :: rest => v.strings ++ itemStrings rest
def fieldStrings : List (String × Json) → List String
  | [] => []
  | (k, v) :: rest => k :: (v.strings ++ fieldStrings rest)
end

theorem rereadItems_eq_map (items : List Json) : rereadItems items = items.map reread := by
  induction items with
  | nil => rfl
  | cons v rest ih => simp [rereadItems, ih]

theorem rereadFields_eq_map (fields : List (String × Json)) :
    rereadFields fields = fields.map fun p => (rereadString p.1, p.2.reread) := by
  induction fields with
  | nil => rfl
  | cons p rest ih => simp [rereadFields, ih]

theorem mem_itemStrings {items : List Json} {s : String} :
    s ∈ itemStrings items ↔ ∃ v ∈ items, s ∈ v.strings := by
  induction items with
  | nil => simp [itemStrings]
  | cons v rest ih => simp [itemStrings, ih]

theorem mem_fieldStrings {fields : List (String × Json)} {s : String} :
    s ∈ fieldStrings fields ↔ ∃ p ∈ fields, s = p.1 ∨ s ∈ p.2.strings := by
  induction fields with
  | nil => simp [fieldStrings]
  | cons p rest ih => simp [fieldStrings, ih, or_assoc]

mutual
/-- Nothing that was read can be lost. -/
theorem intact_reread (v : Json) : ∀ s ∈ v.reread.strings, Intact s := by
  cases v with
  | string s => simpa [reread, strings] using intact_rereadString s
  | array items => exact intact_rereadItems items
  | object fields =>
    intro s hs
    obtain ⟨p, hp, hs⟩ := mem_fieldStrings.mp hs
    exact intact_rereadFields fields s (mem_fieldStrings.mpr ⟨p, Fields.mem_ofPairs hp, hs⟩)
  | _ => simp [reread, strings]
theorem intact_rereadItems (items : List Json) : ∀ s ∈ itemStrings (rereadItems items), Intact s := by
  cases items with
  | nil => simp [rereadItems, itemStrings]
  | cons v rest =>
    intro s hs
    rcases List.mem_append.mp hs with hs | hs
    · exact intact_reread v s hs
    · exact intact_rereadItems rest s hs
theorem intact_rereadFields (fields : List (String × Json)) :
    ∀ s ∈ fieldStrings (rereadFields fields), Intact s := by
  cases fields with
  | nil => simp [rereadFields, fieldStrings]
  | cons p rest =>
    intro s hs
    rcases List.mem_cons.mp hs with rfl | hs
    · exact intact_rereadString p.1
    rcases List.mem_append.mp hs with hs | hs
    · exact intact_reread p.2 s hs
    · exact intact_rereadFields rest s hs
end

theorem map_eq_self_iff {f : α → α} {as : List α} : as.map f = as ↔ ∀ a ∈ as, f a = a := by
  simpa using List.map_inj_left (f := f) (g := id) (l := as)

theorem Whole.reread_of_intact {v : Json} (hv : v.Whole) (h : ∀ s ∈ v.strings, Intact s) :
    v.reread = v := by
  induction hv with
  | null | bool | int => rfl
  | string s => simp [reread, rereadString_of_intact (h s (by simp [strings]))]
  | @array items _ ih =>
    have hitems : items.map Json.reread = items := map_eq_self_iff.mpr fun v hv =>
      ih v hv fun s hs => h s (mem_itemStrings.mpr ⟨v, hv, hs⟩)
    rw [reread, rereadItems_eq_map, hitems]
  | @object fields hn _ ih =>
    have hs : ∀ p ∈ fields, ∀ s, s = p.1 ∨ s ∈ p.2.strings → Intact s := fun p hp s hs =>
      h s (mem_fieldStrings.mpr ⟨p, hp, hs⟩)
    have hfields : fields.map (fun p => (rereadString p.1, p.2.reread)) = fields :=
      map_eq_self_iff.mpr fun p hp => Prod.ext (rereadString_of_intact (hs p hp p.1 (.inl rfl)))
        (ih p hp fun s h => hs p hp s (.inr h))
    rw [reread, rereadFields_eq_map, hfields, Fields.ofPairs_of_nodup hn]

/-- A value is read as itself just if nothing in it is lost. -/
theorem Whole.reread_eq_self_iff {v : Json} (hv : v.Whole) :
    v.reread = v ↔ ∀ s ∈ v.strings, Intact s :=
  ⟨fun h => h ▸ intact_reread v, hv.reread_of_intact⟩

-- ---------------------------------------------------------------------------
-- Lists
-- ---------------------------------------------------------------------------

section
variable {P : List Char → α → Prop} {text : β → List Char} {mean : β → α} {ws : List Char}

/-- Things of a kind, written one after the other with commas between. -/
theorem series_intercalate (hw : Blanks ws) (b : β) (bs : List β)
    (h : ∀ c ∈ b :: bs, P (text c) (mean c)) :
    Series P ((',' :: ws).intercalate ((b :: bs).map text)) ((b :: bs).map mean) := by
  induction bs generalizing b with
  | nil => simpa using Series.last (h b List.mem_cons_self)
  | cons c bs ih =>
    have hmore := Series.more (h b List.mem_cons_self) blanks_nil hw
      (ih c fun d hd => h d (.tail b hd))
    simpa [List.intercalate_cons_cons] using hmore

theorem listed_intercalate (hw : Blanks ws) {bs : List β} (h : ∀ b ∈ bs, P (text b) (mean b)) :
    Listed P ((',' :: ws).intercalate (bs.map text)) (bs.map mean) := by
  cases bs with
  | nil => exact .none blanks_nil
  | cons b bs => simpa using Listed.some blanks_nil (series_intercalate hw b bs h) blanks_nil

end

theorem itemChars_eq_intercalate (items : List Json) :
    itemChars items = [','].intercalate (items.map chars) := by
  induction items with
  | nil => rfl
  | cons v rest ih =>
    cases rest with
    | nil => simp [itemChars]
    | cons w rest => simp_all [itemChars, List.intercalate_cons_cons]

theorem fieldChars_eq_intercalate (fields : List (String × Json)) :
    fieldChars fields = [','].intercalate (fields.map fun p => stringText p.1 ++ ':' :: p.2.chars) := by
  induction fields with
  | nil => rfl
  | cons p rest ih =>
    cases rest with
    | nil => simp [fieldChars]
    | cons q rest => simp_all [fieldChars, List.intercalate_cons_cons]

/-- The text of a value is a literal. -/
theorem Whole.literal {v : Json} (hv : v.Whole) : Literal v.chars v.reread := by
  induction hv with
  | null => exact .word .null
  | bool b => cases b <;> exact .word (by constructor)
  | int h => exact literal_intText h
  | string s => exact .string (str_stringText s)
  | @array items _ ih =>
    rw [chars, reread, itemChars_eq_intercalate, rereadItems_eq_map]
    exact .array (listed_intercalate blanks_nil ih)
  | @object fields _ _ ih =>
    rw [chars, reread, fieldChars_eq_intercalate, rereadFields_eq_map]
    refine .object (listed_intercalate blanks_nil fun p hp => ?_) (Expression.gathers_ofPairs _)
    exact .mk (.quoted (str_stringText p.1)) blanks_nil blanks_nil (ih p hp)

end Json

-- ---------------------------------------------------------------------------
-- Expressions
-- ---------------------------------------------------------------------------

namespace Expression

def arguments (e : Expression) : List Json := (e.call.map (·.args)).getD []

/-- Its names are names, and its arguments are values of literals. -/
structure Writable (e : Expression) : Prop where
  target : Run isIdChar e.target.toList
  method : ∀ call, e.call = some call → Run isNameChar call.method.toList
  arguments : ∀ v ∈ e.arguments, v.Whole

/-- What a printed expression is read as. -/
def reread (e : Expression) : Expression :=
  ⟨e.target, e.call.map fun call => ⟨call.method, call.args.map Json.reread⟩⟩

theorem reread_eq_self_iff (e : Expression) :
    e.reread = e ↔ ∀ v ∈ e.arguments, v.reread = v := by
  obtain ⟨target, _ | ⟨method, args⟩⟩ := e
  · simp [reread, arguments]
  · simp [reread, arguments, Json.map_eq_self_iff]

theorem derives_display {e : Expression} (h : e.Writable) : Derives e.display.toList e.reread := by
  obtain ⟨target, _ | ⟨method, args⟩⟩ := e
  · simpa [display, reread] using Derives.reference h.target
  · have hargs : Listed Literal ([',', ' '].intercalate (args.map Json.chars)) (args.map Json.reread) :=
      Json.listed_intercalate (by simp [Blanks, Text.isBlank]) fun v hv => (h.arguments v hv).literal
    have hcall := Derives.call h.target (.mk (h.method _ rfl) blanks_nil hargs blanks_nil)
    simpa [display, reread, String.toList_intercalate, Json.text, Function.comp_def] using hcall

theorem parse_display {e : Expression} (h : e.Writable) : parse e.display = .ok e.reread := by
  simpa using parse_ofList (derives_display h)

/-- A printed expression is read, and read as what was printed just if no text
in its arguments has a character that is lost. -/
theorem parse_display_iff {e : Expression} (h : e.Writable) :
    (∃ e', parse e.display = .ok e') ∧
      (parse e.display = .ok e ↔ ∀ v ∈ e.arguments, ∀ s ∈ v.strings, Json.Intact s) := by
  refine ⟨⟨_, parse_display h⟩, ?_⟩
  rw [parse_display h, Except.ok.injEq, reread_eq_self_iff]
  exact forall₂_congr fun v hv => (h.arguments v hv).reread_eq_self_iff

/-- Its two keys differ by a control character that is read as a letter. -/
def collidingKeys : Expression :=
  ⟨"grid", some ⟨"select",
    [.array [.null, .bool true], .object [("a\x08", .int 1), ("ab", .string "\n")]]⟩⟩

theorem writable_collidingKeys : collidingKeys.Writable where
  target := ⟨by simp [collidingKeys], List.all_eq_true.mp (by decide)⟩
  method := by
    rintro _ ⟨⟩
    exact ⟨by simp, List.all_eq_true.mp (by decide)⟩
  arguments := by
    have hkeys : ("a\x08" : String) ≠ "ab" := by decide
    simp only [arguments, collidingKeys, Option.map_some, Option.getD_some, List.forall_mem_cons,
      List.not_mem_nil, false_implies, implies_true, and_true]
    constructor
    · exact .array (by simp [Json.Whole.null, Json.Whole.bool])
    · refine .object (by simp [Fields.names, hkeys]) (List.forall_mem_cons.mpr ⟨.int rfl, ?_⟩)
      simpa using Json.Whole.string "\n"

theorem parse_display_collidingKeys :
    collidingKeys.Writable ∧ (∃ e, parse collidingKeys.display = .ok e) ∧
      parse collidingKeys.display ≠ .ok collidingKeys := by
  obtain ⟨hread, hiff⟩ := parse_display_iff writable_collidingKeys
  refine ⟨writable_collidingKeys, hread, fun h => ?_⟩
  have hlost : Json.isLost '\x08' = false :=
    hiff.mp h _ (by simp [arguments, collidingKeys]; exact .inr rfl) "a\x08"
      (by simp [Json.strings, Json.fieldStrings]) '\x08' (by decide)
  exact absurd hlost (by decide)

end Expression

end LiveLayout
