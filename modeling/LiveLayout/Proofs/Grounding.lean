import LiveLayout.Proofs.Consistency
import LiveLayout.Proofs.Readability

/-!
# References that were checked are live

Where the check of a layout finds no unknown reference, and the library knows
all components, every expression that is evaluated later looks up an id that is
in the directory. This holds for the selections that are not written, too:
their text is no expression, or one whose target is the parent.
-/

namespace LiveLayout

namespace Expression

open Text (isBlank)

-- ---------------------------------------------------------------------------
-- Texts that end with an opening parenthesis
-- ---------------------------------------------------------------------------

/-- The text does not end with an opening parenthesis. -/
def Sealed (cs : List Char) : Prop := cs.getLast? ≠ some '('

theorem Sealed.append (h : Sealed cs) (h' : Sealed ds) : Sealed (cs ++ ds) := by
  unfold Sealed at *
  rw [List.getLast?_append]
  cases hd : ds.getLast? with
  | none => simpa using h
  | some c => simpa [hd] using h'

theorem sealed_of_forall {p : Char → Bool} (hp : p '(' = false) (h : ∀ c ∈ cs, p c = true) :
    Sealed cs := by
  intro hl
  have hc := h _ (List.mem_of_getLast? hl)
  rw [hp] at hc
  cases hc

theorem sealed_concat (cs : List Char) {c : Char} (hc : c ≠ '(') : Sealed (cs ++ [c]) := by
  simpa [Sealed] using hc

theorem Literal.sealed (h : Literal cs v) : Sealed cs := by
  cases h with
  | word hw => cases hw <;> simp [Sealed]
  | string hs =>
    cases hs with
    | mk hq =>
      rw [← List.cons_append]
      exact sealed_concat _ (by rcases hq with rfl | rfl <;> simp)
  | number _ hcs _ => exact sealed_of_forall (by decide) hcs.2
  | array | object =>
    rw [← List.cons_append]
    exact sealed_concat _ (by simp)

theorem Blanks.sealed (h : Blanks ws) : Sealed ws := sealed_of_forall (by decide) h

theorem Series.sealed (h : Series Literal cs vs) : Sealed cs := by
  induction h with
  | last hl => exact hl.sealed
  | more hl hw hw' _ ih =>
    have hc : Sealed [','] := sealed_concat [] (by simp)
    simpa using hl.sealed.append (hw.sealed.append (hc.append (hw'.sealed.append ih)))

theorem Listed.sealed (h : Listed Literal cs vs) : Sealed cs := by
  cases h with
  | none hw => exact hw.sealed
  | some hw hs hw' => exact hw.sealed.append (hs.sealed.append hw'.sealed)

/-- What is solid at its end has no blanks there. -/
theorem eq_nil_of_append_blanks {xs ws ys : List Char} {c : Char} (hw : Blanks ws)
    (hc : isBlank c = false) (h : xs ++ ws = ys ++ [c]) : ws = [] := by
  rcases List.eq_nil_or_concat ws with rfl | ⟨ws', b, rfl⟩
  · rfl
  · rw [List.concat_eq_append, ← List.append_assoc] at h
    obtain ⟨-, hb⟩ := List.append_inj' h rfl
    obtain rfl := List.singleton_inj.mp hb
    have hb := hw b (by simp)
    rw [hc] at hb
    cases hb

theorem Run.ne_point {cs : List Char} (h : Run isNameChar cs) : ∀ c ∈ cs, c ≠ '.' := by
  rintro c hc rfl
  exact absurd (h.2 _ hc) (by decide)

theorem Run.solid_end {cs : List Char} (h : Run isNameChar cs) :
    ∃ front c, cs = front ++ [c] ∧ isBlank c = false := by
  rcases List.eq_nil_or_concat cs with rfl | ⟨front, c, rfl⟩
  · exact absurd rfl h.1
  · rw [List.concat_eq_append] at h ⊢
    have hc : isNameChar c = true := h.2 c (by simp)
    exact ⟨front, c, rfl, isBlank_of_inRun (by simp [inRun, hc])⟩

/-- A call of a method without arguments is one of what stands before the last
point, if it is an expression at all. -/
theorem target_of_emptyCall {owner method : List Char} (hm : Run isNameChar method)
    (h : Derives ('$' :: (owner ++ '.' :: (method ++ ['(', ')']))) e) :
    e.target = String.ofList owner := by
  generalize ht : '$' :: (owner ++ '.' :: (method ++ ['(', ')'])) = text at h
  cases h with
  | reference hn =>
    have hs : '(' ∈ owner ++ '.' :: (method ++ ['(', ')']) := by simp
    rw [(List.cons.inj ht).2] at hs
    exact absurd (hn.2 _ hs) (by decide)
  | @call name _ _ hn hcall =>
    obtain @⟨called, ws, cs, ws', args, hr, hw, hl, hw'⟩ := hcall
    have ht := (List.cons.inj ht).2
    -- the text ends with the closing parenthesis of the call
    have hclose : (name ++ '.' :: (called ++ (ws ++ '(' :: (cs ++ [')'])))) ++ ws' =
        (owner ++ '.' :: (method ++ ['('])) ++ [')'] := by simpa using ht.symm
    obtain rfl := eq_nil_of_append_blanks hw' (by decide) hclose
    have hparens : (name ++ '.' :: (called ++ (ws ++ '(' :: cs))) ++ [')'] =
        (owner ++ '.' :: (method ++ ['('])) ++ [')'] := by simpa using hclose
    have hopen := List.append_cancel_right hparens
    -- before that comes the opening one, with which no arguments end
    obtain rfl : cs = [] := by
      rcases List.eq_nil_or_concat cs with rfl | ⟨front, c, rfl⟩
      · rfl
      · rw [List.concat_eq_append] at hl hopen
        have hlast : (name ++ '.' :: (called ++ (ws ++ '(' :: front))) ++ [c] =
            (owner ++ '.' :: method) ++ ['('] := by simpa using hopen
        obtain ⟨-, hc⟩ := List.append_inj' hlast rfl
        obtain rfl := List.singleton_inj.mp hc
        exact absurd (by simp) hl.sealed
    have hparen : (name ++ '.' :: (called ++ ws)) ++ ['('] = (owner ++ '.' :: method) ++ ['('] := by
      simpa using hopen
    have hname := List.append_cancel_right hparen
    obtain ⟨front, c, rfl, hc⟩ := hm.solid_end
    have hend : (name ++ '.' :: called) ++ ws = (owner ++ '.' :: front) ++ [c] := by
      simpa using hname
    obtain rfl := eq_nil_of_append_blanks hw hc hend
    have howner : name = owner :=
      Live.eq_of_append_cons (p := (· = '.')) rfl rfl hr.ne_point hm.ne_point
        (by simpa using hname)
    exact congrArg String.ofList howner

end Expression

namespace Layout

/-- A selection that is not written is that of the parent, if it is an
expression. -/
theorem target_of_selectionText {cascade : Cascade} (hs : cascade.selection = none)
    (hp : Expression.parse cascade.selectionText = .ok e) : e.target = cascade.parent := by
  have hd := Expression.derives_of_parse hp
  rw [trim_selectionText hs] at hd
  simpa using Expression.target_of_emptyCall run_rowsMethod hd

variable {tree : Node} {concerns : List Concern}

theorem declared_of_written (h : check tree = .ok concerns)
    (hu : ∀ component target, .unknownReference component target ∉ concerns)
    (hc : c ∈ tree.components) (hs : source ∈ c.expressions)
    (hp : Expression.parse source = .ok e) : e.target ∈ declaredIds tree.components := by
  by_contra ht
  refine hu c.name e.target ?_
  rw [concerns_of_check h]
  refine List.mem_flatMap.mpr ⟨c, hc, List.mem_append_left _ ?_⟩
  exact List.mem_flatMap.mpr ⟨source, hs, by simp [expressionConcerns, hp, ht]⟩

theorem declared_of_parent {cascade : Cascade} (h : check tree = .ok concerns)
    (hu : ∀ component target, .unknownReference component target ∉ concerns)
    (hc : c ∈ tree.components) (hcas : c.cascade = some cascade) :
    cascade.parent ∈ declaredIds tree.components := by
  by_contra ht
  refine hu c.name cascade.parent ?_
  rw [concerns_of_check h]
  refine List.mem_flatMap.mpr ⟨c, hc, List.mem_append_right _ ?_⟩
  simp [hcas, cascadeConcerns, ht]

/-- Where no reference is unknown, all that a component can have evaluated is of
an id that is declared. -/
theorem declared_of_asks (h : check tree = .ok concerns)
    (hu : ∀ component target, .unknownReference component target ∉ concerns)
    (hc : c ∈ tree.components) (ha : c.Asks source) (hp : Expression.parse source = .ok e) :
    e.target ∈ declaredIds tree.components := by
  cases ha with
  | written hs => exact declared_of_written h hu hc hs hp
  | @selects cascade hcas =>
    cases hs : cascade.selection with
    | none =>
      rw [target_of_selectionText hs hp]
      exact declared_of_parent h hu hc hcas
    | some source =>
      refine declared_of_written h hu hc ?_ hp
      refine List.mem_append_right _ ?_
      simp [Cascade.selectionText, hcas, hs]

end Layout

namespace Live

open Layout (Node)

/-- What is evaluated is of an id that is in the directory, and nothing is found
not to be mounted. -/
def Effect.Grounded : Effect → Prop
  | .evaluated d source => ∀ e, Expression.parse source = .ok e → (Fields.get? d e.target).isSome
  | .warned (.notMounted _) => False
  | _ => True

theorem Evaluates.grounded {d : Directory} (h : Evaluates d T e)
    (hd : ∀ source, T source → ∀ e, Expression.parse source = .ok e →
      (Fields.get? d e.target).isSome) : e.Grounded := by
  cases h with
  | aside he =>
    unfold Effect.Grounded
    split
    · cases he
    · cases he
    · trivial
  | evaluated ht => exact hd _ ht
  | notMounted ht hp hg =>
    have hs := hd _ ht _ hp
    rw [hg] at hs
    cases hs
  | malformed | invoked => trivial

namespace Renderer

variable {W : Type}

/-- Where all that is kept is of ids that are in the directory, nothing else is
evaluated. -/
theorem Plays.grounded {r : Renderer W} (h : r.Plays e)
    (hd : ∀ source, r.Holds source → ∀ e, Expression.parse source = .ok e →
      (Fields.get? r.directory e.target).isSome) : e.Grounded := by
  cases h with
  | evaluates he => exact he.grounded hd
  | called | pushed | submitted => trivial

variable [Widget W]

/-- Where the check finds no unknown reference and the library knows every
component, all that is evaluated once the layout is shown is of an id that is in
the directory, as long as the layout stays. -/
theorem references_live {library : Library W} {options : Options} {r : Renderer W}
    (hr : Reachable library options r) {tree : Node} {concerns : List Layout.Concern}
    (hc : Layout.check tree = .ok concerns)
    (hu : ∀ component target, .unknownReference component target ∉ concerns)
    (hk : ∀ c ∈ tree.components, library.knows c = true) (handlers : Handlers)
    {ops : List Operation} (ho : ∀ op ∈ ops, op.isStaying = true) :
    let shown := r.after (.render tree handlers)
    Extends Effect.Grounded shown.stage (shown.afterAll ops).stage := by
  intro shown
  obtain ⟨⟨xs, hx⟩, -⟩ := hr.sane
  obtain ⟨ys, scene, -, -, hi, hp⟩ := hx.render_introduces handlers hc
  have hl : r.library = library := hr.carries.library
  have hcs : ys.map (·.component) = tree.components := by
    rw [hp.components, hl, List.filter_eq_self.mpr (by simpa [Node.componentsAll] using hk)]
    simp [Node.componentsAll]
  have hs : Shows ys shown := hi.shows
  refine (goesOn_afterAll ho shown).said.mono fun e he => he.grounded fun source hh e hp => ?_
  obtain ⟨x, hm, ha⟩ := hs.holds hh
  have hxc : x.component ∈ tree.components := hcs ▸ List.mem_map_of_mem hm
  obtain ⟨c, hct, hid⟩ := List.mem_filterMap.mp (Layout.declared_of_asks hc hu hxc ha hp)
  obtain ⟨y, hy, rfl⟩ := List.mem_map.mp (hcs ▸ hct)
  exact Option.isSome_iff_exists.mpr ⟨_, hs.get?_directory.mpr ⟨y, hy, hid, rfl⟩⟩

/-- The form asks for the selection of the grid. -/
theorem references_live_followed :
    Layout.check (followed "grid") = .ok [] ∧
      let shown := (new parentAndChild .default).after (.render (followed "grid") [])
      Extends Effect.Grounded shown.stage
        (shown.afterAll [.fire "grid" "select" (.object []), .refresh "grid", .pump]).stage := by
  have hc : Layout.check (followed "grid") = .ok [] := by cbv
  have hk : ∀ c ∈ (followed "grid").components, parentAndChild.knows c = true := by
    simp [followed, Node.components, Node.componentsAll, parentAndChild, Library.knows,
      Fields.get?, Layout.Component.plain]
  exact ⟨hc, references_live .new hc (by simp) hk [] (by decide)⟩

end Renderer

end Live

end LiveLayout
