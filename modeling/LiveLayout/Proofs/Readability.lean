import Mathlib
import LiveLayout.Proofs.Activity
import LiveLayout.Proofs.Introducing
import LiveLayout.Proofs.Parsing
import LiveLayout.Proofs.Settling
import LiveLayout.Rehearsal.Widget

/-!
# Every expression that is evaluated was checked

The check of a layout looks at the expressions that are written in it. All that
a renderer evaluates later is among these, but for the selections that are not
written: their text is made of the id of the parent. So where no expression of
a layout is malformed, and the parents whose selection is not written have
names for ids, no evaluation ever meets a text that is no expression.
-/

namespace LiveLayout

open Expression (Parses)

namespace Layout

/-- All texts that a component can have evaluated are expressions. -/
structure Component.Readable (c : Component) : Prop where
  written : ∀ source ∈ c.expressions, Parses source
  selection : ∀ cascade, c.cascade = some cascade → Parses cascade.selectionText

theorem Component.Readable.asks {c : Component} (h : c.Readable) (ha : c.Asks source) :
    Parses source := by
  cases ha with
  | written hs => exact h.written source hs
  | selects hc => exact h.selection _ hc

-- ---------------------------------------------------------------------------
-- What is checked
-- ---------------------------------------------------------------------------

theorem concerns_of_check {tree : Node} (h : check tree = .ok concerns) :
    concerns = tree.components.flatMap (Component.concerns (declaredIds tree.components)) := by
  simp only [check] at h
  split at h
  · cases h
  · split at h
    · cases h
    · exact (Except.ok.inj h).symm

theorem parses_of_expressionConcerns (ids : List String) (component : String) {source : String}
    (h : ∀ problem, .malformedExpression component source problem ∉
      expressionConcerns ids component source) : Parses source := by
  cases hp : Expression.parse source with
  | ok e => exact ⟨e, hp⟩
  | error problem => exact absurd (by simp [expressionConcerns, hp]) (h problem)

/-- A layout without malformed expressions has expressions only. -/
theorem parses_of_check {tree : Node} (h : check tree = .ok concerns)
    (hm : ∀ component source problem, .malformedExpression component source problem ∉ concerns)
    {c : Component} (hc : c ∈ tree.components) : ∀ source ∈ c.expressions, Parses source := by
  intro source hs
  refine parses_of_expressionConcerns (declaredIds tree.components) c.name fun problem hp =>
    hm c.name source problem ?_
  rw [concerns_of_check h]
  exact List.mem_flatMap.mpr ⟨c, hc, List.mem_append_left _ (List.mem_flatMap.mpr ⟨source, hs, hp⟩)⟩

theorem run_rowsMethod : Expression.Run Expression.isNameChar "getSelectedRowsData".toList :=
  ⟨by simp, List.all_eq_true.mp (by decide)⟩

theorem trim_selectionText {cascade : Cascade} (hs : cascade.selection = none) :
    Text.trim cascade.selectionText.toList =
      '$' :: (cascade.parent.toList ++ '.' :: ("getSelectedRowsData".toList ++ ['(', ')'])) := by
  have ht : cascade.selectionText.toList = '$' ::
      ((cascade.parent.toList ++ '.' :: ("getSelectedRowsData".toList ++ ['('])) ++ [')']) := by
    simp [Cascade.selectionText, hs]
  rw [ht, Text.trim_of_solid (by decide) (by decide) _ (by simp)]
  simp

/-- The selection of a parent can be asked for if the id of the parent is a
name. -/
theorem parses_selectionText {cascade : Cascade} (hs : cascade.selection = none)
    (hp : Expression.Run Expression.isIdChar cascade.parent.toList) :
    Parses cascade.selectionText := by
  have hn := Expression.blanks_nil
  have hd := Expression.Derives.call hp (.mk run_rowsMethod hn (.none hn) hn)
  have ht := trim_selectionText hs
  simp only [List.nil_append] at hd
  rw [← ht] at hd
  exact ⟨_, Expression.parse_of_derives hd⟩

end Layout

namespace Live

open Layout (Component Node)

/-- Shows another layout, or tries to. -/
def Operation.isRender : Operation → Bool
  | .render .. => true
  | _ => false

namespace Renderer

/-- All texts that are kept to be evaluated later are expressions. -/
structure Readable {W : Type} (r : Renderer W) : Prop where
  arguments : ∀ b ∈ r.bindings, ∀ a ∈ b.binding.args, ∀ source,
    a.2.expression? = some source → Parses source
  requests : ∀ p ∈ r.sources, p.2.Readable
  selections : ∀ p ∈ r.subscriptions, Parses p.2.selectionText

/-- One renderer goes on as another: nothing that is no expression was
evaluated in between, and nothing of the kind is kept. -/
structure ReadsOn {W : Type} (r r' : Renderer W) : Prop where
  said : Extends Effect.Readable r.stage r'.stage
  readable : r'.Readable

theorem ReadsOn.trans {W : Type} {r r' r'' : Renderer W} (h : ReadsOn r r') (h' : ReadsOn r' r'') :
    ReadsOn r r'' := ⟨h.said.trans h'.said, h'.readable⟩

section
variable {W : Type} {r : Renderer W}

theorem Readable.reads (h : r.Readable) : ReadsOn r r := ⟨.refl _, h⟩

theorem readable_iff : r.Readable ↔ ∀ source, r.Holds source → Parses source where
  mp h source hs := by
    cases hs with
    | argument hb ha hs => exact h.arguments _ hb _ ha source hs
    | request hp hs => exact h.requests _ hp source hs
    | selection hp hs => exact hs ▸ h.selections _ hp
  mpr h :=
    ⟨fun _ hb _ ha source hs => h source (.argument hb ha hs),
      fun _ hp source hs => h source (.request hp hs), fun _ hp => h _ (.selection hp rfl)⟩

theorem Readable.plays (h : r.Readable) (he : r.Plays e) : e.Readable := by
  cases he with
  | evaluates he => exact he.readable (readable_iff.mp h)
  | called | pushed | submitted => trivial

-- ---------------------------------------------------------------------------
-- Taking down
-- ---------------------------------------------------------------------------

/-- Nothing is evaluated when nodes are forgotten. -/
theorem Readable.forget (h : r.Readable) (key : NodeKey) : (forget r key).Readable :=
  ⟨fun b hb => h.arguments b (List.mem_filter.mp hb).1,
    fun p hp => h.requests p (List.mem_filter.mp hp).1,
    fun p hp => h.selections p (List.mem_filter.mp hp).1⟩

theorem Readable.unmountKey (h : r.Readable) (key : NodeKey) :
    ReadsOn r (unmountKey key r).2 := by
  rw [unmountKey_run]
  cases hm : KeyMap.get? r.mounted key with
  | none => exact h.reads
  | some m =>
    have hf := h.forget key
    exact ⟨.refl _, hf.arguments, hf.requests, hf.selections⟩

theorem Readable.unmount (h : r.Readable) (id : String) : ReadsOn r (unmount id r).2 := by
  simp only [Renderer.unmount, run_bind, run_get]
  cases Directory.keyOf? r.directory id with
  | none => exact h.reads
  | some key => exact h.unmountKey key

theorem Readable.teardown (h : r.Readable) : ReadsOn r (teardown r).2 := by
  have hf : ∀ keys : List NodeKey, (keys.foldl Renderer.forget r).Readable ∧
      (keys.foldl Renderer.forget r).stage = r.stage := by
    intro keys
    rw [foldl_forget]
    exact ⟨⟨fun b hb => h.arguments b (List.mem_filter.mp hb).1,
      fun p hp => h.requests p (List.mem_filter.mp hp).1,
      fun p hp => h.selections p (List.mem_filter.mp hp).1⟩, rfl⟩
  obtain ⟨hr, hs⟩ := hf (KeyMap.keys r.mounted)
  exact ⟨.of_eq (congrArg Stage.journal hs), fun _ hb => (nomatch hb), hr.requests,
    fun _ hp => (nomatch hp)⟩

-- ---------------------------------------------------------------------------
-- Showing
-- ---------------------------------------------------------------------------

theorem readable_newSource {x : Exhibit} (hx : x.component.Readable) : x.newSource.Readable := by
  intro source hs
  exact hx.written source (List.mem_append_left _ (List.mem_append_right _ hs))

theorem Shows.readable (h : Shows xs r) (hx : ∀ x ∈ xs, x.component.Readable) : r.Readable :=
  readable_iff.mpr fun _ hs =>
    have ⟨x, hm, ha⟩ := h.holds hs
    (hx x hm).asks ha

end

variable {W : Type} [Widget W] {r : Renderer W}

theorem Readable.goesOn (h : r.Readable) (hg : GoesOn r r') : ReadsOn r r' :=
  ⟨hg.said.mono fun _ => h.plays,
    readable_iff.mpr fun source hs => readable_iff.mp h source (hg.holds hs)⟩

/-- Whatever was shown before, a layout of expressions only is shown without
meeting any other text. -/
theorem Shows.render_reads (h : Shows xs r) {tree : Node} (handlers : Handlers)
    (hc : Layout.check tree = .ok concerns) (ht : ∀ c ∈ tree.components, c.Readable) :
    ReadsOn r (render tree handlers r).2 := by
  obtain ⟨ys, scene, -, -, hi, hp⟩ := h.render_introduces handlers hc
  have hy : ∀ y ∈ ys, y.component.Readable := by
    intro y hy
    have hm := List.mem_map_of_mem (f := (·.component)) hy
    rw [hp.components] at hm
    refine ht _ ?_
    simpa [Node.componentsAll] using (List.mem_filter.mp hm).1
  refine ⟨hi.said.mono fun e he => ?_, hi.shows.readable hy⟩
  cases he with
  | aside he => exact Effect.readable_of_isAside he
  | loads hx he =>
    subst hx
    exact he.readable (readable_newSource (hy _ (by simp)))

-- ---------------------------------------------------------------------------
-- All operations
-- ---------------------------------------------------------------------------

theorem Readable.after (h : r.Readable) {op : Operation} (ho : op.isRender = false) :
    ReadsOn r (r.after op) := by
  cases op with
  | render => cases ho
  | teardown => exact h.teardown
  | unmount id => exact h.unmount id
  | unmountKey key => exact h.unmountKey key
  | occupy | fire | fireKey | refresh | refreshKey | complete | pump =>
    exact h.goesOn (goesOn_after rfl r)

theorem Readable.afterAll (h : r.Readable) {ops : List Operation}
    (ho : ∀ op ∈ ops, op.isRender = false) : ReadsOn r (r.afterAll ops) := by
  induction ops generalizing r with
  | nil => exact h.reads
  | cons op ops ih =>
    obtain ⟨h1, h2⟩ := List.forall_mem_cons.mp ho
    exact (h.after h1).trans (ih (h.after h1).readable h2)

/-- No text that is no expression is evaluated, in any run that shows a layout
whose check finds no malformed expression and whose parents have names for ids
where their selection is not written, and in which no other layout is shown. -/
theorem evaluations_parse {library : Library W} {options : Options} {r : Renderer W}
    (hr : Reachable library options r) {tree : Node} {concerns : List Layout.Concern}
    (hc : Layout.check tree = .ok concerns)
    (hm : ∀ component source problem,
      .malformedExpression component source problem ∉ concerns)
    (hp : ∀ c ∈ tree.components, ∀ cascade, c.cascade = some cascade → cascade.selection = none →
      Expression.Run Expression.isIdChar cascade.parent.toList)
    (handlers : Handlers) {ops : List Operation} (ho : ∀ op ∈ ops, op.isRender = false) :
    Extends Effect.Readable r.stage ((r.after (.render tree handlers)).afterAll ops).stage := by
  obtain ⟨before, rfl⟩ := reachable_iff.mp hr
  obtain ⟨⟨xs, hx⟩, -⟩ := (sane_new library options).afterAll before
  have ht : ∀ c ∈ tree.components, c.Readable := by
    intro c hmem
    refine ⟨Layout.parses_of_check hc hm hmem, fun cascade hcas => ?_⟩
    cases hs : cascade.selection with
    | none => exact Layout.parses_selectionText hs (hp c hmem cascade hcas hs)
    | some source =>
      rw [Layout.Cascade.selectionText, hs]
      refine Layout.parses_of_check hc hm hmem source (List.mem_append_right _ ?_)
      simp [hcas, hs]
  have hf := hx.render_reads handlers hc ht
  exact (hf.trans (hf.readable.afterAll ho)).said

-- ---------------------------------------------------------------------------
-- A parent and a child
-- ---------------------------------------------------------------------------

open Rehearsal (StandIn)

def parentAndChild : Library StandIn :=
  [("Grid", StandIn.make "Grid"), ("Form", StandIn.make "Form")]

/-- A form that follows a grid, without saying what is selected in it. -/
def followed (id : String) : Node :=
  .container ⟨.vertical, none, [], []⟩
    [.component { Component.plain "Grid" with id := some id },
      .component { Component.plain "Form" with
        cascade := some ⟨id, "select", "/rows/{id}", "id", none⟩ }]

/-- The selection of the grid is asked for, as the event does not carry a key. -/
theorem evaluations_parse_followed :
    Layout.check (followed "grid") = .ok [] ∧
      Extends Effect.Readable (new parentAndChild .default).stage
        (((new parentAndChild .default).after (.render (followed "grid") [])).afterAll
          [.fire "grid" "select" (.object []), .refresh "grid", .pump]).stage := by
  have hc : Layout.check (followed "grid") = .ok [] := by cbv
  refine ⟨hc, evaluations_parse .new hc (by simp) ?_ [] (by decide)⟩
  intro c hm cascade hcas _
  simp only [followed, Node.components, Node.componentsAll, List.append_nil, List.singleton_append,
    List.mem_cons, List.not_mem_nil, or_false] at hm
  rcases hm with rfl | rfl
  · simp [Component.plain] at hcas
  · obtain rfl := Option.some.inj hcas
    exact ⟨by simp, List.all_eq_true.mp (by decide)⟩

/-- Says that an expression was none. -/
def isMalformed : Effect → Bool
  | .warned (.malformed _) => true
  | _ => false

/-- An id that is no name makes the selection that is asked for no expression,
and no concern says so. -/
theorem unnamed_parent_malformed :
    Layout.check (followed "my grid") = .ok [] ∧
      ¬Extends Effect.Readable (new parentAndChild .default).stage
        (((new parentAndChild .default).after (.render (followed "my grid") [])).afterAll
          [.fire "my grid" "select" (.object [])]).stage := by
  have hc : Layout.check (followed "my grid") = .ok [] := by cbv
  refine ⟨hc, ?_⟩
  rintro ⟨said, hs, hr⟩
  have hm : (((new parentAndChild .default).after (.render (followed "my grid") [])).afterAll
      [.fire "my grid" "select" (.object [])]).stage.journal.any isMalformed = true := by cbv
  obtain ⟨e, he, hw⟩ := List.any_eq_true.mp hm
  rw [hs] at he
  have hread : e.Readable := hr e (by simpa [new, Stage.empty] using he)
  unfold isMalformed at hw
  split at hw
  · exact hread
  · cases hw

end Renderer

end Live

end LiveLayout
