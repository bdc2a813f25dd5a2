import Mathlib.Data.List.Nodup
import LiveLayout.Proofs.Introducing
import LiveLayout.Proofs.Settling

/-!
# A layout is shown as a whole or not at all

A layout that is rejected leaves everything as it was. Any other is shown as it
stands: all its containers, with what they are arranged by, and in them the
widgets of the components that the library knows, each of which was made for
this layout, of the props of its component. No widget is refused for its id.
-/

namespace LiveLayout.Live

open Layout (Node Component)

variable {W : Type} [Widget W]

/-- A widget of the scene stands for a component: it is described alike, and its
instance, which was not there before, was made of the props of the component. -/
structure Portrays (library : Library W) (before after : Stage W) (c : Component)
    (w : SceneWidget) : Prop where
  id : w.id = c.id
  component : w.component = c.name
  style : w.style = c.style
  classes : w.classes = c.classes
  unused : before.widgets.length ≤ w.handle.index
  made : ∃ make v, Fields.get? library c.name = some make ∧
    after.widget? w.handle = some v ∧
    Becomes (make (c.props.map fun p => (p.1, p.2.toJson))) v

/-- No widget was refused for its id. -/
def Effect.Admits : Effect → Prop
  | .warned (.notRegistered ..) => False
  | _ => True

theorem Greets.admits (h : Greets xs e) : e.Admits := by
  have ha : ∀ {e : Effect}, e.isAside = true → e.Admits := by
    intro e he
    unfold Effect.Admits
    split
    · cases he
    · trivial
  cases h with
  | aside he => exact ha he
  | loads _ he =>
    cases he with
    | evaluates he =>
      cases he with
      | aside he => exact ha he
      | evaluated | malformed | notMounted | invoked => trivial
    | pushed | submitted => trivial

omit [Widget W] in
theorem Presents.pictures {library : Library W} {tree : Node} {scene : Scene}
    (h : Presents library [tree] ys scene.toList) :
    Option.Rel (Pictures (Displays ys)) (tree.keep library.knows) scene := by
  have hp : List.Forall₂ (Pictures (Displays ys)) (tree.keep library.knows).toList
      scene.toList := by simpa [Node.keepAll] using h.pictured
  cases hk : tree.keep library.knows with
  | none =>
    rw [hk] at hp
    cases scene with
    | none => exact .none
    | some s => cases hp
  | some n =>
    rw [hk] at hp
    cases scene with
    | none => cases hp
    | some s =>
      obtain ⟨hn, -⟩ := List.forall₂_cons.mp hp
      exact .some hn

theorem option_rel_mono {P Q : α → β → Prop} (h : ∀ a b, P a b → Q a b) {a : Option α}
    {b : Option β} (hr : Option.Rel P a b) : Option.Rel Q a b := by
  cases hr with
  | none => exact .none
  | some hp => exact .some (h _ _ hp)

namespace Renderer

variable {r r' : Renderer W}

theorem Introduces.portrays (h : Introduces xs ys r r') (hd : Displays ys c w) :
    Portrays r.library r.stage r'.stage c w := by
  obtain ⟨y, hy, rfl, rfl⟩ := hd
  exact ⟨rfl, rfl, rfl, rfl, h.index hy, h.made y hy⟩

/-- No two exhibits share an instance. -/
theorem Introduces.nodup_handles (h : Introduces xs ys r r') :
    (ys.map (·.entry.handle)).Nodup := by
  refine List.Nodup.of_map (·.index) ?_
  rw [List.map_map]
  exact h.handles ▸ List.nodup_range'

/-- Showing a layout is all or nothing. If the layout is rejected nothing at all
changes. Otherwise the scene is a picture of the layout without the components
that are not known: containers stand where they stood, with their orientation,
style, classes and arrangement, and components as widgets that portray them,
each by an instance of its own, for which nothing else was made. No component
is refused for its id. -/
theorem render_pictures (library : Library W) (options : Options) (ops : List Operation)
    (tree : Node) (handlers : Handlers) :
    let r := (new library options).afterAll ops
    match Layout.check tree with
    | .error rejection => render tree handlers r = (.error rejection, r)
    | .ok _ => ∃ scene r', render tree handlers r = (.ok scene, r') ∧ r'.tree = scene ∧
        Option.Rel (Pictures (Portrays library r.stage r'.stage)) (tree.keep library.knows)
          scene ∧
        ((Scene.widgets scene).map (·.handle)).Nodup ∧
        r'.stage.widgets.length = r.stage.widgets.length + (Scene.widgets scene).length ∧
        Extends Effect.Admits r.stage r'.stage := by
  intro r
  have hr : Reachable library options r := reachable_afterAll .new ops
  obtain ⟨⟨xs, hx⟩, -⟩ := hr.sane
  have hl : r.library = library := hr.carries.library
  cases hc : Layout.check tree with
  | error rejection => exact render_rejected handlers hc
  | ok concerns =>
    obtain ⟨ys, scene, he, ht, hi, hp⟩ := hx.render_introduces handlers hc
    have hw : Scene.widgets scene = ys.map Exhibit.widget := by
      rw [← hp.widgets, Scene.widgetsAll_toList]
    have hd : ∀ n s, Pictures (Displays ys) n s →
        Pictures (Portrays library r.stage (render tree handlers r).2.stage) n s :=
      fun n s => Pictures.mono (fun c w hd => hl ▸ hi.portrays hd) n
    refine ⟨scene, _, Prod.ext he rfl, ht, ?_, ?_, ?_, hi.said.mono fun _ => Greets.admits⟩
    · rw [← hl] at hd ⊢
      exact option_rel_mono hd hp.pictures
    · rw [hw, List.map_map]
      exact hi.nodup_handles
    · rw [hw, List.length_map]
      exact hi.ages.count

end Renderer

end LiveLayout.Live
