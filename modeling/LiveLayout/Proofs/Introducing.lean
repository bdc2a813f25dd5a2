import Mathlib.Data.List.Forall2
import LiveLayout.Proofs.Ageing
import LiveLayout.Proofs.Mounting
import LiveLayout.Proofs.Saying

/-!
# Introducing a layout

What mounting a tree comes to, widget by widget: which exhibits are introduced
under which keys and handles, what their widgets were made of, and what is done
on the way. The scene is the tree itself, without the components that the
library does not know.
-/

namespace LiveLayout

namespace Layout.Node

mutual
/-- The tree without components that are not wanted. Containers all stay. -/
def keep (wanted : Component → Bool) : Node → Option Node
  | .container frame children => some (.container frame (keepAll wanted children))
  | .component c => if wanted c then some (.component c) else none
def keepAll (wanted : Component → Bool) : List Node → List Node
  | [] => []
  | n :: rest => (n.keep wanted).toList ++ keepAll wanted rest
end

end Layout.Node

namespace Live

open Layout (Node Component Frame GridTemplate Usable)

-- ---------------------------------------------------------------------------
-- Containers
-- ---------------------------------------------------------------------------

/-- The tracks on an axis of a container. Only a grid has any, namely those that
the text of its template says. -/
inductive Laid (frame : Frame) (axis : GridTemplate → Option String) : List Grid.TrackItem → Prop
  | grid (ho : frame.orientation = .grid) (ht : frame.template = some t) (ha : axis t = some text) :
      Laid frame axis (Grid.tracks text)
  | bare (h : frame.orientation = .grid → ∀ t, frame.template = some t → axis t = none) :
      Laid frame axis []

/-- What says the gap of a container: its template, or its style if the template
does not. -/
inductive SpacedBy (frame : Frame) : Json → Prop
  | template (ht : frame.template = some t) (hg : t.gap = some v) : SpacedBy frame v
  | style (ht : ∀ t, frame.template = some t → t.gap = none)
      (hg : Fields.get? frame.style "gap" = some v) : SpacedBy frame v

/-- A length is a number of pixels or is said by a text. -/
inductive Measures : Json → Grid.Length → Prop
  | pixels : Measures (.number n) (.pixels (n.toDouble.convert .single))
  | text (h : Grid.length? s.toList = some l) : Measures (.string s) l

/-- The gap of a container. What is not a length is as good as nothing. -/
inductive Spaced (frame : Frame) : Grid.Length → Prop
  | measured (hv : SpacedBy frame v) (hl : Measures v l) : Spaced frame l
  | unmeasured (h : ∀ v l, SpacedBy frame v → ¬ Measures v l) : Spaced frame (.pixels ⟨false, 0⟩)

/-- How a container arranges its children. -/
structure Arranges (frame : Frame) (a : Grid.Arrangement) : Prop where
  flow : a.flow = frame.orientation
  columns : Laid frame (·.columns) a.columns
  rows : Laid frame (·.rows) a.rows
  gap : Spaced frame a.gap

/-- A container is shown as it is described. -/
structure Framed (frame : Frame) (shown : SceneFrame) : Prop where
  orientation : shown.orientation = frame.orientation
  style : shown.style = frame.style
  classes : shown.classes = frame.classes
  arrangement : shown.arrangement = Grid.arrangement frame
  arranges : Arranges frame shown.arrangement

theorem spacedBy_iff {frame : Frame} {v : Json} :
    SpacedBy frame v ↔ Grid.gapOf frame = some v := by
  constructor
  · intro h
    cases h with
    | template ht hg => simp [Grid.gapOf, ht, hg]
    | style ht hg =>
      cases hf : frame.template with
      | none => simp [Grid.gapOf, hf, hg]
      | some t => simp [Grid.gapOf, hf, hg, ht t hf]
  · intro h
    rcases Option.or_eq_some_iff.mp h with h | ⟨ht, hg⟩
    · obtain ⟨t, ht, hg⟩ := Option.bind_eq_some_iff.mp h
      exact .template ht hg
    · exact .style (fun t hf => by simpa [hf] using ht) hg

theorem measures_iff {v : Json} {l : Grid.Length} : Measures v l ↔ Grid.lengthOf v = some l := by
  constructor
  · intro h
    cases h with
    | pixels => rfl
    | text h => exact h
  · intro h
    unfold Grid.lengthOf at h
    split at h
    · obtain rfl := Option.some.inj h
      exact .pixels
    · exact .text h
    · cases h

theorem laid_tracks (frame : Frame) (axis : GridTemplate → Option String) :
    let template := if frame.orientation = .grid then frame.template else none
    Laid frame axis (((template.bind axis).map Grid.tracks).getD []) := by
  intro template
  cases ha : template.bind axis with
  | none =>
    refine .bare fun ho t ht => ?_
    simpa [template, ho, ht] using ha
  | some text =>
    by_cases ho : frame.orientation = .grid
    · simp only [template, ho, if_true] at ha
      obtain ⟨t, ht, ha⟩ := Option.bind_eq_some_iff.mp ha
      exact .grid ho ht ha
    · simp [template, ho] at ha

theorem spaced_gap (frame : Frame) :
    Spaced frame (((Grid.gapOf frame).bind Grid.lengthOf).getD Grid.noGap) := by
  cases hl : (Grid.gapOf frame).bind Grid.lengthOf with
  | none =>
    refine .unmeasured fun v l hv hm => ?_
    have hs : (Grid.gapOf frame).bind Grid.lengthOf = some l :=
      Option.bind_eq_some_iff.mpr ⟨v, spacedBy_iff.mp hv, measures_iff.mp hm⟩
    cases hl.symm.trans hs
  | some l =>
    obtain ⟨v, hv, hm⟩ := Option.bind_eq_some_iff.mp hl
    exact .measured (spacedBy_iff.mpr hv) (measures_iff.mpr hm)

theorem framed_ofFrame (frame : Frame) : Framed frame (.ofFrame frame) where
  orientation := rfl
  style := rfl
  classes := rfl
  arrangement := rfl
  arranges := ⟨rfl, laid_tracks frame _, laid_tracks frame _, spaced_gap frame⟩

-- ---------------------------------------------------------------------------
-- Pictures
-- ---------------------------------------------------------------------------

/-- The scene of a tree: its containers, each shown as it is described, its
children in order, and for each component a widget that fits it. -/
inductive Pictures (Fits : Component → SceneWidget → Prop) : Node → SceneNode → Prop
  | container (hf : Framed frame shown) (hc : List.Forall₂ (Pictures Fits) children parts) :
      Pictures Fits (.container frame children) (.container shown parts)
  | component (hw : Fits c w) : Pictures Fits (.component c) (.widget w)

section
variable {Fits Suits : Component → SceneWidget → Prop}

mutual
theorem Pictures.mono (h : ∀ c w, Fits c w → Suits c w) (n : Node) (hp : Pictures Fits n s) :
    Pictures Suits n s := by
  cases hp with
  | container hf hc => exact .container hf (pictures_all_mono h _ hc)
  | component hw => exact .component (h _ _ hw)
theorem pictures_all_mono (h : ∀ c w, Fits c w → Suits c w) (ns : List Node)
    (hp : List.Forall₂ (Pictures Fits) ns ss) : List.Forall₂ (Pictures Suits) ns ss := by
  cases hp with
  | nil => exact .nil
  | cons hn hr => exact .cons (Pictures.mono h _ hn) (pictures_all_mono h _ hr)
end

end

def Library.knows {W : Type} (library : Library W) (c : Component) : Bool :=
  (Fields.get? library c.name).isSome

/-- The widget of one of some exhibits stands for its component. -/
def Displays (ys : List Exhibit) (c : Component) (w : SceneWidget) : Prop :=
  ∃ y ∈ ys, y.component = c ∧ y.widget = w

theorem Displays.append_left (h : Displays ys c w) (zs : List Exhibit) :
    Displays (ys ++ zs) c w := by
  obtain ⟨y, hy, he⟩ := h
  exact ⟨y, List.mem_append_left _ hy, he⟩

theorem Displays.append_right (ys : List Exhibit) (h : Displays zs c w) :
    Displays (ys ++ zs) c w := by
  obtain ⟨z, hz, he⟩ := h
  exact ⟨z, List.mem_append_right _ hz, he⟩

/-- Nodes of a layout as they are shown: a picture of those that the library
knows, with the widgets of some exhibits in document order. -/
structure Presents {W : Type} (library : Library W) (ns : List Node) (ys : List Exhibit)
    (shown : List SceneNode) : Prop where
  pictured : List.Forall₂ (Pictures (Displays ys)) (Node.keepAll library.knows ns) shown
  widgets : SceneNode.widgetsAll shown = ys.map Exhibit.widget
  components : ys.map (·.component) = (Node.componentsAll ns).filter library.knows

namespace Presents

variable {W : Type} {library : Library W}

theorem nil : Presents library [] [] [] := ⟨.nil, rfl, rfl⟩

theorem cons (h : Presents library [n] ys shown) (h' : Presents library ns zs more) :
    Presents library (n :: ns) (ys ++ zs) (shown ++ more) where
  pictured := by
    have hn : Node.keepAll library.knows (n :: ns) =
        Node.keepAll library.knows [n] ++ Node.keepAll library.knows ns := by
      simp [Node.keepAll]
    rw [hn]
    exact List.rel_append
      (pictures_all_mono (fun _ _ hw => hw.append_left zs) _ h.pictured)
      (pictures_all_mono (fun _ _ hw => hw.append_right ys) _ h'.pictured)
  widgets := by
    rw [SceneNode.widgetsAll_append, h.widgets, h'.widgets, List.map_append]
  components := by
    rw [List.map_append, h.components, h'.components, ← List.filter_append]
    simp [Node.componentsAll]

theorem container (h : Presents library children ys shown) (frame : Frame) :
    Presents library [.container frame children] ys [.container (.ofFrame frame) shown] where
  pictured := by
    simpa [Node.keepAll, Node.keep] using .container (framed_ofFrame frame) h.pictured
  widgets := by simpa [SceneNode.widgetsAll, SceneNode.widgets] using h.widgets
  components := by simpa [Node.componentsAll, Node.components] using h.components

theorem known {x : Exhibit} (h : library.knows x.component = true) :
    Presents library [.component x.component] [x] [.widget x.widget] where
  pictured := by
    have hp : Pictures (Displays [x]) (.component x.component) (.widget x.widget) :=
      .component ⟨x, List.mem_cons_self, rfl, rfl⟩
    simpa [Node.keepAll, Node.keep, h] using hp
  widgets := rfl
  components := by simp [Node.componentsAll, Node.components, h]

theorem unknown (h : library.knows c = false) : Presents library [.component c] [] [] where
  pictured := by simp [Node.keepAll, Node.keep, h]
  widgets := rfl
  components := by simp [Node.componentsAll, Node.components, h]

end Presents

/-- The directory in which exhibits are entered. -/
def entered (xs : List Exhibit) : Directory := xs.filterMap Exhibit.registered?

/-- What is done while exhibits are mounted in turn. Each finds itself and those
before it in the directory. -/
inductive Greets (xs : List Exhibit) : Effect → Prop
  | aside (he : e.isAside = true) : Greets xs e
  | loads (hx : xs = before ++ x :: after) (he : x.newSource.Works (entered (before ++ [x])) e) :
      Greets xs e

theorem Greets.append {xs : List Exhibit} (h : Greets xs e) (ys : List Exhibit) :
    Greets (xs ++ ys) e := by
  cases h with
  | aside he => exact .aside he
  | loads hx he => exact .loads (by rw [hx, List.append_assoc, List.cons_append]) he

variable {W : Type} [Widget W]

/-- The widget of an exhibit was made by the library, of the props of its
component. -/
def Exhibit.Made (library : Library W) (s : Stage W) (x : Exhibit) : Prop :=
  ∃ make w, Fields.get? library x.component.name = some make ∧
    s.widget? x.entry.handle = some w ∧ Becomes (make x.component.propsJson) w

theorem Exhibit.Made.ages {library : Library W} {s s' : Stage W} {x : Exhibit}
    (h : x.Made library s) (ha : s.Ages n s') : x.Made library s' := by
  obtain ⟨make, w, hm, hw, hb⟩ := h
  obtain ⟨w', hw', hb'⟩ := ha.becomes _ _ hw
  exact ⟨make, w', hm, hw', hb.trans hb'⟩

namespace Renderer

omit [Widget W] in
theorem Shows.entered {r : Renderer W} (h : Shows xs r) : r.directory = entered xs := h.directory

/-- What becomes of a renderer that introduces exhibits behind those that it
shows. -/
structure Introduces (xs ys : List Exhibit) (r r' : Renderer W) : Prop where
  shows : Shows (xs ++ ys) r'
  library : r'.library = r.library
  nextKey : r'.nextKey = r.nextKey + ys.length
  keys : ys.map (·.key.ordinal) = List.range' r.nextKey ys.length
  handles : ys.map (·.entry.handle.index) = List.range' r.stage.widgets.length ys.length
  made : ∀ y ∈ ys, y.Made r.library r'.stage
  ages : r.stage.Ages ys.length r'.stage
  said : Extends (Greets (xs ++ ys)) r.stage r'.stage

namespace Introduces

variable {r r' r'' : Renderer W}

theorem nothing {stage : Stage W} (h : Shows xs r) (ha : r.stage.Ages 0 stage)
    (hs : Extends (Greets xs) r.stage stage) : Introduces xs [] r { r with stage } where
  shows := by
    rw [List.append_nil]
    exact h.of_fixedPart rfl _
  library := rfl
  nextKey := rfl
  keys := rfl
  handles := rfl
  made := by simp
  ages := ha
  said := by rwa [List.append_nil]

theorem append (h : Introduces xs ys r r') (h' : Introduces (xs ++ ys) zs r' r'') :
    Introduces xs (ys ++ zs) r r'' where
  shows := by
    rw [← List.append_assoc]
    exact h'.shows
  library := h'.library.trans h.library
  nextKey := by rw [h'.nextKey, h.nextKey, List.length_append, Nat.add_assoc]
  keys := by
    rw [List.map_append, h.keys, h'.keys, h.nextKey, List.range'_append_1, List.length_append]
  handles := by
    rw [List.map_append, h.handles, h'.handles, h.ages.count, List.range'_append_1,
      List.length_append]
  made := fun y hy => by
    rcases List.mem_append.mp hy with hy | hy
    · exact (h.made y hy).ages h'.ages
    · exact h.library ▸ h'.made y hy
  ages := by
    rw [List.length_append]
    exact h.ages.trans h'.ages
  said := by
    rw [← List.append_assoc]
    exact (h.said.mono fun _ he => he.append zs).trans h'.said

theorem index (h : Introduces xs ys r r') (hy : y ∈ ys) :
    r.stage.widgets.length ≤ y.entry.handle.index := by
  have hm := List.mem_map_of_mem (f := (·.entry.handle.index)) hy
  rw [h.handles] at hm
  exact (List.mem_range'_1.mp hm).1

theorem ordinal (h : Introduces xs ys r r') (hy : y ∈ ys) : r.nextKey ≤ y.key.ordinal := by
  have hm := List.mem_map_of_mem (f := (·.key.ordinal)) hy
  rw [h.keys] at hm
  exact (List.mem_range'_1.mp hm).1

end Introduces

-- ---------------------------------------------------------------------------
-- Mounting
-- ---------------------------------------------------------------------------

omit [Widget W] in
theorem entered_append (xs : List Exhibit) (x : Exhibit) :
    entered (xs ++ [x]) = entered xs ++ x.registered?.toList := by
  unfold entered
  rw [List.filterMap_append, List.filterMap_cons]
  cases x.registered? <;> rfl

omit [Widget W] in
theorem names_entered (xs : List Exhibit) :
    Fields.names (entered xs) = Layout.declaredIds (xs.map (·.component)) := by
  rw [Fields.names, entered, Layout.declaredIds, List.map_filterMap, List.filterMap_map]
  refine congrArg (xs.filterMap ·) (funext fun x => ?_)
  cases hi : x.component.id <;> simp [Exhibit.registered?, hi]

theorem withWidget_ages (s : Stage W) (w : W) : s.Ages 1 (s.withWidget w) where
  count := by simp [Stage.withWidget]
  becomes := fun h v hv => by
    have hl := (List.getElem?_eq_some_iff.mp hv).1
    refine ⟨v, ?_, .refl⟩
    rwa [Stage.widget?, Stage.withWidget, List.getElem?_append_left hl]

variable {r : Renderer W}

theorem introduced_made (hm : Fields.get? r.library c.name = some make) :
    (r.introduced c make).Made r.library (r.stage.withWidget (make c.propsJson)) := by
  have hw : (r.stage.withWidget (make c.propsJson)).widget? ⟨r.stage.widgets.length⟩ =
      some (make c.propsJson) := by simp [Stage.widget?, Stage.withWidget]
  exact ⟨make, _, hm, hw, .refl⟩

/-- A component of the library is introduced as the next exhibit. -/
theorem mountComponent_introduces (h : Shows xs r)
    (hu : Usable (xs.map (·.component) ++ [c]))
    (hm : Fields.get? r.library c.name = some make) :
    Introduces xs [r.introduced c make] r (mountComponent c r).2 := by
  have hf := h.free hu
  have hx := mountComponent_mounts hm hf
  have hs : (r.stage.withWidget (make c.propsJson)).Ages 0 (mountComponent c r).2.stage ∧
      Extends (Greets (xs ++ [r.introduced c make])) r.stage (mountComponent c r).2.stage := by
    rw [mountComponent_known hm hf, h.entered]
    dsimp only
    rw [← entered_append]
    split
    · refine ⟨Source.mount_tends _ _ _, (Extends.of_eq rfl).trans ?_⟩
      exact (Source.mount_reports _ _ _).mono fun _ => .loads rfl
    · exact ⟨.refl _, .of_eq rfl⟩
  obtain ⟨ha, hsaid⟩ := hs
  obtain ⟨hk, hl⟩ := hx.rest
  refine ⟨hx.shows h rfl (by simpa [introduced] using hu), hl, hk, rfl, rfl, ?_,
    (withWidget_ages ..).trans ha, hsaid⟩
  intro y hy
  obtain rfl := List.mem_singleton.mp hy
  exact (introduced_made hm).ages ha

mutual
/-- Mounting a tree introduces the components that are known, and shows it
without the others. -/
theorem mountNode_introduces {r : Renderer W} (h : Shows xs r) (n : Node)
    (hu : Usable (xs.map (·.component) ++ n.components)) :
    ∃ ys, Introduces xs ys r (mountNode n r).2 ∧
      Presents r.library [n] ys (mountNode n r).1.toList := by
  cases n with
  | container frame children =>
    obtain ⟨ys, hi, hp⟩ := mountAll_introduces h children hu
    exact ⟨ys, hi, hp.container frame⟩
  | component c =>
    show ∃ ys, Introduces xs ys r (mountComponent c r).2 ∧
      Presents r.library [.component c] ys (mountComponent c r).1.toList
    cases hm : Fields.get? r.library c.name with
    | none =>
      rw [mountComponent_unknown hm]
      have hw : Tends (Act.warn (.unknownComponent c.name) : Act W Unit) := (Talk.warn _).tends
      exact ⟨[], .nothing h (hw _) (Says.warn (.aside rfl) _), .unknown (by simp [Library.knows, hm])⟩
    | some make =>
      have hw : (mountComponent c r).1 = some (.widget (r.introduced c make).widget) := by
        rw [mountComponent_known hm (h.free hu)]
      rw [hw]
      exact ⟨_, mountComponent_introduces h hu hm,
        .known (x := r.introduced c make) (by simp [Library.knows, introduced, hm])⟩
theorem mountAll_introduces {r : Renderer W} (h : Shows xs r) (ns : List Node)
    (hu : Usable (xs.map (·.component) ++ Node.componentsAll ns)) :
    ∃ ys, Introduces xs ys r (mountAll ns r).2 ∧ Presents r.library ns ys (mountAll ns r).1 := by
  cases ns with
  | nil => exact ⟨[], .nothing h (.refl _) (.refl _), .nil⟩
  | cons n rest =>
    rw [Node.componentsAll, ← List.append_assoc] at hu
    obtain ⟨ys, hi, hp⟩ := mountNode_introduces h n (hu.sublist (List.sublist_append_left ..))
    have hy : ys.map (·.component) = n.components.filter r.library.knows := by
      simpa [Node.componentsAll] using hp.components
    have hu' : Usable ((xs ++ ys).map (·.component) ++ Node.componentsAll rest) := by
      refine hu.sublist (List.Sublist.append ?_ (.refl _))
      rw [List.map_append, hy]
      exact (List.Sublist.refl _).append List.filter_sublist
    obtain ⟨zs, hi', hp'⟩ := mountAll_introduces hi.shows rest hu'
    exact ⟨ys ++ zs, hi.append hi', hp.cons (hi.library ▸ hp')⟩
end

-- ---------------------------------------------------------------------------
-- Rendering
-- ---------------------------------------------------------------------------

omit [Widget W] in
theorem toldConcerns_reports {P : Effect → Prop} (hp : ∀ c, P (.warned (.concern c)))
    (concerns : List Layout.Concern) :
    Says P (concerns.forM fun c => Act.warn (.concern c) : Act W Unit) := by
  induction concerns with
  | nil => exact .pure ()
  | cons c rest ih => exact .bind (.warn (hp c)) fun _ => ih

/-- A layout that is not rejected is introduced on a bare renderer, and shown as
it is, without what the library does not know. -/
theorem Shows.render_introduces (h : Shows xs r) {tree : Node} (handlers : Handlers)
    (hc : Layout.check tree = .ok concerns) :
    ∃ ys scene, (render tree handlers r).1 = .ok scene ∧
      (render tree handlers r).2.tree = scene ∧
      Introduces [] ys r (render tree handlers r).2 ∧
      Presents r.library [tree] ys scene.toList := by
  have hg : Shows [] (ground handlers concerns r) := { shows_bare r with }
  obtain ⟨ys, hi, hp⟩ := mountNode_introduces hg tree (Layout.check_ok hc)
  refine ⟨ys, _, h.render_shown handlers hc, ?_, ?_, hp⟩
  · rw [h.render_accepted handlers hc]
    rfl
  · rw [h.render_accepted handlers hc]
    have ht : r.stage.Ages 0 (toldConcerns concerns r.stage) := (toldConcerns_talk concerns).tends _
    have hs : Extends (Greets ys) r.stage (toldConcerns concerns r.stage) :=
      toldConcerns_reports (fun c => .aside rfl) concerns r.stage
    have hl : (ground handlers concerns r).stage.widgets.length = r.stage.widgets.length := ht.count
    have ha : r.stage.Ages (0 + ys.length) (mountNode tree (ground handlers concerns r)).2.stage :=
      ht.trans hi.ages
    rw [Nat.zero_add] at ha
    exact
      { hi with
        shows := { hi.shows with }
        handles := hi.handles.trans (by rw [hl])
        made := fun y hy => (hi.made y hy).ages (.of_eq rfl)
        ages := ⟨ha.count, ha.becomes⟩
        said := (hs.trans hi.said).trans (Says.record (.aside rfl) _) }

end Renderer

end Live

end LiveLayout
