import LiveLayout.Proofs.Stirring

/-!
# Showing a layout

Mounting a tree comes down to mounting its components in document order. Each
that is in the library becomes the next exhibit; where ids differ none is
refused. A render that is not rejected starts from a bare renderer, so what it
shows is what it mounts.
-/

namespace LiveLayout.Live

open Layout (Node Component Usable)

section
variable {W : Type}

def Stage.withWidget (s : Stage W) (w : W) : Stage W := { s with widgets := s.widgets ++ [w] }

/-- Components that are in a library, with the keys they get when `next` is the
next one. -/
def assigned (library : Library W) : Nat → List Component → KeyMap Component
  | _, [] => []
  | next, c :: rest =>
    match Fields.get? library c.name with
    | none => assigned library next rest
    | some _ => (⟨next⟩, c) :: assigned library (next + 1) rest

end

namespace Exhibit

/-- Which node an exhibit is, and of which component. -/
def declared (x : Exhibit) : NodeKey × Component := (x.key, x.component)

end Exhibit

namespace Renderer

section
variable {W : Type}

/-- What becomes of a renderer that mounts one exhibit. -/
inductive Mounts (r : Renderer W) (x : Exhibit) : Renderer W → Prop
  | plain {stage : Stage W} (hs : x.component.hasSource = false)
      (ht : stage.traffic = r.stage.traffic) : Mounts r x (withExhibit x r.sources stage r)
  | loading {stage : Stage W} (hs : x.component.hasSource = true)
      (hl : x.newSource.Loads r.stage.traffic src stage.traffic) :
      Mounts r x (withExhibit x (KeyMap.insert r.sources x.key src) stage r)

/-- What becomes of a renderer that mounts some exhibits in turn, with talk in
between. -/
inductive MountsAll : Renderer W → List Exhibit → Renderer W → Prop
  | none : MountsAll r [] r
  | talk {stage : Stage W} (ht : stage.traffic = r.stage.traffic)
      (hr : MountsAll { r with stage } xs r') : MountsAll r xs r'
  | mount (hk : x.key = ⟨r.nextKey⟩) (hm : Mounts r x r') (hr : MountsAll r' xs r'') :
      MountsAll r (x :: xs) r''

variable {r r' : Renderer W}

theorem Mounts.shows (h : Shows xs r) (hk : x.key = ⟨r.nextKey⟩)
    (hu : Usable ((xs ++ [x]).map (·.component))) (hm : Mounts r x r') : Shows (xs ++ [x]) r' := by
  cases hm with
  | plain hs => exact h.withExhibit hk hu (by simp [Exhibit.source?, hs])
  | @loading src stage hs hl =>
    refine h.withExhibit hk hu ?_
    have hi := KeyMap.insert_append r.sources x.key src fun p hp => by
      obtain ⟨y, hy, hyk, -⟩ := h.exhibit_of_mem_source hp
      exact hyk ▸ hk ▸ h.fresh y hy
    have ho : src.origin = x.newSource := hl.origin
    simp [hi, Exhibit.source?, hs, fixedPart, ho]

theorem Mounts.rest (hm : Mounts r x r') :
    r'.nextKey = r.nextKey + 1 ∧ r'.library = r.library := by
  cases hm <;> exact ⟨rfl, rfl⟩

end

variable {W : Type} [Widget W]

/-- The exhibit that a component becomes. -/
def introduced (r : Renderer W) (c : Component) (make : Fields Json → W) : Exhibit :=
  ⟨c, ⟨⟨r.nextKey⟩, ⟨r.stage.widgets.length⟩, Widget.capabilities (make c.propsJson)⟩⟩

-- ---------------------------------------------------------------------------
-- One component
-- ---------------------------------------------------------------------------

theorem mountComponent_unknown {r : Renderer W} (hm : Fields.get? r.library c.name = none) :
    mountComponent c r =
      (none, { r with stage := (Act.warn (.unknownComponent c.name) r.stage).2 }) := by
  simp only [mountComponent, run_bind, run_get, hm]
  rfl

theorem register_free {r : Renderer W} (key : NodeKey) (handle : Handle) (w : W)
    (hf : ∀ id, c.id = some id → Fields.get? r.directory id = none) :
    register c key handle w r = (.ok (), { r with
      directory := r.directory ++
        (c.id.map (·, ⟨key, handle, Widget.capabilities w⟩)).toList }) := by
  unfold register
  cases hi : c.id with
  | none => simp
  | some id => simp [Directory.register, hf id hi]

/-- A component whose id is free is mounted. -/
theorem mountComponent_known {r : Renderer W} (hm : Fields.get? r.library c.name = some make)
    (hf : ∀ id, c.id = some id → Fields.get? r.directory id = none) :
    mountComponent c r =
      let x := r.introduced c make
      let stage := r.stage.withWidget (make c.propsJson)
      let src := x.newSource.mount ⟨r.directory ++ x.registered?.toList, r.options⟩ stage
      (some (.widget x.widget),
        if c.hasSource then withExhibit x (KeyMap.insert r.sources x.key src.1) src.2 r
        else withExhibit x r.sources stage r) := by
  have hr := register_free (c := c)
    (r := { r with
      nextKey := r.nextKey + 1, stage := r.stage.withWidget (make c.propsJson) })
    ⟨r.nextKey⟩ ⟨r.stage.widgets.length⟩ (make c.propsJson) hf
  simp only [Stage.withWidget] at hr
  simp only [mountComponent, run_bind, run_get, hm]
  simp only [onStage, Act.add, freshKey, run_bind, run_get, run_set, run_pure, hr]
  by_cases hs : c.hasSource = true
  · simp only [mountSource, if_pos hs]
    rfl
  · simp only [mountSource, if_neg hs]
    rfl

theorem mountComponent_mounts {r : Renderer W} (hm : Fields.get? r.library c.name = some make)
    (hf : ∀ id, c.id = some id → Fields.get? r.directory id = none) :
    Mounts r (r.introduced c make) (mountComponent c r).2 := by
  rw [mountComponent_known hm hf]
  dsimp only
  have hl := Source.mount_loads (r.introduced c make).newSource
    ⟨r.directory ++ (r.introduced c make).registered?.toList, r.options⟩
    (r.stage.withWidget (make c.propsJson))
  split
  · next hs => exact .loading hs hl
  · next hs => exact .plain (Bool.eq_false_iff.mpr hs) rfl

-- ---------------------------------------------------------------------------
-- All components
-- ---------------------------------------------------------------------------

/-- Mounts components one after the other. -/
def mountEach : List Component → Run W (List SceneNode)
  | [] => pure []
  | c :: rest => do
    let shown ← mountComponent c
    let more ← mountEach rest
    pure (shown.toList ++ more)

theorem mountEach_cons (c : Component) (rest : List Component) (r : Renderer W) :
    mountEach (c :: rest) r =
      ((mountComponent c r).1.toList ++ (mountEach rest (mountComponent c r).2).1,
        (mountEach rest (mountComponent c r).2).2) := rfl

theorem mountEach_append (cs ds : List Component) (r : Renderer W) :
    mountEach (cs ++ ds) r =
      ((mountEach cs r).1 ++ (mountEach ds (mountEach cs r).2).1,
        (mountEach ds (mountEach cs r).2).2) := by
  induction cs generalizing r with
  | nil => rfl
  | cons c rest ih => simp only [List.cons_append, mountEach_cons, ih, List.append_assoc]

mutual
/-- Mounting a tree mounts its components, and shows their widgets. -/
theorem mountNode_eq (n : Node) (r : Renderer W) :
    (mountNode n r).2 = (mountEach n.components r).2 ∧
      Scene.widgets (mountNode n r).1 = SceneNode.widgetsAll (mountEach n.components r).1 := by
  cases n with
  | container frame children =>
    simp only [mountNode, run_bind, run_pure, Node.components]
    exact mountAll_eq children r
  | component c =>
    refine ⟨rfl, ?_⟩
    simp only [mountNode, Node.components, mountEach_cons, mountEach, run_pure]
    cases (mountComponent c r).1 <;> simp [Scene.widgets, SceneNode.widgetsAll]
theorem mountAll_eq (ns : List Node) (r : Renderer W) :
    (mountAll ns r).2 = (mountEach (Node.componentsAll ns) r).2 ∧
      SceneNode.widgetsAll (mountAll ns r).1 =
        SceneNode.widgetsAll (mountEach (Node.componentsAll ns) r).1 := by
  cases ns with
  | nil => exact ⟨rfl, rfl⟩
  | cons n rest =>
    obtain ⟨h2, h1⟩ := mountNode_eq n r
    obtain ⟨hr2, hr1⟩ := mountAll_eq rest (mountNode n r).2
    simp only [mountAll, run_bind, run_pure, Node.componentsAll, mountEach_append]
    refine ⟨by rw [hr2, h2], ?_⟩
    rw [SceneNode.widgetsAll_append, SceneNode.widgetsAll_append, hr1, ← h1, h2]
    congr 1
    cases (mountNode n r).1 <;> simp [Scene.widgets, SceneNode.widgetsAll]
end

omit [Widget W] in
/-- Where ids differ, the id of the next component is not taken. -/
theorem Shows.free {r : Renderer W} (h : Shows xs r)
    (hu : Usable (xs.map (·.component) ++ c :: rest)) :
    ∀ id, c.id = some id → Fields.get? r.directory id = none := by
  intro id hi
  refine Fields.get?_eq_none.mpr fun hd => ?_
  rw [h.directory] at hd
  obtain ⟨⟨_, entry⟩, hp, rfl⟩ := List.mem_map.mp hd
  obtain ⟨y, hy, hyp⟩ := List.mem_filterMap.mp hp
  obtain ⟨other, ho, he⟩ := Option.map_eq_some_iff.mp hyp
  obtain ⟨rfl, -⟩ := Prod.mk.inj he
  have hn := hu.ids
  rw [Layout.declaredIds, List.filterMap_append, List.nodup_append] at hn
  refine hn.2.2 other (List.mem_filterMap.mpr ⟨_, List.mem_map_of_mem hy, ho⟩) other ?_ rfl
  exact List.mem_filterMap.mpr ⟨c, List.mem_cons_self, hi⟩

/-- Components with different ids all find their place: those in the library
become exhibits, in the order in which they come. -/
theorem mountEach_mounts {r : Renderer W} (h : Shows xs r)
    (hu : Usable (xs.map (·.component) ++ cs)) :
    ∃ ys, MountsAll r ys (mountEach cs r).2 ∧ Shows (xs ++ ys) (mountEach cs r).2 ∧
      SceneNode.widgetsAll (mountEach cs r).1 = ys.map Exhibit.widget ∧
      ys.map Exhibit.declared = assigned r.library r.nextKey cs := by
  induction cs generalizing xs r with
  | nil => exact ⟨[], .none, by rw [List.append_nil]; exact h, rfl, rfl⟩
  | cons c rest ih =>
    rw [mountEach_cons]
    have hs : (xs.map (·.component) ++ rest).Sublist (xs.map (·.component) ++ c :: rest) :=
      (List.sublist_cons_self c rest).append_left _
    cases hm : Fields.get? r.library c.name with
    | none =>
      rw [mountComponent_unknown hm]
      obtain ⟨ys, hys, hsh, hw, ha⟩ := ih (h.of_fixedPart rfl _) (hu.sublist hs)
      refine ⟨ys, .talk ((Talk.warn _).traffic _) hys, hsh, hw, ?_⟩
      rw [ha, assigned, hm]
    | some make =>
      have hf := h.free hu
      have hx := mountComponent_mounts hm hf
      have hk : (r.introduced c make).key = ⟨r.nextKey⟩ := rfl
      have hu' : Usable ((xs ++ [r.introduced c make]).map (·.component) ++ rest) := by
        simpa [introduced] using hu
      obtain ⟨ys, hys, hsh, hw, ha⟩ := ih
        (hx.shows h hk (hu'.sublist (List.sublist_append_left ..))) hu'
      refine ⟨r.introduced c make :: ys, .mount hk hx hys, by simpa using hsh, ?_, ?_⟩
      · have hw1 : (mountComponent c r).1 = some (.widget (r.introduced c make).widget) := by
          rw [mountComponent_known hm hf]
        rw [hw1]
        simp [SceneNode.widgetsAll, SceneNode.widgets, hw]
      · obtain ⟨h1, h2⟩ := hx.rest
        rw [List.map_cons, ha, assigned, hm, h1, h2]
        rfl

-- ---------------------------------------------------------------------------
-- Rendering
-- ---------------------------------------------------------------------------

/-- The stage once the concerns about a layout were told. -/
def toldConcerns (concerns : List Layout.Concern) (s : Stage W) : Stage W :=
  ((concerns.forM fun c => Act.warn (.concern c)) s).2

omit [Widget W] in
theorem forM_warn_run (concerns : List Layout.Concern) (r : Renderer W) :
    (concerns.forM fun c => warn (.concern c)) r =
      ((), { r with stage := toldConcerns concerns r.stage }) := by
  unfold toldConcerns
  induction concerns generalizing r with
  | nil => rfl
  | cons c rest ih =>
    show (rest.forM fun c => warn (.concern c)) (warn (.concern c) r).2 = _
    rw [ih]
    rfl

theorem toldConcerns_talk (concerns : List Layout.Concern) :
    Talk (concerns.forM fun c => Act.warn (.concern c) : Act W Unit) := by
  induction concerns with
  | nil => exact .pure ()
  | cons c rest ih => exact .bind (.warn _) fun _ => ih

theorem toldConcerns_traffic (concerns : List Layout.Concern) (s : Stage W) :
    (toldConcerns concerns s).traffic = s.traffic := (toldConcerns_talk concerns).traffic s

/-- What a layout that is usable is mounted on. -/
def ground (handlers : Handlers) (concerns : List Layout.Concern) (r : Renderer W) : Renderer W :=
  { bare r with handlers, stage := toldConcerns concerns r.stage }

/-- The renderer once a tree was mounted on it. -/
def presented (scene : Scene) (r : Renderer W) : Renderer W :=
  { r with
    tree := scene
    stage := (Act.record (.summed (summary r)) r.stage).2 }

theorem render_rejected {tree : Node} {r : Renderer W} (handlers : Handlers)
    (hc : Layout.check tree = .error rejection) :
    render tree handlers r = (.error rejection, r) := by
  simp only [render, hc]
  rfl

theorem Shows.render_accepted {r : Renderer W} {tree : Node} (h : Shows xs r) (handlers : Handlers)
    (hc : Layout.check tree = .ok concerns) :
    (render tree handlers r).2 =
      presented (mountNode tree (ground handlers concerns r)).1
        (mountNode tree (ground handlers concerns r)).2 := by
  have ht := (h.of_fixedPart rfl (toldConcerns concerns r.stage)).teardown_run
  simp only [render, hc, run_bind, forM_warn_run, ht, run_modify]
  rfl

theorem Shows.render_shown {r : Renderer W} {tree : Node} (h : Shows xs r) (handlers : Handlers)
    (hc : Layout.check tree = .ok concerns) :
    (render tree handlers r).1 = .ok (mountNode tree (ground handlers concerns r)).1 := by
  have ht := (h.of_fixedPart rfl (toldConcerns concerns r.stage)).teardown_run
  simp only [render, hc, run_bind, forM_warn_run, ht, run_modify]
  rfl

/-- What is shown after a render that is not rejected is what it mounted. -/
theorem Shows.render_mounts {r : Renderer W} {tree : Node} (h : Shows xs r) (handlers : Handlers)
    (hc : Layout.check tree = .ok concerns) :
    ∃ ys r' scene, (render tree handlers r).2 = presented scene r' ∧
      MountsAll (ground handlers concerns r) ys r' ∧ Shows ys r' ∧
      Scene.widgets scene = ys.map Exhibit.widget ∧
      ys.map Exhibit.declared = assigned r.library r.nextKey tree.components := by
  have hg : Shows [] (ground handlers concerns r) := { shows_bare r with }
  obtain ⟨ys, hys, hsh, hw, ha⟩ := mountEach_mounts hg (Layout.check_ok hc)
  obtain ⟨h2, h1⟩ := mountNode_eq tree (ground handlers concerns r)
  refine ⟨ys, _, _, h.render_accepted handlers hc, ?_, ?_, h1.trans hw, ha⟩
  · rw [h2]
    exact hys
  · rw [h2]
    exact hsh

end Renderer

end LiveLayout.Live
