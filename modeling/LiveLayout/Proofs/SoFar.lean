import LiveLayout.Proofs.Inquiries
import LiveLayout.Proofs.Introducing
import LiveLayout.Proofs.Opening
import LiveLayout.Proofs.Passing
import LiveLayout.Proofs.Readability

/-!
# What is there so far

While a layout is shown its components are mounted in document order, and the
source of each is mounted when its instance has just been entered. The directory
then has the instances of the known components up to this one, all of them of
this layout, and the first request is composed in it. What comes later, is left
out, or was shown before has no value in it.
-/

namespace LiveLayout.Live

open Layout (Node Component Remote Usable declaredIds)

section
variable {W : Type} [Widget W]

/-- The exhibits that the components of a library become in turn, when `next` is
the next key and `count` the next handle. -/
def lineup (library : Library W) : Nat → Nat → List Component → List Exhibit
  | _, _, [] => []
  | next, count, c :: rest =>
    match Fields.get? library c.name with
    | none => lineup library next count rest
    | some make =>
      ⟨c, ⟨⟨next⟩, ⟨count⟩, Widget.capabilities (make c.propsJson)⟩⟩ ::
        lineup library (next + 1) (count + 1) rest

end

/-- The ticket of the request that an exhibit starts with, if it follows nobody
and its records are elsewhere. -/
def Exhibit.ticket? (x : Exhibit) : Option Ticket :=
  match x.component.cascade, x.component.feed with
  | none, some (.remote _) => some ⟨x.key, 1⟩
  | _, _ => none

/-- Jobs are submitted with these tickets, one after the other. -/
def SubmitsInTurn {W : Type} (s : Stage W) (tickets : List Ticket) (s' : Stage W) : Prop :=
  ∃ jobs, s'.traffic.jobs = s.traffic.jobs ++ jobs ∧ jobs.map (·.ticket) = tickets

/-- An id that nobody has when a component is mounted: it comes later, it was
left out, or no component of the layout has it. -/
inductive Beyond {W : Type} (library : Library W) (before : List Component) (c : Component)
    (after : List Component) (target : String) : Prop
  | later (hd : d ∈ after) (hi : d.id = some target)
  | skipped (hd : d ∈ before) (hk : library.knows d = false) (hi : d.id = some target)
  | foreign (ht : target ∉ declaredIds (before ++ c :: after))

namespace Renderer

variable {W : Type} [Widget W]

/-- Makes the instance of a component and enters it. -/
def enter (c : Component) (w : W) : Run W (Except Layout.Rejection Unit) := do
  let handle ← onStage (Act.add w)
  let key ← freshKey
  register c key handle w

/-- What there is when the source of a component is mounted on a renderer `b`,
which leads to `b'`, while a layout is shown in place of what `r` shows. -/
structure SoFar (library : Library W) (r : Renderer W) (before : List Component) (c : Component)
    (after : List Component) (x : Exhibit) (b b' done : Renderer W) : Prop where
  directory : b.directory =
    entered (lineup library r.nextKey r.stage.widgets.length (before ++ [c]))
  ids : Fields.names b.directory = declaredIds ((before ++ [c]).filter library.knows)
  instances : ∀ y ∈ lineup library r.nextKey r.stage.widgets.length (before ++ [c]),
    y.Made library b.stage
  beyond : ∀ source e, Expression.parse source = .ok e → Beyond library before c after e.target →
    ∀ s : Stage W, (evaluate b.directory source s).1 = .undefined
  request : ∀ remote, c.cascade = none → c.feed = some (.remote remote) →
    b'.stage.traffic.jobs = b.stage.traffic.jobs ++
      [⟨⟨x.key, 1⟩, (compose ⟨b.directory, r.options⟩ remote remote.endpoint b.stage).1⟩]
  quiet : (c.cascade ≠ none ∨ ∀ remote, c.feed ≠ some (.remote remote)) →
    b'.stage.traffic.jobs = b.stage.traffic.jobs
  earlier : SubmitsInTurn r.stage
    ((lineup library r.nextKey r.stage.widgets.length before).filterMap Exhibit.ticket?) b.stage
  later : SubmitsInTurn b'.stage
    ((lineup library b.nextKey b.stage.widgets.length after).filterMap Exhibit.ticket?) done.stage

end Renderer

-- ---------------------------------------------------------------------------
-- Exhibits of components
-- ---------------------------------------------------------------------------

section
variable {W : Type} [Widget W] {library : Library W}

theorem lineup_unknown (hm : Fields.get? library c.name = none) (next count : Nat)
    (rest : List Component) :
    lineup library next count (c :: rest) = lineup library next count rest := by
  rw [lineup, hm]

theorem lineup_known (hm : Fields.get? library c.name = some make) (next count : Nat)
    (rest : List Component) : lineup library next count (c :: rest) =
      ⟨c, ⟨⟨next⟩, ⟨count⟩, Widget.capabilities (make c.propsJson)⟩⟩ ::
        lineup library (next + 1) (count + 1) rest := by
  rw [lineup, hm]

theorem lineup_append (library : Library W) (next count : Nat) (cs ds : List Component) :
    lineup library next count (cs ++ ds) = lineup library next count cs ++
      lineup library (next + (lineup library next count cs).length)
        (count + (lineup library next count cs).length) ds := by
  induction cs generalizing next count with
  | nil => rfl
  | cons c rest ih =>
    rw [List.cons_append]
    cases hm : Fields.get? library c.name with
    | none => rw [lineup_unknown hm, lineup_unknown hm, ih]
    | some make =>
      rw [lineup_known hm, lineup_known hm, ih, List.cons_append, List.length_cons]
      simp only [Nat.add_assoc, Nat.add_comm 1]

theorem lineup_components (library : Library W) (next count : Nat) (cs : List Component) :
    (lineup library next count cs).map (·.component) = cs.filter library.knows := by
  induction cs generalizing next count with
  | nil => rfl
  | cons c rest ih =>
    cases hm : Fields.get? library c.name with
    | none => simp [lineup_unknown hm, ih, Library.knows, hm]
    | some make => simp [lineup_known hm, ih, Library.knows, hm]

end

-- ---------------------------------------------------------------------------
-- Jobs
-- ---------------------------------------------------------------------------

section
variable {W : Type} {s s' s'' : Stage W}

theorem SubmitsInTurn.nothing (h : s'.traffic = s.traffic) : SubmitsInTurn s [] s' :=
  ⟨[], by simp [h], rfl⟩

theorem SubmitsInTurn.submit (h : s'.traffic = s.traffic.submit job) :
    SubmitsInTurn s [job.ticket] s' := ⟨[job], by rw [h]; rfl, rfl⟩

theorem SubmitsInTurn.trans (h : SubmitsInTurn s tickets s') (h' : SubmitsInTurn s' more s'') :
    SubmitsInTurn s (tickets ++ more) s'' := by
  obtain ⟨jobs, hj, rfl⟩ := h
  obtain ⟨others, ho, rfl⟩ := h'
  exact ⟨jobs ++ others, by rw [ho, hj, List.append_assoc], List.map_append⟩

end

namespace Renderer

variable {W : Type} [Widget W] {r : Renderer W}

-- ---------------------------------------------------------------------------
-- Sources
-- ---------------------------------------------------------------------------

theorem mountSource_run (c : Component) (key : NodeKey) (handle : Handle) (b : Renderer W) :
    (mountSource c key handle b).2.stage =
      if c.hasSource then
        ((Source.new key c.name c.feed c.cascade.isSome handle).mount b.context b.stage).2
      else b.stage := by
  unfold mountSource
  split <;> rfl

theorem mountSource_remote {remote : Remote} (hc : c.cascade = none)
    (hf : c.feed = some (.remote remote)) (key : NodeKey) (handle : Handle) (b : Renderer W) :
    (mountSource c key handle b).2.stage.traffic = b.stage.traffic.submit
      ⟨⟨key, 1⟩, (compose b.context remote remote.endpoint b.stage).1⟩ := by
  let src : Source := .new key c.name c.feed c.cascade.isSome handle
  have hs : c.hasSource = true := by simp [Component.hasSource, hf]
  have hcas : src.cascaded = false := by simp [src, Source.new, hc]
  have hfeed : src.feed = some (.remote remote) := hf
  have hrem : src.remote remote.endpoint = remote := by simp [Source.remote, hfeed]
  rw [mountSource_run, if_pos hs, Source.mount_remote src _ hcas hfeed]
  have ht := src.fetch_traffic b.context remote.endpoint b.stage
  rw [hrem] at ht
  exact ht

theorem mountSource_quiet (h : c.cascade ≠ none ∨ ∀ remote, c.feed ≠ some (.remote remote))
    (key : NodeKey) (handle : Handle) (b : Renderer W) :
    (mountSource c key handle b).2.stage.traffic = b.stage.traffic := by
  rw [mountSource_run]
  split
  · have hl := (Source.new key c.name c.feed c.cascade.isSome handle).mount_loads b.context b.stage
    generalize (Source.new key c.name c.feed c.cascade.isSome handle).mount b.context b.stage =
      result at hl
    obtain ⟨src, stage⟩ := result
    dsimp only at hl ⊢
    generalize stage.traffic = traffic at hl ⊢
    cases hl with
    | waits | supplies => rfl
    | fetches hc hf =>
      have hn : c.cascade = none := by simpa [Source.new] using hc
      exact absurd hf (h.resolve_left (not_not_intro hn) _)
  · rfl

-- ---------------------------------------------------------------------------
-- Entering
-- ---------------------------------------------------------------------------

section
variable {c : Component} (hf : ∀ id, c.id = some id → Fields.get? r.directory id = none)
  (make : Fields Json → W)
include hf

theorem enter_run : enter c (make c.propsJson) r = (.ok (), { r with
    nextKey := r.nextKey + 1
    stage := r.stage.withWidget (make c.propsJson)
    directory := r.directory ++ (r.introduced c make).registered?.toList }) := by
  have hr := register_free (c := c)
    (r := { r with
      nextKey := r.nextKey + 1, stage := r.stage.withWidget (make c.propsJson) })
    ⟨r.nextKey⟩ ⟨r.stage.widgets.length⟩ (make c.propsJson) hf
  exact hr

theorem enter_stage :
    (enter c (make c.propsJson) r).2.stage = r.stage.withWidget (make c.propsJson) := by
  rw [enter_run hf]

theorem enter_nextKey : (enter c (make c.propsJson) r).2.nextKey = r.nextKey + 1 := by
  rw [enter_run hf]

theorem enter_context : (enter c (make c.propsJson) r).2.context =
    ⟨(enter c (make c.propsJson) r).2.directory, r.options⟩ := by
  rw [enter_run hf]
  rfl

theorem enter_directory (h : Shows xs r) :
    (enter c (make c.propsJson) r).2.directory = entered (xs ++ [r.introduced c make]) := by
  rw [enter_run hf, entered_append, ← h.entered]

end

-- ---------------------------------------------------------------------------
-- Mounting
-- ---------------------------------------------------------------------------

/-- A component is mounted by entering its instance, mounting its source, and
noting what it follows. -/
theorem mountComponent_entered (hm : Fields.get? r.library c.name = some make)
    (hf : ∀ id, c.id = some id → Fields.get? r.directory id = none) :
    let x := r.introduced c make
    let b := (enter c (make c.propsJson) r).2
    mountComponent c r =
      (some (.widget x.widget), attach c x.key (mountSource c x.key x.entry.handle b).2) := by
  intro x b
  have hb := congrArg Prod.snd (enter_run hf make)
  rw [mountComponent_known hm hf]
  simp only [b, hb, mountSource]
  split <;> rfl

/-- Entering submits nothing, and the source that is mounted then submits what
its exhibit starts with. -/
theorem mountComponent_submits (hm : Fields.get? r.library c.name = some make)
    (hf : ∀ id, c.id = some id → Fields.get? r.directory id = none) :
    SubmitsInTurn r.stage (r.introduced c make).ticket?.toList (mountComponent c r).2.stage := by
  let b := (enter c (make c.propsJson) r).2
  have hentered : SubmitsInTurn r.stage [] b.stage := .nothing (by rw [enter_stage hf]; rfl)
  rw [mountComponent_entered hm hf, ← List.nil_append (r.introduced c make).ticket?.toList]
  refine hentered.trans ?_
  unfold Exhibit.ticket?
  split
  · next hc hr => exact .submit (mountSource_remote hc hr _ _ _)
  · next hn =>
    refine .nothing (mountSource_quiet (or_iff_not_imp_left.mpr fun hc remote hr => ?_) _ _ _)
    exact hn remote (not_not.mp hc) hr

theorem mountEach_lineup (h : Shows xs r) (hu : Usable (xs.map (·.component) ++ cs)) :
    Introduces xs (lineup r.library r.nextKey r.stage.widgets.length cs) r (mountEach cs r).2 ∧
      SubmitsInTurn r.stage
        ((lineup r.library r.nextKey r.stage.widgets.length cs).filterMap Exhibit.ticket?)
        (mountEach cs r).2.stage := by
  induction cs generalizing xs r with
  | nil => exact ⟨.nothing h (.refl _) (.refl _), .nothing rfl⟩
  | cons c rest ih =>
    rw [mountEach_cons]
    cases hm : Fields.get? r.library c.name with
    | none =>
      have hs : (xs.map (·.component) ++ rest).Sublist (xs.map (·.component) ++ c :: rest) :=
        (List.sublist_cons_self c rest).append_left _
      have hw : Tends (Act.warn (.unknownComponent c.name) : Act W Unit) := (Talk.warn _).tends
      obtain ⟨hi, hj⟩ := ih (h.of_fixedPart rfl
        (Act.warn (.unknownComponent c.name) r.stage).2) (hu.sublist hs)
      rw [mountComponent_unknown hm, lineup_unknown hm]
      have hfirst : Introduces xs [] r
          { r with stage := (Act.warn (.unknownComponent c.name) r.stage).2 } :=
        .nothing h (hw _) (Says.warn (.aside rfl) _)
      rw [← List.append_nil xs] at hi
      exact ⟨hfirst.append hi, hj⟩
    | some make =>
      have hu' : Usable ((xs ++ [r.introduced c make]).map (·.component) ++ rest) := by
        simpa [introduced] using hu
      have hone : Usable (xs.map (·.component) ++ [c]) := by
        simpa [introduced] using hu'.sublist (List.sublist_append_left ..)
      have hfirst := mountComponent_introduces h hone hm
      have hsub := mountComponent_submits hm (h.free hu)
      obtain ⟨hi, hj⟩ := ih hfirst.shows hu'
      rw [hfirst.library, hfirst.nextKey, hfirst.ages.count] at hi hj
      have hl : lineup r.library r.nextKey r.stage.widgets.length (c :: rest) =
          r.introduced c make ::
            lineup r.library (r.nextKey + 1) (r.stage.widgets.length + 1) rest := lineup_known hm ..
      rw [hl, List.filterMap_cons]
      refine ⟨hfirst.append hi, ?_⟩
      have hall := hsub.trans hj
      cases ht : (r.introduced c make).ticket? <;> simpa [ht] using hall

/-- What is behind a component is mounted after its source, and submits its jobs
after those of the source. -/
theorem Shows.rest_submits (h : Shows xs r) (hu : Usable (xs.map (·.component) ++ c :: rest))
    (hm : Fields.get? r.library c.name = some make) :
    let x := r.introduced c make
    let b := (enter c (make c.propsJson) r).2
    let b' := (mountSource c x.key x.entry.handle b).2
    SubmitsInTurn b'.stage
      ((lineup r.library b.nextKey b.stage.widgets.length rest).filterMap Exhibit.ticket?)
      (mountEach rest (attach c x.key b')).2.stage := by
  intro x b b'
  have hf := h.free hu
  have hone : Usable (xs.map (·.component) ++ [c]) :=
    hu.sublist ((List.cons_sublist_cons.mpr (List.nil_sublist rest)).append_left _)
  have hrest : Usable ((xs ++ [x]).map (·.component) ++ rest) := by
    simpa [x, introduced] using hu
  have hi := mountComponent_introduces h hone hm
  rw [mountComponent_entered hm hf] at hi
  have hs := (mountEach_lineup hi.shows hrest).2
  have hstage : b.stage = r.stage.withWidget (make c.propsJson) := enter_stage hf make
  have hw : b.stage.widgets.length = r.stage.widgets.length + 1 := by
    rw [hstage]
    exact (withWidget_ages ..).count
  rw [hi.library, hi.nextKey, hi.ages.count] at hs
  rw [enter_nextKey hf, hw]
  exact hs

-- ---------------------------------------------------------------------------
-- Ids
-- ---------------------------------------------------------------------------

omit [Widget W] in
/-- Where ids differ, nobody has an id that is beyond. -/
theorem not_declared_of_beyond {library : Library W} {before after : List Component}
    (hn : (declaredIds (before ++ c :: after)).Nodup) (h : Beyond library before c after target) :
    target ∉ declaredIds ((before ++ [c]).filter library.knows) := by
  intro ht
  obtain ⟨d, hd, hi⟩ := List.mem_filterMap.mp ht
  obtain ⟨hd, hk⟩ := List.mem_filter.mp hd
  have hall : d ∈ before ++ c :: after := by
    rw [List.append_cons]
    exact List.mem_append_left _ hd
  cases h with
  | @later e he hj =>
    rw [List.append_cons, declaredIds, List.filterMap_append, List.nodup_append] at hn
    exact hn.2.2 target (List.mem_filterMap.mpr ⟨d, hd, hi⟩) target
      (List.mem_filterMap.mpr ⟨e, he, hj⟩) rfl
  | @skipped e he hu hj =>
    obtain rfl := eq_of_nodup_filterMap hn hall (List.mem_append_left _ he) hi hj
    rw [hk] at hu
    cases hu
  | foreign hf => exact hf (List.mem_filterMap.mpr ⟨d, hall, hi⟩)

theorem evaluate_beyond {library : Library W} {before after : List Component} {d : Directory}
    (hn : (declaredIds (before ++ c :: after)).Nodup)
    (hd : Fields.names d = declaredIds ((before ++ [c]).filter library.knows))
    (hp : Expression.parse source = .ok e) (h : Beyond library before c after e.target)
    (s : Stage W) : (evaluate d source s).1 = .undefined := by
  have hg : Fields.get? d e.target = none :=
    Fields.get?_eq_none.mpr (hd ▸ not_declared_of_beyond hn h)
  obtain ⟨w, he⟩ := (evaluate_verdict d source s).of_refused (.notMounted hp hg)
  rw [he]

-- ---------------------------------------------------------------------------
-- Rendering
-- ---------------------------------------------------------------------------

/-- On the ground that a render prepares, components become the lineup that its
next key and handle begin. -/
theorem ground_lineup (r : Renderer W) (handlers : Handlers) (concerns : List Layout.Concern)
    (hu : Usable cs) :
    let reached := (mountEach cs (ground handlers concerns r)).2
    let seen := lineup r.library r.nextKey r.stage.widgets.length cs
    Introduces [] seen (ground handlers concerns r) reached ∧
      reached.nextKey = r.nextKey + seen.length ∧
      reached.stage.widgets.length = r.stage.widgets.length + seen.length ∧
      reached.options = r.options ∧
      SubmitsInTurn r.stage (seen.filterMap Exhibit.ticket?) reached.stage := by
  intro reached seen
  have hg : Shows [] (ground handlers concerns r) := { shows_bare r with }
  have hcount : (ground handlers concerns r).stage.widgets.length = r.stage.widgets.length :=
    ((toldConcerns_talk concerns).tends r.stage).count
  obtain ⟨hi, hj⟩ := mountEach_lineup hg hu
  rw [hcount] at hi hj
  have hw := hi.ages.count
  rw [hcount] at hw
  exact ⟨hi, hi.nextKey, hw, (mountEach_openings hg hu).options,
    (SubmitsInTurn.nothing (toldConcerns_traffic concerns r.stage)).trans hj⟩

/-- While a layout that is not rejected is shown in place of another, whatever
was shown before, the source of each known component is mounted on a renderer
that has just what is there so far. -/
theorem render_so_far {library : Library W} {options : Options} {r : Renderer W}
    (hr : Reachable library options r) {tree : Node} {concerns : List Layout.Concern}
    (hc : Layout.check tree = .ok concerns) (handlers : Handlers) {before after : List Component}
    {c : Component} {make : Fields Json → W} (ht : tree.components = before ++ c :: after)
    (hm : Fields.get? library c.name = some make) :
    let reached := (mountEach before (ground handlers concerns r)).2
    let x := reached.introduced c make
    let b := (enter c (make c.propsJson) reached).2
    let b' := (mountSource c x.key x.entry.handle b).2
    mountComponent c reached = (some (.widget x.widget), attach c x.key b') ∧
      (∃ scene, r.after (.render tree handlers) =
        presented scene (mountEach after (attach c x.key b')).2) ∧
      SoFar library r before c after x b b' (r.after (.render tree handlers)) := by
  intro reached x b b'
  obtain ⟨⟨zs, hz⟩, -⟩ := hr.sane
  obtain rfl := hr.carries.library
  change Fields.get? r.library c.name = some make at hm
  have hu : Usable (before ++ c :: after) := ht ▸ Layout.check_ok hc
  obtain ⟨hi, hkey, hcount, hopt, hsub⟩ :=
    ground_lineup r handlers concerns (hu.sublist (List.sublist_append_left before _))
  let seen := lineup r.library r.nextKey r.stage.widgets.length before
  have hline : lineup r.library r.nextKey r.stage.widgets.length (before ++ [c]) = seen ++ [x] := by
    rw [lineup_append, lineup_known hm, ← hkey, ← hcount]
    rfl
  -- what was reached shows the components before this one
  have hseen : Shows seen reached := hi.shows
  have hlib : reached.library = r.library := hi.library
  have hmr : Fields.get? reached.library c.name = some make := hlib ▸ hm
  have hur : Usable (seen.map (·.component) ++ c :: after) := by
    rw [lineup_components]
    exact hu.sublist (List.filter_sublist.append (.refl _))
  have hf := hseen.free hur
  have hmount := mountComponent_entered hmr hf
  have hdir : b.directory = entered (seen ++ [x]) := enter_directory hf make hseen
  have hids : Fields.names b.directory = declaredIds ((before ++ [c]).filter r.library.knows) := by
    rw [hdir, names_entered, ← hline, lineup_components]
  have hstage : b.stage = reached.stage.withWidget (make c.propsJson) := enter_stage hf make
  have hrun : r.after (.render tree handlers) = presented (mountNode tree
      (ground handlers concerns r)).1 (mountEach after (attach c x.key b')).2 := by
    show (render tree handlers r).2 = _
    rw [hz.render_accepted handlers hc, (mountNode_eq tree _).1, ht, mountEach_append,
      mountEach_cons, hmount]
  refine ⟨hmount, ⟨_, hrun⟩, hline ▸ hdir, hids, fun y hy => ?_, fun source e hp hbey s => ?_,
    fun remote hcas hfeed => ?_, fun hq => ?_, hstage ▸ hsub, ?_⟩
  · rw [hline] at hy
    rw [hstage]
    rcases List.mem_append.mp hy with hy | hy
    · exact (hi.made y hy).ages (withWidget_ages ..)
    · obtain rfl := List.mem_singleton.mp hy
      exact hlib ▸ introduced_made hmr
  · exact evaluate_beyond hu.ids hids hp hbey s
  · rw [mountSource_remote hcas hfeed, enter_context hf, hopt]
    rfl
  · rw [mountSource_quiet hq]
  · rw [hrun, ← hlib]
    exact hseen.rest_submits hur hmr

open Rehearsal (StandIn)

def rowsOfChart : Remote :=
  { Remote.plain "/rows" with headers := [("X-Rows", .expression "$chart.getValue()")] }

def gridAndChart : List Component :=
  [{ Component.plain "Grid" with id := some "grid" },
    { Component.plain "Chart" with id := some "chart" }]

def chartForm : Component := { Component.plain "Form" with feed := some (.remote rowsOfChart) }

/-- A form that asks for the rows of a chart, which the library does not know. -/
def besideChart : Node :=
  .container ⟨.vertical, none, [], []⟩ ((gridAndChart ++ [chartForm]).map .component)

/-- The form finds the grid, but not the chart. -/
theorem render_so_far_besideChart :
    Layout.check besideChart = .ok [] ∧
      let reached := (mountEach gridAndChart (ground [] [] (new parentAndChild .default))).2
      let x := reached.introduced chartForm (StandIn.make "Form")
      let b := (enter chartForm (StandIn.make "Form" chartForm.propsJson) reached).2
      let b' := (mountSource chartForm x.key x.entry.handle b).2
      Fields.names b.directory = ["grid"] ∧
        (evaluate b.directory "$chart.getValue()" b.stage).1 = .undefined ∧
        b'.stage.traffic.jobs = b.stage.traffic.jobs ++
          [⟨⟨x.key, 1⟩, (compose ⟨b.directory, .default⟩ rowsOfChart "/rows" b.stage).1⟩] := by
  have hc : Layout.check besideChart = .ok [] := by cbv
  have hr : Reachable parentAndChild .default (new parentAndChild .default) := .new
  have ht : besideChart.components = gridAndChart ++ chartForm :: [] := rfl
  have hm : Fields.get? parentAndChild chartForm.name = some (StandIn.make "Form") := by cbv
  have hp : Expression.parse "$chart.getValue()" = .ok ⟨"chart", some ⟨"getValue", []⟩⟩ := by cbv
  obtain ⟨-, -, h⟩ := render_so_far hr hc [] ht hm
  refine ⟨hc, h.ids.trans (by cbv), h.beyond _ _ hp ?_ _, h.request rowsOfChart rfl rfl⟩
  exact .skipped (List.mem_cons_of_mem _ List.mem_cons_self) (by cbv) rfl

end Renderer

end LiveLayout.Live
