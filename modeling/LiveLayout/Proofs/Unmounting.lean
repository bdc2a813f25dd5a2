import LiveLayout.Proofs.Removal

/-!
# Taking nodes down

Unmounting a node takes all that is kept for it out of the renderer, and its
widget out of the scene. Nothing else changes, and nothing is done on the
stage. So it does not matter in which order nodes are taken down.
-/

namespace LiveLayout.Live

namespace Renderer

section
variable {W : Type} {xs : List Exhibit} {r r' : Renderer W}

/-- The renderer less some nodes. What is kept for others stays in its order, all
containers stay in their places, and nothing else is touched, the stage
neither. -/
def less (r : Renderer W) (keys : List NodeKey) : Renderer W :=
  { r with
    directory := r.directory.filter (·.2.key ∉ keys)
    bindings := r.bindings.filter (·.node ∉ keys)
    subscriptions := r.subscriptions.filter (·.1 ∉ keys)
    sources := r.sources.filter (·.1 ∉ keys)
    mounted := r.mounted.filter (·.1 ∉ keys)
    tree := Scene.keep (·.key ∉ keys) r.tree }

theorem filter_notMem_append {f : α → NodeKey} (js ks : List NodeKey) (l : List α) :
    (l.filter (f · ∉ js)).filter (f · ∉ ks) = l.filter (f · ∉ js ++ ks) := by
  simp [List.filter_filter, Bool.and_comm]

theorem less_less (r : Renderer W) (js ks : List NodeKey) :
    (r.less js).less ks = r.less (js ++ ks) := by
  have ht : Scene.keep (·.key ∉ ks) (Scene.keep (·.key ∉ js) r.tree) =
      Scene.keep (·.key ∉ js ++ ks) r.tree := by
    simp [Scene.keep_keep]
  simp only [less, filter_notMem_append, ht]

theorem less_congr {js ks : List NodeKey} (h : ∀ key, key ∈ js ↔ key ∈ ks) (r : Renderer W) :
    r.less js = r.less ks := by
  simp only [less, h]

-- ---------------------------------------------------------------------------
-- What is left
-- ---------------------------------------------------------------------------

theorem Shows.less (h : Shows xs r) (keys : List NodeKey) :
    Shows (xs.filter (·.key ∉ keys)) (r.less keys) where
  rising := h.rising.filter _
  fresh := fun x hx => h.fresh x (List.mem_filter.mp hx).1
  usable := h.usable.sublist (List.filter_sublist.map _)
  mounted := by
    simp only [Renderer.less, h.mounted, List.filter_map]
    rfl
  directory := by
    simp only [Renderer.less, h.directory]
    refine filter_filterMap_comm fun x _ p hp => ?_
    obtain ⟨id, -, rfl⟩ := Option.map_eq_some_iff.mp hp
    rfl
  subscriptions := by
    simp only [Renderer.less, h.subscriptions]
    exact filter_filterMap_comm fun x _ p hp => by rw [Exhibit.fst_of_subscription? hp]
  sources := by
    have hf : (r.sources.filter (·.1 ∉ keys)).map fixedPart =
        (r.sources.map fixedPart).filter (·.1 ∉ keys) := by
      rw [List.filter_map]
      rfl
    simp only [Renderer.less, hf, h.sources]
    exact filter_filterMap_comm fun x _ p hp => by rw [Exhibit.fst_of_source? hp]
  bindings := by
    simp only [Renderer.less, h.bindings]
    exact filter_flatMap_comm fun x _ b hb => by rw [Exhibit.node_of_mem_bindings hb]

/-- Nothing is missed where none of the nodes is. -/
theorem Housed.less_absent (h : Housed xs r) {keys : List NodeKey}
    (hk : ∀ x ∈ xs, x.key ∉ keys) : r.less keys = r := by
  have hxs : xs.filter (·.key ∉ keys) = xs := by simpa using hk
  have hl := h.shows.less keys
  rw [hxs] at hl
  have hm : (r.less keys).mounted = r.mounted := hl.mounted.trans h.shows.mounted.symm
  have hd : (r.less keys).directory = r.directory := hl.directory.trans h.shows.directory.symm
  have hb : (r.less keys).bindings = r.bindings := hl.bindings.trans h.shows.bindings.symm
  have hc : (r.less keys).subscriptions = r.subscriptions :=
    hl.subscriptions.trans h.shows.subscriptions.symm
  have hs : (r.less keys).sources = r.sources := by
    refine List.filter_eq_self.mpr fun p hp => decide_eq_true ?_
    obtain ⟨x, hx, he, -⟩ := h.shows.exhibit_of_mem_source hp
    exact he ▸ hk x hx
  have ht : (r.less keys).tree = r.tree := by
    refine Scene.keep_self fun w hw => decide_eq_true ?_
    rw [h.scene] at hw
    obtain ⟨x, hx, rfl⟩ := List.mem_map.mp hw
    exact hk x hx
  simp only [less] at hm hd hb hc hs ht
  simp only [less, hm, hd, hb, hc, hs, ht]

/-- No widget is shown, and nothing is kept for any. -/
structure Vacant (r : Renderer W) : Prop where
  widgets : Scene.widgets r.tree = []
  mounted : r.mounted = []
  directory : r.directory = []
  sources : r.sources = []
  subscriptions : r.subscriptions = []
  bindings : r.bindings = []

theorem Housed.less_all (h : Housed xs r) {keys : List NodeKey} (hk : ∀ x ∈ xs, x.key ∈ keys) :
    Vacant (r.less keys) := by
  have hxs : xs.filter (·.key ∉ keys) = [] := by simpa using hk
  have hl := h.shows.less keys
  rw [hxs] at hl
  refine ⟨?_, hl.mounted, hl.directory, List.map_eq_nil_iff.mp hl.sources, hl.subscriptions,
    hl.bindings⟩
  have hw : ∀ w ∈ xs.map Exhibit.widget, w.key ∈ keys := by
    rintro w hw
    obtain ⟨x, hx, rfl⟩ := List.mem_map.mp hw
    exact hk x hx
  simp only [less, Scene.widgets_keep, h.scene]
  simpa using hw

-- ---------------------------------------------------------------------------
-- Taking nodes down
-- ---------------------------------------------------------------------------

theorem Housed.remove (h : Housed xs r) (key : NodeKey) :
    (Scene.remove r.tree key).1 = Scene.keep (·.key ≠ key) r.tree := by
  have hn : ((Scene.widgets r.tree).map (·.key)).Nodup := by
    rw [h.scene, List.map_map]
    exact nodup_of_rising h.shows.rising
  exact (Scene.remove_keeps hn key).1

theorem Housed.unmountKey_mounted (h : Housed xs r) (hk : key ∈ KeyMap.keys r.mounted) :
    unmountKey key r = (true, r.less [key]) := by
  obtain ⟨x, hx, rfl⟩ := h.shows.mem_mounted.mp hk
  have hg := h.shows.get?_mounted.mpr ⟨x, hx, rfl, rfl⟩
  have hd : (unmountKey x.key r).2.directory = (r.less [x.key]).directory := by
    rw [(h.shows.unmountKey x.key).directory, (h.shows.less [x.key]).directory]
    simp
  rw [unmountKey_run, hg] at hd ⊢
  simp only [forget, less] at hd
  simp only [forget, less, hd, h.remove, KeyMap.erase, Bindings.unbind, List.mem_singleton]

theorem unmountKey_unmounted (hk : key ∉ KeyMap.keys r.mounted) :
    unmountKey key r = (false, r) := by
  cases hg : KeyMap.get? r.mounted key with
  | none => rw [unmountKey_run, hg]
  | some m => exact absurd (List.mem_map_of_mem (f := (·.1)) (KeyMap.mem_of_get? hg)) hk

/-- Mounted or not, the node is not there afterwards, and all else is. -/
theorem Housed.unmountKey (h : Housed xs r) (key : NodeKey) :
    (Renderer.unmountKey key r).2 = r.less [key] := by
  by_cases hk : key ∈ KeyMap.keys r.mounted
  · rw [h.unmountKey_mounted hk]
  · rw [unmountKey_unmounted hk, h.less_absent]
    intro x hx he
    exact hk (h.shows.mem_mounted.mpr ⟨x, hx, List.mem_singleton.mp he⟩)

end

variable {W : Type} [Widget W] {xs : List Exhibit} {r : Renderer W}

theorem Housed.unmountKeys (h : Housed xs r) (keys : List NodeKey) :
    r.afterAll (keys.map .unmountKey) = r.less keys := by
  induction keys generalizing xs r with
  | nil => exact (h.less_absent (by simp)).symm
  | cons key rest ih =>
    have ha : r.after (.unmountKey key) = r.less [key] := h.unmountKey key
    obtain ⟨ys, hy⟩ := h.after (.unmountKey key)
    rw [ha] at hy
    rw [List.map_cons, afterAll_cons, ha, ih hy, less_less]
    rfl

/-- Unmounting is local, and its order does not matter. -/
structure UnmountsLocally (r : Renderer W) : Prop where
  /-- A mounted node goes, with its id, and takes nothing along. -/
  taken : ∀ key m, KeyMap.get? r.mounted key = some m →
    unmountKey key r = (true, r.less [key]) ∧
      (r.less [key]).directory = (m.id.map (Fields.erase r.directory)).getD r.directory
  /-- A second time there is nothing to do. -/
  again : ∀ key, unmountKey key (r.less [key]) = (false, r.less [key])
  /-- In the scene the other widgets stay as they are, and all containers do. -/
  scene : ∀ keys, Scene.widgets (r.less keys).tree =
      (Scene.widgets r.tree).filter (·.key ∉ keys) ∧
    Scene.outline (r.less keys).tree = Scene.outline r.tree
  /-- Nodes that are unmounted one after the other are all gone. -/
  together : ∀ keys, r.afterAll (keys.map .unmountKey) = r.less keys
  swapped : ∀ j k, (r.after (.unmountKey j)).after (.unmountKey k) =
    (r.after (.unmountKey k)).after (.unmountKey j)
  vacated : ∀ keys, KeyMap.keys r.mounted ⊆ keys → Vacant (r.afterAll (keys.map .unmountKey))

theorem unmounts_locally {library : Library W} {options : Options}
    (hr : Reachable library options r) : UnmountsLocally r := by
  obtain ⟨xs, h⟩ := hr.housed
  refine ⟨fun key m hm => ?_, fun key => ?_,
    fun keys => ⟨Scene.widgets_keep .., Scene.outline_keep ..⟩, h.unmountKeys,
    fun j k => ?_, fun keys hk => ?_⟩
  · have he := h.unmountKey_mounted (List.mem_map_of_mem (f := (·.1)) (KeyMap.mem_of_get? hm))
    refine ⟨he, ?_⟩
    rw [unmountKey_run, hm] at he
    have hd := congrArg (fun p => p.2.directory) he
    cases hi : m.id <;> simp_all [forget]
  · refine unmountKey_unmounted fun hk => ?_
    obtain ⟨p, hp, rfl⟩ := List.mem_map.mp hk
    simp [less] at hp
  · have hjk := h.unmountKeys [j, k]
    have hkj := h.unmountKeys [k, j]
    simp only [List.map_cons, List.map_nil, afterAll_cons, afterAll_nil] at hjk hkj
    rw [hjk, hkj]
    exact less_congr (by simp [or_comm]) r
  · rw [h.unmountKeys]
    exact h.less_all fun x hx => hk (h.shows.mem_mounted.mpr ⟨x, hx, rfl⟩)

-- ---------------------------------------------------------------------------
-- A form below a table
-- ---------------------------------------------------------------------------

open Layout (Node Component)
open Rehearsal (StandIn)

/-- A table, and in a container of its own a form that follows it. -/
def tableAboveForm : Node :=
  .container ⟨.vertical, none, [], []⟩
    [.component { Component.plain "Table" with
      id := some "rows", feed := some (.remote (.plain "/rows")) },
     .container ⟨.horizontal, none, [], []⟩
      [.component { Component.plain "Form" with
        events := [("save", ⟨"note", []⟩)],
        cascade := some ⟨"rows", "select", "/rows/{id}", "id", none⟩ }]]

/-- A row was selected, and the form loads it. -/
def selectedRow : Renderer StandIn :=
  (new [("Table", StandIn.make "Table"), ("Form", StandIn.make "Form")] .default).afterAll
    [.render tableAboveForm [], .fire "rows" "select" (.object [("id", .nat 7)])]

theorem unmounts_locally_selectedRow :
    KeyMap.keys selectedRow.mounted = [⟨1⟩, ⟨2⟩] ∧
      Directory.keyOf? selectedRow.directory "rows" = some ⟨1⟩ ∧
      UnmountsLocally selectedRow :=
  ⟨by cbv, by cbv, unmounts_locally (reachable_afterAll .new _)⟩

end Renderer

end LiveLayout.Live
