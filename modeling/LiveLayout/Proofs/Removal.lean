import Mathlib
import LiveLayout.Proofs.Consistency
import LiveLayout.Proofs.Passing
import LiveLayout.Proofs.Settling
import LiveLayout.Rehearsal.Handler
import LiveLayout.Rehearsal.Widget

/-!
# Nothing reaches what was removed

A widget that was taken down, alone or with all others, is out of reach for
good: it is given no data, no expression calls it, and neither a handler nor a
request is ever for its node again. What is kept for a node goes with it, and
whatever comes later has keys and handles of its own.
-/

namespace LiveLayout.Live

open Layout (Node Component)

/-- Is not for an instance, nor for the node that it was shown for. -/
def Effect.Spares (h : Handle) (key : NodeKey) : Effect → Prop
  | .pushed target _ => target ≠ h
  | .invoked .expression target _ _ => target ≠ h
  | .called _ event _ => event.source ≠ key
  | .submitted _ job => job.ticket.node ≠ key
  | .invoked .handler .. | .warned _ | .summed _ | .evaluated .. | .told _ => True

section
variable {h : Handle} {key : NodeKey}

theorem Effect.spares_of_isAside {e : Effect} (he : e.isAside = true) : e.Spares h key := by
  cases e with
  | warned | summed | evaluated | told => trivial
  | invoked caller =>
    cases caller with
    | handler => trivial
    | expression => cases he
  | pushed | submitted | called => cases he

theorem Evaluates.spares {d : Directory} (hd : ∀ p ∈ d, p.2.handle ≠ h)
    (he : Evaluates d T e) : e.Spares h key := by
  cases he with
  | aside he => exact Effect.spares_of_isAside he
  | invoked _ _ hg => exact hd _ (Fields.mem_of_get? hg)
  | evaluated | malformed | notMounted => trivial

theorem Source.Works.spares {d : Directory} {src : Source} (hd : ∀ p ∈ d, p.2.handle ≠ h)
    (hw : src.widget ≠ h) (hk : src.key ≠ key) (he : src.Works d e) : e.Spares h key := by
  cases he with
  | evaluates he => exact he.spares hd
  | pushed => exact hw
  | submitted hj => exact hj.trans_ne hk

/-- None of the exhibits is an instance, or the node that it was shown for. -/
def Without (h : Handle) (key : NodeKey) (xs : List Exhibit) : Prop :=
  ∀ x ∈ xs, x.entry.handle ≠ h ∧ x.key ≠ key

theorem Without.entered {xs : List Exhibit} (hx : Without h key xs) :
    ∀ p ∈ entered xs, p.2.handle ≠ h := by
  intro p hp
  obtain ⟨x, hm, hr⟩ := List.mem_filterMap.mp hp
  obtain ⟨id, -, rfl⟩ := Option.map_eq_some_iff.mp hr
  exact (hx x hm).1

theorem Greets.spares {xs : List Exhibit} (hx : Without h key xs) (he : Greets xs e) :
    e.Spares h key := by
  cases he with
  | aside he => exact Effect.spares_of_isAside he
  | @loads before x after _ hxs he =>
    have hp : before ++ [x] <+: xs := ⟨after, by simp [hxs]⟩
    have hb : Without h key (before ++ [x]) := fun y hy => hx y (hp.subset hy)
    obtain ⟨hw, hk⟩ := hx x (by simp [hxs])
    exact he.spares hb.entered hw hk

end

namespace Renderer

variable {W : Type} [Widget W] {h : Handle} {key : NodeKey} {r : Renderer W}

omit [Widget W] in
theorem Shows.plays_spares (hs : Shows xs r) (hx : Without h key xs) (he : r.Plays e) :
    e.Spares h key := by
  have hsrc : ∀ p ∈ r.sources, p.2.widget ≠ h ∧ p.2.key ≠ key := by
    intro p hp
    obtain ⟨x, hm, -, -, ho⟩ := hs.exhibit_of_mem_source hp
    obtain ⟨hw, hk⟩ := hx x hm
    exact ⟨(congrArg Source.widget ho :) ▸ hw, (congrArg Source.key ho :) ▸ hk⟩
  cases he with
  | evaluates he => exact he.spares (hs.entered ▸ hx.entered)
  | @called b event args hb hn =>
    rw [hs.bindings] at hb
    obtain ⟨x, hm, hb⟩ := List.mem_flatMap.mp hb
    show event.source ≠ key
    rw [hn, Exhibit.node_of_mem_bindings hb]
    exact (hx x hm).2
  | pushed hp => exact (hsrc _ hp).1
  | submitted hp hj => exact hj.trans_ne (hsrc _ hp).2

theorem Introduces.without (hi : Introduces xs ys r r') (hh : h.index < r.stage.widgets.length)
    (hk : key.ordinal < r.nextKey) : Without h key ys := by
  intro y hy
  constructor
  · rintro rfl
    exact absurd hh (Nat.not_lt_of_le (hi.index hy))
  · rintro rfl
    exact absurd hk (Nat.not_lt_of_le (hi.ordinal hy))

-- ---------------------------------------------------------------------------
-- Out of reach
-- ---------------------------------------------------------------------------

/-- Nothing that is shown is an instance or its node, and nothing that will be
shown can be. -/
structure Gone (h : Handle) (key : NodeKey) (xs : List Exhibit) (r : Renderer W) : Prop where
  shows : Shows xs r
  absent : Without h key xs
  handle : h.index < r.stage.widgets.length
  key : key.ordinal < r.nextKey

/-- What is introduced has keys and handles of its own. -/
theorem Introduces.gone (hi : Introduces [] ys r r') (hh : h.index < r.stage.widgets.length)
    (hk : key.ordinal < r.nextKey) :
    Gone h key ys r' ∧ Extends (Effect.Spares h key) r.stage r'.stage := by
  have hw := hi.without hh hk
  refine ⟨⟨hi.shows, hw, ?_, ?_⟩, hi.said.mono fun _ => Greets.spares hw⟩
  · rw [hi.ages.count]
    exact Nat.lt_add_right _ hh
  · rw [hi.nextKey]
    exact Nat.lt_add_right _ hk

/-- What is out of reach is not reached by an operation, and stays there. -/
theorem Gone.after (hg : Gone h key xs r) (op : Operation) :
    ∃ ys, Gone h key ys (r.after op) ∧
      Extends (Effect.Spares h key) r.stage (r.after op).stage := by
  obtain ⟨ys, hp, hs⟩ := hg.shows.passes op
  refine ⟨ys, ?_⟩
  generalize r.after op = r' at hp hs
  cases hp with
  | stays ho hgo =>
    have hn : r'.nextKey = r.nextKey := hgo.layout.nextKey_eq
    exact ⟨⟨hs, hg.absent, hgo.ages.count ▸ hg.handle, hn ▸ hg.key⟩,
      hgo.said.mono fun _ => hg.shows.plays_spares hg.absent⟩
  | @takes other _ ho =>
    have hw : Without h key (xs.filter (·.key ≠ other)) :=
      fun x hx => hg.absent x (List.mem_filter.mp hx).1
    exact ⟨⟨hs, hw, by simpa using hg.handle, by simpa using hg.key⟩, .of_eq (by simp)⟩
  | misses | rejects => exact ⟨hg, .refl _⟩
  | clears => exact ⟨⟨hs, by simp [Without], hg.handle, hg.key⟩, .refl _⟩
  | shows hc hi hp => exact hi.gone hg.handle hg.key

theorem Gone.afterAll (hg : Gone h key xs r) (ops : List Operation) :
    Extends (Effect.Spares h key) r.stage (r.afterAll ops).stage := by
  induction ops generalizing xs r with
  | nil => exact .refl _
  | cons op ops ih =>
    obtain ⟨ys, hy, he⟩ := hg.after op
    exact he.trans (ih hy)

-- ---------------------------------------------------------------------------
-- Where widgets are
-- ---------------------------------------------------------------------------

/-- The scene has the widgets of the exhibits, each an instance of its own. -/
structure Housed (xs : List Exhibit) (r : Renderer W) : Prop where
  shows : Shows xs r
  scene : Scene.widgets r.tree = xs.map Exhibit.widget
  apart : xs.Pairwise fun x y => x.entry.handle.index < y.entry.handle.index
  placed : ∀ x ∈ xs, x.entry.handle.index < r.stage.widgets.length

omit [Widget W] in
theorem housed_new (library : Library W) (options : Options) : Housed [] (new library options) where
  shows := shows_new library options
  scene := rfl
  apart := .nil
  placed := by simp

theorem Introduces.housed {tree : Node} (hi : Introduces [] ys r r')
    (hp : Presents r.library [tree] ys r'.tree.toList) : Housed ys r' where
  shows := hi.shows
  scene := by rw [← Scene.widgetsAll_toList, hp.widgets]
  apart := by
    have hr : (ys.map (·.entry.handle.index)).Pairwise (· < ·) := by
      rw [hi.handles]
      exact List.pairwise_lt_range'
    exact List.pairwise_map.mp hr
  placed := fun y hy => by
    have hm := List.mem_map_of_mem (f := (·.entry.handle.index)) hy
    rw [hi.handles] at hm
    exact hi.ages.count ▸ (List.mem_range'_1.mp hm).2

theorem Housed.after (h : Housed xs r) (op : Operation) : ∃ ys, Housed ys (r.after op) := by
  obtain ⟨ys, hp, hs⟩ := h.shows.passes op
  refine ⟨ys, ?_⟩
  generalize r.after op = r' at hp hs
  cases hp with
  | stays ho hg =>
    have ht : r'.tree = r.tree := hg.layout.tree_eq
    exact ⟨hs, ht ▸ h.scene, h.apart, fun x hx => hg.ages.count ▸ h.placed x hx⟩
  | @takes key _ ho =>
    refine ⟨hs, h.shows.widgets_unmountKey h.scene key, h.apart.filter _, fun x hx => ?_⟩
    simpa using h.placed x (List.mem_filter.mp hx).1
  | misses | rejects => exact h
  | clears => exact ⟨hs, rfl, .nil, by simp⟩
  | shows hc hi hp => exact hi.housed hp

theorem Reachable.housed {library : Library W} {options : Options}
    (h : Reachable library options r) : ∃ xs, Housed xs r := by
  induction h with
  | new => exact ⟨[], housed_new library options⟩
  | after op _ ih =>
    obtain ⟨xs, hx⟩ := ih
    exact hx.after op

-- ---------------------------------------------------------------------------
-- Removing
-- ---------------------------------------------------------------------------

/-- Takes a node down, alone, with all others, or for another layout. -/
inductive Removes (r : Renderer W) (key : NodeKey) : Operation → Prop
  | unmounted (ho : Unmounts r key op) : Removes r key op
  | tornDown : Removes r key .teardown
  | replaced {tree : Node} {handlers : Handlers} (hc : Layout.check tree = .ok concerns) :
      Removes r key (.render tree handlers)

omit [Widget W] in
theorem Housed.without (h : Housed xs r) (hx : x ∈ xs) :
    Without x.entry.handle x.key (xs.filter (·.key ≠ x.key)) := by
  intro y hy
  obtain ⟨hy, hk⟩ := List.mem_filter.mp hy
  have hk : y.key ≠ x.key := by simpa using hk
  refine ⟨fun he => hk ?_, hk⟩
  have hn : (xs.map (·.entry.handle.index)).Nodup :=
    List.pairwise_map.mpr (h.apart.imp Nat.ne_of_lt)
  exact congrArg Exhibit.key (List.inj_on_of_nodup_map hn hy hx (congrArg Handle.index he))

/-- A widget that is removed is out of reach. -/
theorem Housed.removes (h : Housed xs r) (hx : x ∈ xs) (ho : Removes r x.key op) :
    ∃ ys, Gone x.entry.handle x.key ys (r.after op) ∧
      Extends (Effect.Spares x.entry.handle x.key) r.stage (r.after op).stage := by
  have hh := h.placed x hx
  have hk := h.shows.fresh x hx
  cases ho with
  | unmounted ho =>
    rw [ho.after]
    exact ⟨_, ⟨h.shows.unmountKey x.key, h.without hx, by simpa using hh, by simpa using hk⟩,
      .of_eq (by simp)⟩
  | tornDown =>
    show ∃ ys, Gone _ _ ys (teardown r).2 ∧ Extends _ r.stage (teardown r).2.stage
    rw [h.shows.teardown_run]
    exact ⟨[], ⟨shows_bare r, by simp [Without], hh, hk⟩, .refl _⟩
  | @replaced _ tree handlers hc =>
    obtain ⟨ys, scene, -, -, hi, -⟩ := h.shows.render_introduces handlers hc
    exact ⟨ys, hi.gone hh hk⟩

/-- Nothing ever reaches a widget that was removed: whatever is done from then
on, whatever is still under way, and whoever takes over its id, its instance is
given no data and called by no expression, and for its node no handler is called
and nothing is asked. -/
theorem removed_spared {library : Library W} {options : Options} {r : Renderer W}
    (hr : Reachable library options r) {w : SceneWidget} (hw : w ∈ Scene.widgets r.tree)
    {op : Operation} (ho : Removes r w.key op) (ops : List Operation) :
    Extends (Effect.Spares w.handle w.key) r.stage ((r.after op).afterAll ops).stage := by
  obtain ⟨xs, h⟩ := hr.housed
  rw [h.scene] at hw
  obtain ⟨x, hx, rfl⟩ := List.mem_map.mp hw
  obtain ⟨ys, hg, he⟩ := h.removes hx ho
  exact he.trans (hg.afterAll ops)

-- ---------------------------------------------------------------------------
-- A table that is taken down while it loads
-- ---------------------------------------------------------------------------

open Rehearsal (StandIn)

/-- A table that fetches its rows, with a handler for its selection. -/
def awaitedTable : Node :=
  .component { Component.plain "Table" with
    id := some "rows", feed := some (.remote (.plain "/rows")),
    events := [("select", ⟨"note", []⟩)] }

def loadingTable : Renderer StandIn :=
  (new [("Table", StandIn.make "Table")] .default).after
    (.render awaitedTable [("note", Rehearsal.quiet)])

/-- Its rows come in, its node is fired on, and another table has its id. -/
theorem removed_spared_loadingTable :
    Directory.keyOf? loadingTable.directory "rows" = some ⟨1⟩ ∧
      Extends (Effect.Spares ⟨0⟩ ⟨1⟩) loadingTable.stage
        ((loadingTable.after (.unmount "rows")).afterAll
          [.complete 0 (.ok (.array [.null])), .pump, .fireKey ⟨1⟩ "select" .null,
            .render awaitedTable [("note", Rehearsal.quiet)], .fire "rows" "select" .null,
            .refresh "rows"]).stage := by
  have hr : Reachable [("Table", StandIn.make "Table")] .default loadingTable := .after _ .new
  have hk : Directory.keyOf? loadingTable.directory "rows" = some ⟨1⟩ := by cbv
  have hw : Scene.widgets loadingTable.tree =
      [⟨⟨1⟩, some "rows", "Table", ⟨0⟩, [], []⟩] := by cbv
  exact ⟨hk, removed_spared hr (hw ▸ List.mem_cons_self) (.unmounted (.byId hk)) _⟩

end Renderer

end LiveLayout.Live
