import LiveLayout.Live.Operation
import LiveLayout.Proofs.Mounting

/-!
# Opening a layout

Showing a layout is a run of openings: a component that nobody knows is warned
about, any other gets its instance, its key and its place in the directory, and
its source loads on the stage as it is then.
-/

namespace LiveLayout.Live

open Layout (Component Usable)

variable {W : Type} [Widget W]

namespace Renderer

/-- How the source of a new component loads first. -/
def firstLoad (r : Renderer W) (c : Component) (make : Fields Json → W) : Source × Stage W :=
  (r.introduced c make).newSource.mount
    ⟨r.directory ++ (r.introduced c make).registered?.toList, r.options⟩
    (r.stage.withWidget (make c.propsJson))

inductive Opening (r : Renderer W) : Renderer W → Prop
  | warns (w : Warning) : Opening r { r with stage := (Act.warn w r.stage).2 }
  | plain {c : Component} {make : Fields Json → W} (hm : Fields.get? r.library c.name = some make)
      (hs : c.hasSource = false) :
      Opening r (withExhibit (r.introduced c make) r.sources
        (r.stage.withWidget (make c.propsJson)) r)
  | loading {c : Component} {make : Fields Json → W}
      (hm : Fields.get? r.library c.name = some make) (hs : c.hasSource = true) :
      Opening r (withExhibit (r.introduced c make)
        (KeyMap.insert r.sources ⟨r.nextKey⟩ (r.firstLoad c make).1) (r.firstLoad c make).2 r)

abbrev Openings : Renderer W → Renderer W → Prop := Relation.ReflTransGen Opening

variable {r r' : Renderer W}

theorem mountEach_openings (h : Shows xs r) (hu : Usable (xs.map (·.component) ++ cs)) :
    Openings r (mountEach cs r).2 := by
  induction cs generalizing xs r with
  | nil => exact .refl
  | cons c rest ih =>
    rw [mountEach_cons]
    cases hm : Fields.get? r.library c.name with
    | none =>
      have hs : (xs.map (·.component) ++ rest).Sublist (xs.map (·.component) ++ c :: rest) :=
        (List.sublist_cons_self c rest).append_left _
      rw [mountComponent_unknown hm]
      exact .head (.warns _) (ih (h.of_fixedPart rfl _) (hu.sublist hs))
    | some make =>
      have hf := h.free hu
      have hu' : Usable ((xs ++ [r.introduced c make]).map (·.component) ++ rest) := by
        simpa [introduced] using hu
      have hs := (mountComponent_mounts hm hf).shows h rfl
        (hu'.sublist (List.sublist_append_left ..))
      refine .head ?_ (ih hs hu')
      rw [mountComponent_known hm hf]
      dsimp only
      split
      · next hl => exact .loading hm hl
      · next hl => exact .plain hm (Bool.eq_false_iff.mpr hl)

/-- A layout that is not rejected is opened on bare ground. -/
theorem Shows.render_openings (h : Shows xs r) {tree : Layout.Node} (handlers : Handlers)
    (hc : Layout.check tree = .ok concerns) :
    ∃ r' scene, Openings (ground handlers concerns r) r' ∧
      r.after (.render tree handlers) = presented scene r' := by
  have hg : Shows [] (ground handlers concerns r) := { shows_bare r with }
  refine ⟨_, _, ?_, h.render_accepted handlers hc⟩
  rw [(mountNode_eq tree _).1]
  exact mountEach_openings hg (Layout.check_ok hc)

-- ---------------------------------------------------------------------------
-- Keys and sources
-- ---------------------------------------------------------------------------

/-- The source of a component that has just been mounted. -/
def Started (src : Source) : Prop :=
  ∃ (x : Exhibit) (ctx : Context) (s : Stage W), src = (x.newSource.mount ctx s).1

theorem Opening.nextKey (h : Opening r r') : r.nextKey ≤ r'.nextKey := by
  cases h with
  | warns => exact Nat.le_refl _
  | plain | loading => exact Nat.le_succ _

theorem Opening.options (h : Opening r r') : r'.options = r.options := by
  cases h <;> rfl

/-- Sources that were there are kept, and any other has just been started. -/
theorem Opening.get?_sources (h : Opening r r') (key : NodeKey) :
    KeyMap.get? r'.sources key = KeyMap.get? r.sources key ∨
      key = ⟨r.nextKey⟩ ∧ key.ordinal < r'.nextKey ∧
        ∃ src, KeyMap.get? r'.sources key = some src ∧ Started (W := W) src := by
  cases h with
  | warns | plain => exact .inl rfl
  | @loading c make =>
    by_cases hk : (⟨r.nextKey⟩ : NodeKey) = key
    · subst hk
      exact .inr ⟨rfl, Nat.lt_succ_self _, _, (KeyMap.get?_insert ..).trans (if_pos rfl),
        r.introduced c make, _, _, rfl⟩
    · exact .inl ((KeyMap.get?_insert ..).trans (if_neg hk))

theorem Openings.nextKey (h : Openings r r') : r.nextKey ≤ r'.nextKey := by
  induction h with
  | refl => exact Nat.le_refl _
  | tail _ ho ih => exact Nat.le_trans ih ho.nextKey

theorem Openings.options (h : Openings r r') : r'.options = r.options := by
  induction h with
  | refl => rfl
  | tail _ ho ih => exact ho.options.trans ih

theorem Openings.started (h : Openings r r') (hr : r.sources = [])
    (hs : KeyMap.get? r'.sources key = some src) :
    r.nextKey ≤ key.ordinal ∧ key.ordinal < r'.nextKey ∧ Started (W := W) src := by
  induction h with
  | refl =>
    rw [hr] at hs
    cases hs
  | @tail b c hb ho ih =>
    rcases ho.get?_sources key with he | ⟨rfl, hk, src', hs', hst⟩
    · obtain ⟨h1, h2, h3⟩ := ih (he ▸ hs)
      exact ⟨h1, Nat.lt_of_lt_of_le h2 ho.nextKey, h3⟩
    · cases hs.symm.trans hs'
      exact ⟨Openings.nextKey hb, hk, hst⟩

end Renderer

end LiveLayout.Live
