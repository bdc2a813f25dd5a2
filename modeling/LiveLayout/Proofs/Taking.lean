import LiveLayout.Proofs.SceneLaws

/-!
# Taking one widget out of a scene

`Loses w` says of two scenes that the second is the first without the widget
`w`: it is gone from where it stood, and all else is in its place. Where all
widgets have different keys, removing a key takes out the one widget that has
it, or nothing if there is none.
-/

namespace LiveLayout.Live

namespace SceneNode

mutual
/-- One widget is taken out from below a node. -/
inductive Loses (w : SceneWidget) : SceneNode → SceneNode → Prop
  | container (frame : SceneFrame) :
    LosesAmong w ns ns' → Loses w (.container frame ns) (.container frame ns')
/-- One widget is taken out of a list of nodes, or from below one of them. -/
inductive LosesAmong (w : SceneWidget) : List SceneNode → List SceneNode → Prop
  | here (rest : List SceneNode) : LosesAmong w (.widget w :: rest) rest
  | under (rest : List SceneNode) : Loses w n n' → LosesAmong w (n :: rest) (n' :: rest)
  | behind (n : SceneNode) : LosesAmong w rest rest' → LosesAmong w (n :: rest) (n :: rest')
end

mutual
theorem Loses.widgets {w : SceneWidget} {n n' : SceneNode} (h : Loses w n n') :
    ∃ before after, n.widgets = before ++ w :: after ∧ n'.widgets = before ++ after := by
  cases h with
  | container frame h => exact h.widgets
theorem LosesAmong.widgets {w : SceneWidget} {ns ns' : List SceneNode} (h : LosesAmong w ns ns') :
    ∃ before after, widgetsAll ns = before ++ w :: after ∧ widgetsAll ns' = before ++ after := by
  cases h with
  | here rest => exact ⟨[], widgetsAll ns', rfl, rfl⟩
  | under rest h =>
    obtain ⟨before, after, hn, hn'⟩ := h.widgets
    exact ⟨before, after ++ widgetsAll rest, by simp [widgetsAll, hn], by simp [widgetsAll, hn']⟩
  | behind n h =>
    obtain ⟨before, after, hr, hr'⟩ := h.widgets
    exact ⟨n.widgets ++ before, after, by simp [widgetsAll, hr], by simp [widgetsAll, hr']⟩
end

mutual
theorem loses_keep {w : SceneWidget} {n : SceneNode} (hn : (n.widgets.map (·.key)).Nodup)
    (hw : w ∈ n.widgets) (hr : n.isWidget w.key = false) :
    ∃ n', n.keep (·.key ≠ w.key) = some n' ∧ Loses w n n' := by
  cases n with
  | container frame ns => exact ⟨_, rfl, .container frame (losesAmong_keepAll hn hw)⟩
  | widget w' =>
    obtain rfl : w = w' := by simpa [widgets] using hw
    simp [isWidget] at hr
theorem losesAmong_keepAll {w : SceneWidget} {ns : List SceneNode}
    (hn : ((widgetsAll ns).map (·.key)).Nodup) (hw : w ∈ widgetsAll ns) :
    LosesAmong w ns (keepAll (·.key ≠ w.key) ns) := by
  cases ns with
  | nil => cases hw
  | cons n rest =>
    simp only [widgetsAll, List.map_append] at hn
    obtain ⟨hh, ht, hd⟩ := List.nodup_append.mp hn
    have hkey {ws : List SceneWidget} (h : w ∈ ws) : w.key ∈ ws.map (·.key) := List.mem_map_of_mem h
    obtain hw | hw := List.mem_append.mp hw
    · -- the key does not occur behind the node that has the widget
      rw [keepAll, keepAll_absent fun h => hd _ (hkey hw) _ h rfl]
      by_cases hr : n.isWidget w.key = true
      · obtain ⟨w', rfl, -⟩ := isWidget_iff.mp hr
        obtain rfl : w = w' := by simpa [widgets] using hw
        simpa [keep] using LosesAmong.here rest
      · obtain ⟨n', hk, hl⟩ := loses_keep hh hw (by simpa using hr)
        rw [hk]
        exact .under rest hl
    · rw [keepAll, keep_absent fun h => hd _ h _ (hkey hw) rfl]
      exact .behind n (losesAmong_keepAll ht hw)
end

end SceneNode

namespace Scene

/-- One widget is taken out of a scene, which is empty if it was the root. -/
inductive Loses (w : SceneWidget) : Scene → Scene → Prop
  | root : Loses w (some (.widget w)) none
  | under : n.Loses w n' → Loses w (some n) (some n')

theorem Loses.widgets {w : SceneWidget} {t t' : Scene} (h : Loses w t t') :
    ∃ before after, Scene.widgets t = before ++ w :: after ∧
      Scene.widgets t' = before ++ after := by
  cases h with
  | root => exact ⟨[], [], rfl, rfl⟩
  | under h => exact h.widgets

theorem loses_keep {t : Scene} {w : SceneWidget} (hn : ((widgets t).map (·.key)).Nodup)
    (hw : w ∈ widgets t) : Loses w t (keep (·.key ≠ w.key) t) := by
  cases t with
  | none => cases hw
  | some n =>
    by_cases hr : n.isWidget w.key = true
    · obtain ⟨w', rfl, -⟩ := SceneNode.isWidget_iff.mp hr
      obtain rfl : w = w' := by simpa [widgets, SceneNode.widgets] using hw
      simpa [keep, SceneNode.keep] using Loses.root
    · obtain ⟨n', hk, hl⟩ := SceneNode.loses_keep hn hw (by simpa using hr)
      rw [keep, Option.bind_some, hk]
      exact .under hl

/-- Nothing is left out where a key does not occur. -/
theorem keep_absent {t : Scene} {key : NodeKey} (h : key ∉ (widgets t).map (·.key)) :
    keep (·.key ≠ key) t = t :=
  keep_self fun _ hw => decide_eq_true fun he => h (he ▸ List.mem_map_of_mem hw)

/-- Removing a key takes out the one widget that has it, and nothing else. -/
structure RemovesExactly (t : Scene) (key : NodeKey) : Prop where
  /-- It is found just if a widget has it. -/
  found : (remove t key).2 = true ↔ ∃ w ∈ widgets t, w.key = key
  /-- What was found is gone, and all others are in their places. -/
  taken : (remove t key).2 = true → ∃ w before after, w.key = key ∧
    widgets t = before ++ w :: after ∧ widgets (remove t key).1 = before ++ after ∧
    Loses w t (remove t key).1
  /-- All containers stay, also those that are left empty. -/
  contained : outline (remove t key).1 = outline t
  /-- Where nothing was found, nothing changes. -/
  untouched : (remove t key).2 = false → (remove t key).1 = t

theorem remove_exact {t : Scene} (hn : ((widgets t).map (·.key)).Nodup) (key : NodeKey) :
    RemovesExactly t key := by
  obtain ⟨hk, hf⟩ := remove_keeps hn key
  refine ⟨by simpa using hf, fun h => ?_, by rw [hk, outline_keep], fun h => ?_⟩
  · obtain ⟨w, hw, rfl⟩ := List.mem_map.mp (hf.mp h)
    have hl := loses_keep hn hw
    obtain ⟨before, after, ht, ht'⟩ := hl.widgets
    exact ⟨w, before, after, rfl, ht, hk ▸ ht', hk ▸ hl⟩
  · rw [hk]
    exact keep_absent fun hm => by simp [hf.mpr hm] at h

-- ---------------------------------------------------------------------------
-- A container that is left empty
-- ---------------------------------------------------------------------------

def column : SceneFrame := .ofFrame ⟨.vertical, none, [], []⟩

def table : SceneWidget := ⟨⟨1⟩, some "rows", "Table", ⟨0⟩, [], []⟩

def form : SceneWidget := ⟨⟨2⟩, none, "Form", ⟨1⟩, [], []⟩

/-- A table, and a form in a container of its own. -/
def formBelowTable : Scene :=
  some (.container column [.widget table, .container column [.widget form]])

theorem remove_exact_onlyChild :
    ((widgets formBelowTable).map (·.key)).Nodup ∧
      remove formBelowTable form.key =
        (some (.container column [.widget table, .container column []]), true) ∧
      RemovesExactly formBelowTable form.key :=
  ⟨by decide, rfl, remove_exact (by decide) _⟩

end Scene

end LiveLayout.Live
