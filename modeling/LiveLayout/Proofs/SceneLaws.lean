import LiveLayout.Live.Scene

/-!
# Taking widgets out of scenes

`keep` leaves those widgets of a scene that pass a test, and every container in
its place. Where all widgets have different keys, removing a key keeps all
widgets but the one with it.
-/

namespace LiveLayout.Live

/-- Widgets but the one with a key. -/
def without (key : NodeKey) (ws : List SceneWidget) : List SceneWidget := ws.filter (·.key ≠ key)

namespace SceneNode

theorem isWidget_iff {key : NodeKey} {n : SceneNode} :
    n.isWidget key = true ↔ ∃ w, n = .widget w ∧ w.key = key := by
  cases n <;> simp [isWidget]

theorem widgetsAll_eq_flatMap (ns : List SceneNode) : widgetsAll ns = ns.flatMap widgets := by
  induction ns with
  | nil => rfl
  | cons n rest ih => simp [widgetsAll, ih]

theorem widgetsAll_append (ns ms : List SceneNode) :
    widgetsAll (ns ++ ms) = widgetsAll ns ++ widgetsAll ms := by
  simp only [widgetsAll_eq_flatMap, List.flatMap_append]

theorem mem_widgetsAll_of_isWidget {key : NodeKey} {n : SceneNode} {ns : List SceneNode}
    (hn : n ∈ ns) (h : n.isWidget key = true) : key ∈ (widgetsAll ns).map (·.key) := by
  obtain ⟨w, rfl, rfl⟩ := isWidget_iff.mp h
  rw [widgetsAll_eq_flatMap]
  exact List.mem_map_of_mem (List.mem_flatMap.mpr ⟨_, hn, by simp [widgets]⟩)

-- ---------------------------------------------------------------------------
-- Keeping widgets
-- ---------------------------------------------------------------------------

mutual
/-- A node with those of its widgets that pass a test, and all of its
containers. -/
def keep (p : SceneWidget → Bool) : SceneNode → Option SceneNode
  | .container frame children => some (.container frame (keepAll p children))
  | .widget w => if p w then some (.widget w) else none
def keepAll (p : SceneWidget → Bool) : List SceneNode → List SceneNode
  | [] => []
  | n :: rest => (n.keep p).toList ++ keepAll p rest
end

theorem keepAll_append (p : SceneWidget → Bool) (ns ms : List SceneNode) :
    keepAll p (ns ++ ms) = keepAll p ns ++ keepAll p ms := by
  induction ns with
  | nil => rfl
  | cons n rest ih => simp [keepAll, ih]

theorem keepAll_toList (p : SceneWidget → Bool) (o : Option SceneNode) :
    keepAll p o.toList = (o.bind (keep p)).toList := by
  cases o <;> simp [keepAll]

mutual
theorem widgets_keep (p : SceneWidget → Bool) (n : SceneNode) :
    widgetsAll (n.keep p).toList = n.widgets.filter p := by
  cases n with
  | container frame children => simpa [keep, widgetsAll, widgets] using widgets_keepAll p children
  | widget w => by_cases h : p w = true <;> simp [keep, widgetsAll, widgets, h]
theorem widgets_keepAll (p : SceneWidget → Bool) (ns : List SceneNode) :
    widgetsAll (keepAll p ns) = (widgetsAll ns).filter p := by
  cases ns with
  | nil => rfl
  | cons n rest =>
    simp [keepAll, widgetsAll_append, widgetsAll, widgets_keep p n, widgets_keepAll p rest]
end

mutual
theorem keep_keep (p q : SceneWidget → Bool) (n : SceneNode) :
    (n.keep q).bind (keep p) = n.keep fun w => q w && p w := by
  cases n with
  | container frame children => simp [keep, keepAll_keepAll p q children]
  | widget w => by_cases h : q w = true <;> simp [keep, h]
theorem keepAll_keepAll (p q : SceneWidget → Bool) (ns : List SceneNode) :
    keepAll p (keepAll q ns) = keepAll (fun w => q w && p w) ns := by
  cases ns with
  | nil => rfl
  | cons n rest =>
    simp [keepAll, keepAll_append, keepAll_toList, keep_keep p q n, keepAll_keepAll p q rest]
end

mutual
theorem keep_self {p : SceneWidget → Bool} {n : SceneNode} (h : ∀ w ∈ n.widgets, p w = true) :
    n.keep p = some n := by
  cases n with
  | container frame children =>
    have hc : keepAll p children = children := keepAll_self h
    simp [keep, hc]
  | widget w => simp [keep, h w (by simp [widgets])]
theorem keepAll_self {p : SceneWidget → Bool} {ns : List SceneNode}
    (h : ∀ w ∈ widgetsAll ns, p w = true) : keepAll p ns = ns := by
  cases ns with
  | nil => rfl
  | cons n rest =>
    simp only [widgetsAll, List.mem_append] at h
    simp [keepAll, keep_self fun w hw => h w (.inl hw), keepAll_self fun w hw => h w (.inr hw)]
end

/-- Nothing is left out where a key does not occur. -/
theorem keep_absent {key : NodeKey} {n : SceneNode} (h : key ∉ n.widgets.map (·.key)) :
    n.keep (·.key ≠ key) = some n :=
  keep_self fun _ hw => decide_eq_true fun he => h (he ▸ List.mem_map_of_mem hw)

theorem keepAll_absent {key : NodeKey} {ns : List SceneNode}
    (h : key ∉ (widgetsAll ns).map (·.key)) : keepAll (·.key ≠ key) ns = ns :=
  keepAll_self fun _ hw => decide_eq_true fun he => h (he ▸ List.mem_map_of_mem hw)

-- ---------------------------------------------------------------------------
-- Removing
-- ---------------------------------------------------------------------------

/-- Dropping the children that are the widget itself. -/
theorem keepAll_eq_filter {key : NodeKey} {ns : List SceneNode}
    (hn : ((widgetsAll ns).map (·.key)).Nodup) (hw : ∃ n ∈ ns, n.isWidget key = true) :
    keepAll (·.key ≠ key) ns = ns.filter (!isWidget key ·) := by
  induction ns with
  | nil => obtain ⟨n, hn, -⟩ := hw; cases hn
  | cons n rest ih =>
    simp only [widgetsAll, List.map_append] at hn
    obtain ⟨-, hr, hd⟩ := List.nodup_append.mp hn
    by_cases h : n.isWidget key = true
    · obtain ⟨w, rfl, rfl⟩ := isWidget_iff.mp h
      have hm : w.key ∉ (widgetsAll rest).map (·.key) := fun hm =>
        hd w.key (by simp [widgets]) w.key hm rfl
      have hk : rest.filter (!isWidget w.key ·) = rest := by
        refine List.filter_eq_self.mpr fun m hmr => ?_
        rw [Bool.not_eq_true']
        exact Bool.eq_false_iff.mpr fun hi => hm (mem_widgetsAll_of_isWidget hmr hi)
      rw [List.filter_cons_of_neg (by simp [h]), hk, keepAll, keepAll_absent hm]
      simp [keep]
    · obtain ⟨m, hm, hi⟩ := hw
      have hmr : m ∈ rest := (List.mem_cons.mp hm).resolve_left fun he => h (he ▸ hi)
      have hkey := mem_widgetsAll_of_isWidget hmr hi
      rw [List.filter_cons_of_pos (by simp [h]), keepAll, ih hr ⟨m, hmr, hi⟩,
        keep_absent fun hk => hd key hk key hkey rfl]
      rfl

mutual
/-- Removing keeps all other widgets, and finds the one that it looks for. -/
theorem remove_keeps {key : NodeKey} {n : SceneNode} (hn : (n.widgets.map (·.key)).Nodup)
    (hw : n.isWidget key = false) :
    n.keep (·.key ≠ key) = some (n.remove key).1 ∧
      ((n.remove key).2 = true ↔ key ∈ n.widgets.map (·.key)) := by
  cases n with
  | widget w =>
    have hk : ¬w.key = key := by simpa [isWidget] using hw
    simp [remove, widgets, keep, hk, Ne.symm hk]
  | container frame children =>
    simp only [widgets] at hn
    unfold remove
    dsimp only
    split
    · next hl =>
      have ha : ∀ n ∈ children, n.isWidget key = false := by
        simpa using List.length_filter_eq_length_iff.mp hl
      simpa [keep, widgets] using removeAmong_keeps hn ha
    · next hl =>
      have he : ∃ n ∈ children, n.isWidget key = true := by
        simpa [List.length_filter_eq_length_iff] using hl
      obtain ⟨n, hm, hi⟩ := id he
      have hk := mem_widgetsAll_of_isWidget hm hi
      exact ⟨by rw [keep, keepAll_eq_filter hn he], by simpa [widgets] using hk⟩
theorem removeAmong_keeps {key : NodeKey} {ns : List SceneNode}
    (hn : ((widgetsAll ns).map (·.key)).Nodup) (hw : ∀ n ∈ ns, n.isWidget key = false) :
    keepAll (·.key ≠ key) ns = (removeAmong key ns).1 ∧
      ((removeAmong key ns).2 = true ↔ key ∈ (widgetsAll ns).map (·.key)) := by
  cases ns with
  | nil => simp [removeAmong, widgetsAll, keepAll]
  | cons n rest =>
    simp only [widgetsAll, List.map_append] at hn
    obtain ⟨hh, hr, hd⟩ := List.nodup_append.mp hn
    obtain ⟨h1, h2⟩ := remove_keeps hh (hw n List.mem_cons_self)
    obtain ⟨h3, h4⟩ := removeAmong_keeps hr fun m hm => hw m (List.mem_cons_of_mem _ hm)
    unfold removeAmong
    dsimp only
    split
    · next hf =>
      -- the search stops here, and the key does not occur in what is left
      have hk := h2.mp hf
      have hm : key ∉ (widgetsAll rest).map (·.key) := fun hm => hd key hk key hm rfl
      refine ⟨?_, by simp [widgetsAll, hk]⟩
      rw [keepAll, h1, keepAll_absent hm]
      rfl
    · next hf =>
      have hk : key ∉ n.widgets.map (·.key) := fun hk => hf (h2.mpr hk)
      refine ⟨?_, by rw [h4, widgetsAll, List.map_append, List.mem_append]; simp [hk]⟩
      rw [keepAll, h1, h3]
      rfl
end

end SceneNode

namespace Scene

theorem widgetsAll_toList (t : Scene) : SceneNode.widgetsAll t.toList = widgets t := by
  cases t <;> simp [widgets, SceneNode.widgetsAll]

def keep (p : SceneWidget → Bool) (t : Scene) : Scene := t.bind (SceneNode.keep p)

/-- The containers alone. -/
def outline (t : Scene) : Scene := keep (fun _ => false) t

theorem widgets_keep (p : SceneWidget → Bool) (t : Scene) :
    widgets (keep p t) = (widgets t).filter p := by
  cases t with
  | none => rfl
  | some n => rw [← widgetsAll_toList]; exact SceneNode.widgets_keep p n

theorem keep_keep (p q : SceneWidget → Bool) (t : Scene) :
    keep p (keep q t) = keep (fun w => q w && p w) t := by
  cases t with
  | none => rfl
  | some n => exact SceneNode.keep_keep p q n

theorem outline_keep (p : SceneWidget → Bool) (t : Scene) : outline (keep p t) = outline t := by
  simp [outline, keep_keep]

theorem keep_self {p : SceneWidget → Bool} {t : Scene} (h : ∀ w ∈ widgets t, p w = true) :
    keep p t = t := by
  cases t with
  | none => rfl
  | some n => exact SceneNode.keep_self h

theorem remove_keeps {t : Scene} (hn : ((widgets t).map (·.key)).Nodup) (key : NodeKey) :
    (remove t key).1 = keep (·.key ≠ key) t ∧
      ((remove t key).2 = true ↔ key ∈ (widgets t).map (·.key)) := by
  cases t with
  | none => simp [remove, keep, widgets]
  | some n =>
    unfold remove
    dsimp only
    split
    · next hi =>
      obtain ⟨w, rfl, rfl⟩ := SceneNode.isWidget_iff.mp hi
      simp [keep, SceneNode.keep, widgets, SceneNode.widgets]
    · next hi =>
      obtain ⟨h1, h2⟩ := SceneNode.remove_keeps hn (by simpa using hi)
      exact ⟨h1.symm, h2⟩

theorem widgets_remove {t : Scene} (hn : ((widgets t).map (·.key)).Nodup) (key : NodeKey) :
    widgets (remove t key).1 = without key (widgets t) := by
  rw [(remove_keeps hn key).1, widgets_keep]
  rfl

end Scene

end LiveLayout.Live
