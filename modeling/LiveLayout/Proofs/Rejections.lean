import Mathlib.Data.List.Chain
import LiveLayout.Proofs.CheckLaws

/-!
# Which layouts are rejected

A layout is rejected for just two reasons, and the rejection shows the reason:
the first id in document order that was declared before, or, where all ids
differ, a cycle of components that follow one another. A walk that is cut short
where it meets an earlier one misses no cycle, since the earlier one came to an
end.
-/

namespace LiveLayout.Layout

open Relation (TransGen)

-- ---------------------------------------------------------------------------
-- Repeated ids
-- ---------------------------------------------------------------------------

/-- Two components have the id. -/
def DeclaredTwice (components : List Component) (id : String) : Prop :=
  ∃ before c between d after, components = before ++ c :: between ++ d :: after ∧
    c.id = some id ∧ d.id = some id

/-- The first component whose id was declared before it has this id: those before
it all have different ones. -/
def FirstRepeat (components : List Component) (id : String) : Prop :=
  ∃ before c after, components = before ++ c :: after ∧ c.id = some id ∧
    id ∈ declaredIds before ∧ (declaredIds before).Nodup

theorem declaredIds_append (cs ds : List Component) :
    declaredIds (cs ++ ds) = declaredIds cs ++ declaredIds ds := List.filterMap_append

theorem declaredIds_cons (c : Component) (cs : List Component) :
    declaredIds (c :: cs) = c.id.toList ++ declaredIds cs := by
  cases hi : c.id <;> simp [declaredIds, hi]

theorem mem_declaredIds {components : List Component} {id : String} :
    id ∈ declaredIds components ↔ ∃ c ∈ components, c.id = some id := List.mem_filterMap

theorem firstRepeated_eq_some {seen ids : List String} {id : String} (hs : seen.Nodup) :
    firstRepeated seen ids = some id ↔ ∃ before after, ids = before ++ id :: after ∧
      id ∈ seen ++ before ∧ (seen ++ before).Nodup := by
  induction ids generalizing seen with
  | nil => simp [firstRepeated]
  | cons a rest ih =>
    by_cases ha : a ∈ seen
    · simp only [firstRepeated, if_pos ha, Option.some.injEq]
      constructor
      · rintro rfl
        exact ⟨[], rest, rfl, by simpa using ha, by simpa using hs⟩
      · rintro ⟨before, after, he, -, hn⟩
        cases before with
        | nil => exact (List.cons.inj he).1
        | cons b before =>
          obtain rfl := (List.cons.inj he).1
          exact absurd rfl ((List.nodup_append.mp hn).2.2 a ha a List.mem_cons_self)
    · -- an id passed over is seen from then on
      have hp (before : List String) : (seen ++ a :: before).Perm (a :: seen ++ before) :=
        List.perm_middle
      simp only [firstRepeated, if_neg ha]
      rw [ih (List.nodup_cons.mpr ⟨ha, hs⟩)]
      constructor
      · rintro ⟨before, after, rfl, hm, hn⟩
        exact ⟨a :: before, after, rfl, (hp before).mem_iff.mpr hm, (hp before).nodup_iff.mpr hn⟩
      · rintro ⟨before, after, he, hm, hn⟩
        cases before with
        | nil =>
          obtain rfl := (List.cons.inj he).1
          exact absurd (by simpa using hm) ha
        | cons b before =>
          obtain ⟨rfl, rfl⟩ := List.cons.inj he
          exact ⟨before, after, rfl, (hp before).mem_iff.mp hm, (hp before).nodup_iff.mp hn⟩

/-- A list of declared ids that is split is the ids of a list of components that
is split. -/
theorem declaredIds_eq_append_cons {components : List Component} {id : String}
    (h : declaredIds components = ids ++ id :: more) :
    ∃ before c after, components = before ++ c :: after ∧ c.id = some id ∧
      declaredIds before = ids ∧ declaredIds after = more := by
  induction components generalizing ids with
  | nil => cases ids <;> cases h
  | cons c rest ih =>
    rw [declaredIds_cons] at h
    cases hi : c.id with
    | none =>
      rw [hi] at h
      obtain ⟨before, d, after, rfl, hd, hb, ha⟩ := ih h
      exact ⟨c :: before, d, after, rfl, hd, by rw [declaredIds_cons, hi, ← hb]; rfl, ha⟩
    | some a =>
      rw [hi] at h
      cases ids with
      | nil =>
        obtain ⟨rfl, hr⟩ := List.cons.inj h
        exact ⟨[], c, rest, rfl, hi, rfl, hr⟩
      | cons b ids =>
        obtain ⟨rfl, hr⟩ := List.cons.inj h
        obtain ⟨before, d, after, rfl, hd, hb, ha⟩ := ih hr
        exact ⟨c :: before, d, after, rfl, hd, by rw [declaredIds_cons, hi, ← hb]; rfl, ha⟩

theorem firstRepeated_declaredIds {components : List Component} {id : String} :
    firstRepeated [] (declaredIds components) = some id ↔ FirstRepeat components id := by
  rw [firstRepeated_eq_some .nil]
  constructor
  · rintro ⟨ids, more, he, hm, hn⟩
    obtain ⟨before, c, after, hc, hi, rfl, -⟩ := declaredIds_eq_append_cons he
    exact ⟨before, c, after, hc, hi, hm, hn⟩
  · rintro ⟨before, c, after, rfl, hi, hm, hn⟩
    refine ⟨declaredIds before, declaredIds after, ?_, hm, hn⟩
    rw [declaredIds_append, declaredIds_cons, hi]
    rfl

/-- Ids are declared once exactly if no id is declared twice. -/
theorem nodup_declaredIds {components : List Component} :
    (declaredIds components).Nodup ↔ ∀ id, ¬DeclaredTwice components id := by
  constructor
  · rintro hn id ⟨before, c, between, d, after, rfl, hc, hd⟩
    have hm : id ∈ declaredIds (before ++ c :: between) :=
      mem_declaredIds.mpr ⟨c, by simp, hc⟩
    rw [declaredIds_append, List.nodup_append] at hn
    exact hn.2.2 id hm id (mem_declaredIds.mpr ⟨d, List.mem_cons_self, hd⟩) rfl
  · intro h
    refine (firstRepeated_eq_none.mp (?_ : firstRepeated [] _ = none)).1
    refine Option.eq_none_iff_forall_ne_some.mpr fun id hf => ?_
    obtain ⟨before, d, after, rfl, hd, hm, -⟩ := firstRepeated_declaredIds.mp hf
    obtain ⟨c, hc, hi⟩ := mem_declaredIds.mp hm
    obtain ⟨first, between, rfl⟩ := List.append_of_mem hc
    exact h id ⟨first, c, between, d, after, rfl, hi, hd⟩

-- ---------------------------------------------------------------------------
-- Cycles
-- ---------------------------------------------------------------------------

/-- A component with the id cascades from the parent. -/
def LeadsTo (components : List Component) (id parent : String) : Prop :=
  ∃ c ∈ components, c.id = some id ∧ ∃ cascade, c.cascade = some cascade ∧ cascade.parent = parent

theorem linked_links (components : List Component) :
    Linked (links components) = LeadsTo components := by
  funext id parent
  exact propext mem_links

/-- A path that steps from one entry to the next and comes back to where it
starts, and to no other entry before that. -/
structure SimpleCycle (step : String → String → Prop) (path : List String) : Prop where
  length : 2 ≤ path.length
  closed : path.head? = path.getLast?
  distinct : path.dropLast.Nodup
  linked : path.IsChain step

theorem SimpleCycle.transGen {step : String → String → Prop} (h : SimpleCycle step path) :
    ∃ id, TransGen step id id := by
  obtain ⟨hl, hc, -, hs⟩ := h
  match path, hl with
  | a :: b :: rest, _ =>
    obtain ⟨hab, hs⟩ := List.isChain_cons_cons.mp hs
    have he : (b :: rest).getLast (List.cons_ne_nil b rest) = a := by
      rw [List.head?_cons, List.getLast?_cons_cons, List.getLast?_eq_some_getLast] at hc
      exact (Option.some.inj hc).symm
    exact ⟨a, .head' hab (List.relationReflTransGen_of_exists_isChain_cons rest hs he)⟩

/-- A walk along the links, to its end: it stops at a place that is known to be
fine, where it meets its own path, or where no link goes on. -/
inductive Walks (next : String → Option String) (fine : List String) :
    List String → String → Except (List String) (List String) → Prop
  | known {path : List String} {id : String} (hf : id ∈ fine) : Walks next fine path id (.ok path)
  | closes {path : List String} {id : String} (hf : id ∉ fine) (hp : id ∈ path) :
      Walks next fine path id (.error (path.dropWhile (· ≠ id) ++ [id]))
  | stops {path : List String} {id : String} (hf : id ∉ fine) (hp : id ∉ path)
      (hn : next id = none) : Walks next fine path id (.ok (path ++ [id]))
  | goes {path : List String} {id parent : String} {outcome : Except (List String) (List String)}
      (hf : id ∉ fine) (hp : id ∉ path) (hn : next id = some parent)
      (hw : Walks next fine (path ++ [id]) parent outcome) : Walks next fine path id outcome

/-- Links behind a walk are of no use to it: taking them away changes nothing. -/
theorem follow_walks {links left : Fields String} {fine path : List String} {id : String}
    (hl : ∀ x, x ∉ path → Fields.get? left x = Fields.get? links x) :
    Walks (Fields.get? links) fine path id (follow left fine path id) := by
  fun_induction follow left fine path id with
  | case1 left path id hfine => exact .known hfine
  | case2 left path id hfine hpath => exact .closes hfine hpath
  | case3 left path id hfine hpath hnone => exact .stops hfine hpath (hl id hpath ▸ hnone)
  | case4 left path id hfine hpath parent hsome ih =>
    refine .goes hfine hpath (hl id hpath ▸ hsome) (ih fun x hx => ?_)
    simp only [List.mem_append, List.mem_singleton, not_or] at hx
    rw [Fields.get?_erase_of_ne hx.2, hl x hx.1]

theorem exists_dropWhile_ne {path : List String} {id : String} (h : id ∈ path) :
    ∃ rest, path.dropWhile (· ≠ id) = id :: rest := by
  induction path with
  | nil => cases h
  | cons a path ih =>
    by_cases ha : a = id
    · exact ⟨path, by simp [ha]⟩
    · obtain ⟨rest, hr⟩ := ih ((List.mem_cons.mp h).resolve_left (Ne.symm ha))
      exact ⟨rest, by simpa [ha] using hr⟩

/-- A walk that meets its own path has found a simple cycle. -/
theorem Walks.simpleCycle {links : Fields String} {fine path : List String} {id : String}
    (hn : path.Nodup) (hc : (path ++ [id]).IsChain (Linked links))
    (h : Walks (Fields.get? links) fine path id (.error cycle)) :
    SimpleCycle (Linked links) cycle := by
  generalize ho : (Except.error cycle : Except (List String) (List String)) = outcome at h
  induction h with
  | known | stops => cases ho
  | @closes path id hf hp =>
    obtain rfl := Except.error.inj ho
    obtain ⟨rest, hr⟩ : ∃ rest, path.dropWhile (· ≠ id) = id :: rest :=
      exists_dropWhile_ne hp
    have hs : (id :: rest) <:+ path := hr ▸ List.dropWhile_suffix _
    rw [hr]
    refine ⟨by simp, List.getLast?_concat.symm, ?_, ?_⟩
    · rw [List.dropLast_concat]
      exact hn.sublist hs.sublist
    · obtain ⟨start, rfl⟩ := hs
      rw [List.append_assoc] at hc
      exact hc.right_of_append
  | @goes path id parent outcome hf hp hs hw ih =>
    refine ih ?_ ?_ ho
    · rw [List.nodup_append]
      exact ⟨hn, by simp, fun a ha b hb hab => hp (List.mem_singleton.mp hb ▸ hab ▸ ha)⟩
    · refine hc.append (List.isChain_singleton parent) fun a ha b hb => ?_
      obtain rfl : id = a := by simpa using ha
      obtain rfl : parent = b := by simpa using hb
      exact Fields.mem_of_get? hs

-- ---------------------------------------------------------------------------
-- Checking
-- ---------------------------------------------------------------------------

theorem followAll_error {links : Fields String} (h : followAll links fine ids = .error cycle) :
    SimpleCycle (Linked links) cycle := by
  induction ids generalizing fine with
  | nil => cases h
  | cons id rest ih =>
    unfold followAll at h
    cases hw : follow links fine [] id with
    | error path =>
      rw [hw] at h
      cases h
      have hf : Walks (Fields.get? links) fine [] id (follow links fine [] id) :=
        follow_walks fun _ _ => rfl
      exact (hw ▸ hf).simpleCycle .nil (.singleton id)
    | ok path =>
      rw [hw] at h
      exact ih h

theorem check_eq_duplicateId {tree : Node} {id : String} :
    check tree = .error (.duplicateId id) ↔ FirstRepeat tree.components id := by
  rw [← firstRepeated_declaredIds]
  simp only [check]
  cases firstRepeated [] (declaredIds tree.components) with
  | some other => simp
  | none => cases followAll (links tree.components) [] (declaredIds tree.components) <;> simp

theorem exists_firstRepeat {components : List Component} :
    (∃ id, FirstRepeat components id) ↔ ∃ id, DeclaredTwice components id := by
  have hn : (∀ id, ¬FirstRepeat components id) ↔ ∀ id, ¬DeclaredTwice components id := by
    have hf : firstRepeated [] (declaredIds components) = none ↔ _ := firstRepeated_eq_none
    simp only [List.not_mem_nil, not_false_eq_true, implies_true, and_true] at hf
    rw [← nodup_declaredIds, ← hf, Option.eq_none_iff_forall_ne_some]
    simp only [ne_eq, firstRepeated_declaredIds]
  simpa using not_congr hn

/-- The three ways in which a check can end. -/
theorem check_cases (tree : Node) :
    ((∃ id, check tree = .error (.duplicateId id)) ∧ ∃ id, DeclaredTwice tree.components id) ∨
    ((∀ id, ¬DeclaredTwice tree.components id) ∧ ∃ path, check tree = .error (.cascadeCycle path) ∧
      SimpleCycle (LeadsTo tree.components) path) ∨
    ((∀ id, ¬DeclaredTwice tree.components id) ∧ (∃ concerns, check tree = .ok concerns) ∧
      ∀ id, ¬TransGen (LeadsTo tree.components) id id) := by
  by_cases hd : ∃ id, DeclaredTwice tree.components id
  · refine .inl ⟨?_, hd⟩
    simpa only [check_eq_duplicateId, exists_firstRepeat] using hd
  · have hd : ∀ id, ¬DeclaredTwice tree.components id := not_exists.mp hd
    have hr : firstRepeated [] (declaredIds tree.components) = none :=
      firstRepeated_eq_none.mpr ⟨nodup_declaredIds.mpr hd, by simp⟩
    cases hf : followAll (links tree.components) [] (declaredIds tree.components) with
    | error path =>
      refine .inr (.inl ⟨hd, path, by simp [check, hr, hf], ?_⟩)
      exact linked_links _ ▸ followAll_error hf
    | ok =>
      have hc : check tree = .ok (tree.components.flatMap
        (Component.concerns (declaredIds tree.components))) := by simp [check, hr, hf]
      exact .inr (.inr ⟨hd, ⟨_, hc⟩, linked_links _ ▸ (check_ok hc).acyclic⟩)

theorem exists_cascadeCycle (tree : Node) :
    (∃ path, check tree = .error (.cascadeCycle path)) ↔
      (∀ id, ¬DeclaredTwice tree.components id) ∧
        ∃ id, TransGen (LeadsTo tree.components) id id := by
  rcases check_cases tree with ⟨⟨id, hc⟩, hd⟩ | ⟨hd, path, hc, hs⟩ | ⟨hd, ⟨concerns, hc⟩, ha⟩
  · simpa [hc] using fun hn => absurd hd (not_exists.mpr hn)
  · exact ⟨fun _ => ⟨hd, hs.transGen⟩, fun _ => ⟨path, hc⟩⟩
  · simp [hc, ha]

theorem exists_concerns (tree : Node) :
    (∃ concerns, check tree = .ok concerns) ↔ (∀ id, ¬DeclaredTwice tree.components id) ∧
      ∀ id, ¬TransGen (LeadsTo tree.components) id id := by
  rcases check_cases tree with ⟨⟨id, hc⟩, hd⟩ | ⟨hd, path, hc, hs⟩ | ⟨hd, ⟨concerns, hc⟩, ha⟩
  · simpa [hc] using fun hn => absurd hd (not_exists.mpr hn)
  · simpa [hc] using fun _ => hs.transGen
  · exact ⟨fun _ => ⟨hd, ha⟩, fun _ => ⟨concerns, hc⟩⟩

theorem simpleCycle_of_check {tree : Node} (h : check tree = .error (.cascadeCycle path)) :
    SimpleCycle (LeadsTo tree.components) path := by
  rcases check_cases tree with ⟨⟨id, hc⟩, -⟩ | ⟨-, other, hc, hs⟩ | ⟨-, ⟨concerns, hc⟩, -⟩
  · cases hc.symm.trans h
  · cases hc.symm.trans h
    exact hs
  · cases hc.symm.trans h

/-- A layout is rejected for a repeated id just if two components have one id,
and the rejection names the first, in the order of a walk through the tree, that
was declared before. Otherwise it is rejected for a cycle just if some component
follows itself, and the rejection shows a simple cycle. Otherwise it is usable.
Every walk along the links comes to its end, whatever was walked before. -/
theorem check_decides (tree : Node) :
    tree.components = tree.walk.filterMap Node.component? ∧
    (∀ id, check tree = .error (.duplicateId id) ↔ FirstRepeat tree.components id) ∧
    ((∃ id, check tree = .error (.duplicateId id)) ↔
      ∃ id, DeclaredTwice tree.components id) ∧
    ((∃ path, check tree = .error (.cascadeCycle path)) ↔
      (∀ id, ¬DeclaredTwice tree.components id) ∧
        ∃ id, TransGen (LeadsTo tree.components) id id) ∧
    (∀ path, check tree = .error (.cascadeCycle path) →
      SimpleCycle (LeadsTo tree.components) path) ∧
    ((∃ concerns, check tree = .ok concerns) ↔
      (∀ id, ¬DeclaredTwice tree.components id) ∧
        ∀ id, ¬TransGen (LeadsTo tree.components) id id) ∧
    ∀ fine id, Walks (Fields.get? (links tree.components)) fine [] id
      (follow (links tree.components) fine [] id) := by
  have hd : (∃ id, check tree = .error (.duplicateId id)) ↔
      ∃ id, DeclaredTwice tree.components id := by
    simp only [check_eq_duplicateId, exists_firstRepeat]
  exact ⟨tree.components_eq_walk, fun id => check_eq_duplicateId, hd, exists_cascadeCycle tree,
    fun path => simpleCycle_of_check, exists_concerns tree,
    fun fine id => follow_walks fun _ _ => rfl⟩

end LiveLayout.Layout
