import Mathlib.Logic.Relation
import LiveLayout.Layout.Check

/-!
# What a check promises

A layout that is not rejected declares every id once, and nobody follows
itself, over however many others.
-/

namespace LiveLayout.Layout

-- ---------------------------------------------------------------------------
-- Ids
-- ---------------------------------------------------------------------------

theorem firstRepeated_eq_none {seen ids : List String} :
    firstRepeated seen ids = none ↔ ids.Nodup ∧ ∀ id ∈ ids, id ∉ seen := by
  induction ids generalizing seen with
  | nil => simp [firstRepeated]
  | cons id rest ih =>
    by_cases h : id ∈ seen
    · simp [firstRepeated, h]
    · simp only [firstRepeated, h, if_false, ih, List.nodup_cons, List.mem_cons, forall_eq_or_imp,
        not_or, not_false_eq_true, true_and]
      constructor
      · rintro ⟨hn, hs⟩
        exact ⟨⟨fun hm => (hs id hm).1 rfl, hn⟩, fun a ha => (hs a ha).2⟩
      · rintro ⟨⟨hm, hn⟩, hs⟩
        exact ⟨hn, fun a ha => ⟨fun he => hm (he ▸ ha), hs a ha⟩⟩

-- ---------------------------------------------------------------------------
-- Cycles
-- ---------------------------------------------------------------------------

def Linked (links : Fields String) (id parent : String) : Prop := (id, parent) ∈ links

/-- No id comes back to itself by links. -/
def Acyclic (links : Fields String) : Prop := ∀ id, ¬Relation.TransGen (Linked links) id id

/-- Following links from an id comes to an end. -/
def Ends (links : Fields String) (id : String) : Prop :=
  Acc (fun parent child => Linked links child parent) id

theorem Acyclic.sublist {links fewer : Fields String} (h : Acyclic links)
    (hs : fewer.Sublist links) : Acyclic fewer :=
  fun id hc => h id (Relation.TransGen.mono (fun _ _ hl => hs.mem hl) _ _ hc)

/-- What comes to an end does not come back. -/
theorem Ends.not_transGen {links : Fields String} {id : String} (h : Ends links id) :
    ¬Relation.TransGen (Linked links) id id := by
  intro hc
  have hr : Relation.TransGen (fun parent child => Linked links child parent) id id :=
    Relation.transGen_swap.mpr hc
  have ha := Acc.transGen h
  clear h hc
  induction ha with
  | intro a _ ih => exact ih a hr hr

theorem ends_of_unlinked {links : Fields String} {id : String}
    (h : Fields.get? links id = none) : Ends links id := by
  refine .intro _ fun parent hl => absurd ?_ (Fields.get?_eq_none.mp h)
  exact List.mem_map_of_mem (f := (·.1)) hl

theorem ends_of_linked {links : Fields String} {id parent : String}
    (hn : (Fields.names links).Nodup) (h : Fields.get? links id = some parent)
    (he : Ends links parent) : Ends links id := by
  refine .intro _ fun other hl => ?_
  have ho := (Fields.get?_eq_some_iff hn).mpr hl
  obtain rfl : parent = other := Option.some.inj (h.symm.trans ho)
  exact he

/-- The links that are left agree with all links off the path, so a walk that
succeeds is a walk along all links. -/
theorem follow_ok {links left : Fields String} {id : String} (hn : (Fields.names links).Nodup)
    (hl : ∀ x, x ∉ path → Fields.get? left x = Fields.get? links x)
    (hf : ∀ x ∈ fine, Ends links x) (h : follow left fine path id = .ok walked) :
    Ends links id ∧ ∀ x ∈ walked, x ∈ path ∨ Ends links x := by
  fun_induction follow left fine path id with
  | case1 left path id hfine =>
    cases h
    exact ⟨hf id hfine, fun x hx => .inl hx⟩
  | case2 => cases h
  | case3 left path id hfine hpath hnone =>
    cases h
    have he : Ends links id := ends_of_unlinked (hl id hpath ▸ hnone)
    refine ⟨he, fun x hx => ?_⟩
    rcases List.mem_append.mp hx with hx | hx
    · exact .inl hx
    · exact .inr (List.mem_singleton.mp hx ▸ he)
  | case4 left path id hfine hpath parent hsome ih =>
    have hl' : ∀ x, x ∉ path ++ [id] →
        Fields.get? (Fields.erase left id) x = Fields.get? links x := by
      intro x hx
      simp only [List.mem_append, List.mem_singleton, not_or] at hx
      rw [Fields.get?_erase_of_ne hx.2, hl x hx.1]
    obtain ⟨hp, hw⟩ := ih hl' h
    have he : Ends links id := ends_of_linked hn (hl id hpath ▸ hsome) hp
    refine ⟨he, fun x hx => ?_⟩
    rcases hw x hx with hx | hx
    · rcases List.mem_append.mp hx with hx | hx
      · exact .inl hx
      · exact .inr (List.mem_singleton.mp hx ▸ he)
    · exact .inr hx

theorem followAll_ok {links : Fields String} (hn : (Fields.names links).Nodup)
    (hf : ∀ x ∈ fine, Ends links x) (h : followAll links fine ids = .ok u) :
    ∀ id ∈ ids, Ends links id := by
  induction ids generalizing fine with
  | nil => simp
  | cons id rest ih =>
    unfold followAll at h
    cases hw : follow links fine [] id with
    | error path => rw [hw] at h; cases h
    | ok walked =>
      rw [hw] at h
      obtain ⟨he, hw⟩ := follow_ok hn (fun _ _ => rfl) hf hw
      have hf' : ∀ x ∈ fine ++ walked, Ends links x := by
        intro x hx
        rcases List.mem_append.mp hx with hx | hx
        · exact hf x hx
        · exact (hw x hx).resolve_left (List.not_mem_nil)
      intro a ha
      rcases List.mem_cons.mp ha with rfl | ha
      · exact he
      · exact ih hf' h a ha

-- ---------------------------------------------------------------------------
-- Links of components
-- ---------------------------------------------------------------------------

theorem mem_links {components : List Component} {id parent : String} :
    (id, parent) ∈ links components ↔
      ∃ c ∈ components, c.id = some id ∧ ∃ cascade, c.cascade = some cascade ∧
        cascade.parent = parent := by
  simp only [links, List.mem_filterMap, Option.bind_eq_bind, Option.bind_eq_some_iff, pure,
    Option.some.injEq, Prod.mk.injEq]
  constructor
  · rintro ⟨c, hc, _, hi, cascade, hk, rfl, hp⟩
    exact ⟨c, hc, hi, cascade, hk, hp⟩
  · rintro ⟨c, hc, hi, cascade, hk, hp⟩
    exact ⟨c, hc, id, hi, cascade, hk, rfl, hp⟩

theorem names_links_sublist (components : List Component) :
    (Fields.names (links components)).Sublist (declaredIds components) := by
  induction components with
  | nil => exact .slnil
  | cons c rest ih =>
    cases hi : c.id with
    | none => simpa [links, declaredIds, Fields.names, hi] using ih
    | some id =>
      cases hc : c.cascade with
      | none => simpa [links, declaredIds, Fields.names, hi, hc] using ih.cons id
      | some cascade => simpa [links, declaredIds, Fields.names, hi, hc] using ih.cons_cons id

theorem links_sublist {fewer components : List Component} (h : fewer.Sublist components) :
    (links fewer).Sublist (links components) := h.filterMap _

/-- What holds of the components of every layout that is not rejected. -/
structure Usable (components : List Component) : Prop where
  ids : (declaredIds components).Nodup
  acyclic : Acyclic (links components)

theorem Usable.sublist {components fewer : List Component} (h : Usable components)
    (hs : fewer.Sublist components) : Usable fewer :=
  ⟨h.ids.sublist (hs.filterMap _), h.acyclic.sublist (links_sublist hs)⟩

theorem check_ok {tree : Node} (h : check tree = .ok concerns) : Usable tree.components := by
  unfold check at h
  cases hr : firstRepeated [] (declaredIds tree.components) with
  | some id => simp [hr] at h
  | none =>
    have hi := (firstRepeated_eq_none.mp hr).1
    cases hc : followAll (links tree.components) [] (declaredIds tree.components) with
    | error path => simp [hr, hc] at h
    | ok u =>
      have hn := hi.sublist (names_links_sublist tree.components)
      have he := followAll_ok hn (by simp) hc
      refine ⟨hi, fun id hc => ?_⟩
      -- an id on a cycle has a link, so a component declares it
      obtain ⟨parent, hl, -⟩ := Relation.TransGen.head'_iff.mp hc
      have hm : id ∈ declaredIds tree.components :=
        (names_links_sublist _).mem (List.mem_map_of_mem (f := (·.1)) hl)
      exact (he id hm).not_transGen hc

end LiveLayout.Layout
