import LiveLayout.Proofs.Lifting

/-!
# Nothing short is left

A layout in full has no other names for fields, no handler's name for a binding
and no string for classes, and no component whose data source could still move.
-/

namespace LiveLayout.Layout

def lacksAliases (aliases : Fields String) : Json → Bool
  | .object fields => fields.all fun p => (Fields.get? aliases p.1).isNone
  | _ => true

def eventsInFull : Json → Bool
  | .object events => events.all fun p => p.2.string?.isNone
  | _ => true

def fieldInFull (name : String) (v : Json) : Bool :=
  if name = "dataSource" then lacksAliases remoteAliases v
  else if name = "cascade" then lacksAliases cascadeAliases v
  else if name = "events" then eventsInFull v
  else if name = "class" then v.string?.isNone
  else true

def componentInFull (fields : Fields Json) : Bool :=
  lacksAliases componentAliases (.object fields) && fields.all (fun p => fieldInFull p.1 p.2) &&
    (liftable? fields).isNone

mutual
def inFull : Json → Bool
  | .object fields =>
    match kind? fields with
    | some .container => frameInFull fields
    | some .component => componentInFull fields
    | none => true
  | _ => true
def frameInFull : List (String × Json) → Bool
  | [] => true
  | (name, v) :: rest =>
    (if name = "children" then childrenInFull v
      else if name = "class" then v.string?.isNone
      else true) && frameInFull rest
def childrenInFull : Json → Bool
  | .array items => itemsInFull items
  | _ => true
def itemsInFull : List Json → Bool
  | [] => true
  | v :: rest => inFull v && itemsInFull rest
end

-- ---------------------------------------------------------------------------
-- Components
-- ---------------------------------------------------------------------------

theorem mainName_notAlias (h : ∀ p ∈ aliases, Fields.get? aliases p.2 = none) (name : String) :
    Fields.get? aliases (mainName aliases name) = none := by
  unfold mainName
  cases hg : Fields.get? aliases name with
  | none => exact hg
  | some main => exact h (name, main) (Fields.mem_of_get? hg)

theorem lacksAliases_renamed (h : ∀ p ∈ aliases, Fields.get? aliases p.2 = none) (v : Json) :
    lacksAliases aliases (renamed aliases v) = true := by
  cases v with
  | object fields => simp [lacksAliases, renamed, mainName_notAlias h]
  | _ => rfl

theorem eventsInFull_fullEvents (v : Json) : eventsInFull (fullEvents v) = true := by
  have hb (v : Json) : (fullBindingJson v).string? = none := by cases v <;> rfl
  cases v with
  | object events => simp [eventsInFull, fullEvents, Fields.mapValues, hb]
  | _ => rfl

theorem string?_listedClasses (v : Json) : (listedClasses v).string? = none := by
  cases v <;> rfl

theorem fieldInFull_fullField (name : String) (v : Json) :
    fieldInFull name (fullField name v) = true := by
  unfold fieldInFull fullField
  split
  · exact lacksAliases_renamed (by decide) v
  split
  · exact lacksAliases_renamed (by decide) v
  split
  · exact eventsInFull_fullEvents v
  split
  · simp [string?_listedClasses]
  · rfl

theorem componentInFull_canonicalComponent (fields : Fields Json) :
    componentInFull (canonicalComponent fields) = true := by
  have hfull : ∀ p ∈ fullFields fields,
      Fields.get? componentAliases p.1 = none ∧ fieldInFull p.1 p.2 = true := by
    intro p hp
    obtain ⟨q, -, rfl⟩ := List.mem_map.mp hp
    exact ⟨mainName_notAlias (by decide) q.1, fieldInFull_fullField ..⟩
  have hall {written : Fields Json} (h : ∀ p ∈ written,
      Fields.get? componentAliases p.1 = none ∧ fieldInFull p.1 p.2 = true)
      (hl : liftable? written = none) : componentInFull written = true := by
    simp only [componentInFull, lacksAliases, Bool.and_eq_true, List.all_eq_true,
      Option.isNone_iff_eq_none]
    exact ⟨⟨fun p hp => (h p hp).1, fun p hp => (h p hp).2⟩, hl⟩
  unfold canonicalComponent
  dsimp only
  split
  · next props v hl =>
    refine hall (fun p hp => ?_) ?_
    · rcases Fields.mem_put hp with hp | rfl
      · rcases Fields.mem_put hp with hp | rfl
        · exact hfull p hp
        · exact ⟨rfl, rfl⟩
      · exact ⟨rfl, fieldInFull_fullField "dataSource" v⟩
    · obtain ⟨-, -, -, hv⟩ := liftable?_eq_some.mp hl
      refine Option.eq_none_iff_forall_ne_some.mpr fun found hfound => ?_
      obtain ⟨hnull, -⟩ := liftable?_eq_some.mp hfound
      rw [Fields.get?_put, if_pos rfl] at hnull
      -- what has moved is a list or an object, so it leaves no place for another
      cases v with
      | array | object => cases hnull
      | _ => cases hv
  · next hl => exact hall hfull hl

-- ---------------------------------------------------------------------------
-- Fields called `type`
-- ---------------------------------------------------------------------------

theorem filter_canonicalFrame (fields : Fields Json) :
    (canonicalFrame fields).filter (·.1 = "type") = fields.filter (·.1 = "type") := by
  induction fields with
  | nil => rfl
  | cons p rest ih =>
    obtain ⟨name, v⟩ := p
    by_cases hp : name = "type"
    · subst hp
      simp [canonicalFrame, ih]
    · simp [canonicalFrame, hp, ih]

theorem filter_canonicalComponent (fields : Fields Json) :
    (canonicalComponent fields).filter (·.1 = "type") = fields.filter (·.1 = "type") := by
  unfold canonicalComponent
  dsimp only
  split
  · rw [Fields.filter_put_of_ne (by simp), Fields.filter_put_of_ne (by simp),
      filter_fullFields (by decide) fun _ => rfl]
  · exact filter_fullFields (by decide) (fun _ => rfl) fields

theorem kind?_filter (fields : Fields Json) :
    kind? fields = kind? (fields.filter (·.1 = "type")) := by
  rw [kind?, kind?, Fields.get?_filter_self]

/-- A node in full is of the kind that it was. -/
theorem kind?_canonical {fields fields' : Fields Json}
    (hf : fields'.filter (·.1 = "type") = fields.filter (·.1 = "type")) :
    kind? fields' = kind? fields := by
  rw [kind?_filter, hf, ← kind?_filter]

-- ---------------------------------------------------------------------------
-- Trees
-- ---------------------------------------------------------------------------

mutual
theorem inFull_canonical (v : Json) : inFull (canonical v) = true := by
  cases v with
  | object fields =>
    cases hk : kind? fields with
    | none => simp only [canonical, hk, inFull]
    | some t =>
      cases t with
      | container =>
        have hk' := (kind?_canonical (filter_canonicalFrame fields)).trans hk
        simpa only [canonical, hk, inFull, hk'] using frameInFull_canonicalFrame fields
      | component =>
        have hk' := (kind?_canonical (filter_canonicalComponent fields)).trans hk
        simpa only [canonical, hk, inFull, hk'] using componentInFull_canonicalComponent fields
  | _ => rfl
theorem frameInFull_canonicalFrame (fields : List (String × Json)) :
    frameInFull (canonicalFrame fields) = true := by
  cases fields with
  | nil => rfl
  | cons p rest =>
    obtain ⟨name, v⟩ := p
    refine Bool.and_eq_true_iff.mpr ⟨?_, frameInFull_canonicalFrame rest⟩
    split
    · next hn => simpa only [if_pos hn] using childrenInFull_canonicalChildren v
    · next hn =>
      split
      · simp [string?_listedClasses]
      · rfl
theorem childrenInFull_canonicalChildren (v : Json) :
    childrenInFull (canonicalChildren v) = true := by
  cases v with
  | array items => exact itemsInFull_canonicalItems items
  | _ => rfl
theorem itemsInFull_canonicalItems (items : List Json) :
    itemsInFull (canonicalItems items) = true := by
  cases items with
  | nil => rfl
  | cons v rest =>
    exact Bool.and_eq_true_iff.mpr ⟨inFull_canonical v, itemsInFull_canonicalItems rest⟩
end

end LiveLayout.Layout
