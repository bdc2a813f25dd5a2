/-!
# Named fields in order

Lists of names with values, in the order in which the names were first given.
Putting a value under a present name replaces it in its place; a new name goes
last.
-/

namespace LiveLayout

abbrev Fields (α : Type u) := List (String × α)

namespace Fields

def get? : Fields α → String → Option α
  | [], _ => none
  | (k, v) :: rest, name => if k = name then some v else get? rest name

def put : Fields α → String → α → Fields α
  | [], name, v => [(name, v)]
  | (k, w) :: rest, name, v => if k = name then (k, v) :: rest else (k, w) :: put rest name v

def erase (fields : Fields α) (name : String) : Fields α := fields.filter (·.1 ≠ name)

def names (fields : Fields α) : List String := fields.map (·.1)

/-- Puts pairs one after the other. -/
def putAll (fields : Fields α) (pairs : List (String × α)) : Fields α :=
  pairs.foldl (fun fs p => put fs p.1 p.2) fields

def ofPairs (pairs : List (String × α)) : Fields α := putAll [] pairs

def mapValues (f : α → β) (fields : Fields α) : Fields β := fields.map fun p => (p.1, f p.2)

theorem get?_put (fields : Fields α) (name other : String) (v : α) :
    get? (put fields name v) other = if name = other then some v else get? fields other := by
  induction fields with
  | nil => simp [put, get?]
  | cons p rest ih =>
    obtain ⟨k, w⟩ := p
    by_cases h : k = name
    · subst h
      by_cases ho : k = other <;> simp [put, get?, ho]
    · by_cases ho : k = other
      · subst ho; simp [put, get?, h, Ne.symm h]
      · simp [put, get?, h, ho, ih]

theorem get?_erase_self (fields : Fields α) (name : String) : get? (erase fields name) name = none := by
  induction fields with
  | nil => rfl
  | cons p rest ih =>
    by_cases h : p.1 = name
    · simpa [erase, h] using ih
    · simpa [erase, h, get?] using ih

theorem get?_erase_of_ne {fields : Fields α} {name other : String} (h : other ≠ name) :
    get? (erase fields name) other = get? fields other := by
  induction fields with
  | nil => rfl
  | cons p rest ih =>
    by_cases hp : p.1 = name
    · have ho : p.1 ≠ other := fun ho => h (ho.symm.trans hp)
      simpa [erase, get?, hp, Ne.symm h] using ih
    · by_cases ho : p.1 = other
      · simp [erase, get?, ho, h]
      · simpa [erase, get?, hp, ho] using ih

theorem get?_eq_none {fields : Fields α} {name : String} :
    get? fields name = none ↔ name ∉ names fields := by
  induction fields with
  | nil => simp [get?, names]
  | cons p rest ih =>
    by_cases h : p.1 = name
    · simp [get?, names, h]
    · simpa [get?, names, h, Ne.symm h] using ih

theorem mem_of_get? {fields : Fields α} {name : String} {v : α} (h : get? fields name = some v) :
    (name, v) ∈ fields := by
  induction fields with
  | nil => cases h
  | cons p rest ih =>
    by_cases hp : p.1 = name
    · obtain rfl : p.2 = v := by simpa [get?, hp] using h
      exact hp ▸ List.mem_cons_self
    · exact List.mem_cons_of_mem _ (ih (by simpa [get?, hp] using h))

theorem get?_eq_some_iff {fields : Fields α} (hn : (names fields).Nodup) {name : String} {v : α} :
    get? fields name = some v ↔ (name, v) ∈ fields := by
  refine ⟨mem_of_get?, fun hm => ?_⟩
  induction fields with
  | nil => cases hm
  | cons p rest ih =>
    obtain ⟨hp, hn⟩ := List.nodup_cons.mp hn
    rcases List.mem_cons.mp hm with rfl | hm
    · simp [get?]
    · have hne : p.1 ≠ name := by
        rintro rfl
        exact hp (List.mem_map_of_mem (f := (·.1)) hm)
      simpa [get?, hne] using ih hn hm

theorem get?_mapValues (f : α → β) (fields : Fields α) (name : String) :
    get? (mapValues f fields) name = (get? fields name).map f := by
  induction fields with
  | nil => rfl
  | cons p rest ih =>
    by_cases h : p.1 = name
    · simp [mapValues, get?, h]
    · simpa [mapValues, get?, h] using ih

theorem get?_filter_self (fields : Fields α) (name : String) :
    get? (fields.filter (·.1 = name)) name = get? fields name := by
  induction fields with
  | nil => rfl
  | cons p rest ih =>
    by_cases h : p.1 = name
    · simp [get?, h]
    · simpa [get?, h] using ih

/-- What is put under one name is not seen under another. -/
theorem filter_put_of_ne {fields : Fields α} {name other : String} (h : name ≠ other) (v : α) :
    (put fields name v).filter (·.1 = other) = fields.filter (·.1 = other) := by
  induction fields with
  | nil => simp [put, h]
  | cons p rest ih =>
    by_cases hp : p.1 = name
    · simp [put, hp, h]
    · simp only [put, hp, if_false, List.filter_cons, ih]

theorem mapValues_erase (f : α → β) (fields : Fields α) (name : String) :
    mapValues f (erase fields name) = erase (mapValues f fields) name := by
  simp [mapValues, erase, List.filter_map, Function.comp_def]

theorem put_of_get?_none {fields : Fields α} {name : String} (h : get? fields name = none) (v : α) :
    put fields name v = fields ++ [(name, v)] := by
  induction fields with
  | nil => rfl
  | cons p rest ih =>
    by_cases hp : p.1 = name
    · simp [get?, hp] at h
    · simpa [put, hp] using ih (by simpa [get?, hp] using h)

theorem mem_put {fields : Fields α} {p : String × α} (h : p ∈ put fields name v) :
    p ∈ fields ∨ p = (name, v) := by
  induction fields with
  | nil => exact .inr (List.mem_singleton.mp h)
  | cons q rest ih =>
    by_cases hq : q.1 = name
    · simp only [put, hq, if_true, List.mem_cons] at h
      exact h.symm.imp_left (List.mem_cons_of_mem _)
    · simp only [put, hq, if_false, List.mem_cons] at h
      rcases h with rfl | h
      · exact .inl List.mem_cons_self
      · exact (ih h).imp_left (List.mem_cons_of_mem _)

theorem putAll_of_nodup {fields pairs : Fields α} (h : (names (fields ++ pairs)).Nodup) :
    putAll fields pairs = fields ++ pairs := by
  induction pairs generalizing fields with
  | nil => simp [putAll]
  | cons p rest ih =>
    have hp : get? fields p.1 = none := by
      rw [get?_eq_none]
      intro hm
      simp only [names, List.map_append, List.map_cons, List.nodup_append] at h
      exact h.2.2 p.1 hm p.1 List.mem_cons_self rfl
    have hr : putAll (put fields p.1 p.2) rest = fields ++ [p] ++ rest := by
      rw [put_of_get?_none hp]
      exact ih (by simpa using h)
    simpa [putAll] using hr

/-- Pairs with names that differ are fields as they are. -/
theorem ofPairs_of_nodup {pairs : Fields α} (h : (names pairs).Nodup) : ofPairs pairs = pairs :=
  putAll_of_nodup h

theorem names_put (fields : Fields α) (name : String) (v : α) :
    names (put fields name v) = if name ∈ names fields then names fields else names fields ++ [name] := by
  induction fields with
  | nil => simp [put, names]
  | cons p rest ih =>
    obtain ⟨k, w⟩ := p
    by_cases h : k = name
    · subst h; simp [put, names]
    · simp only [names] at ih
      simp only [put, h, if_false, names, List.map_cons, List.mem_cons, Ne.symm h, false_or, ih]
      split <;> simp_all

end Fields

end LiveLayout
