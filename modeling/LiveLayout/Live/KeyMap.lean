import LiveLayout.Live.Widget

/-!
# Maps from node keys

What is kept for each of some nodes, in ascending order of their keys, which is
the order in which they were mounted.
-/

namespace LiveLayout.Live

abbrev KeyMap (α : Type) := List (NodeKey × α)

namespace KeyMap

def get? : KeyMap α → NodeKey → Option α
  | [], _ => none
  | (k, v) :: rest, key => if k = key then some v else get? rest key

def insert : KeyMap α → NodeKey → α → KeyMap α
  | [], key, v => [(key, v)]
  | (k, w) :: rest, key, v =>
    if k = key then (key, v) :: rest
    else if key.ordinal < k.ordinal then (key, v) :: (k, w) :: rest
    else (k, w) :: insert rest key v

def erase (m : KeyMap α) (key : NodeKey) : KeyMap α := m.filter (·.1 ≠ key)

def keys (m : KeyMap α) : List NodeKey := m.map (·.1)

theorem get?_insert (m : KeyMap α) (key other : NodeKey) (v : α) :
    get? (insert m key v) other = if key = other then some v else get? m other := by
  induction m with
  | nil => simp [insert, get?]
  | cons p rest ih =>
    obtain ⟨k, w⟩ := p
    unfold insert
    split
    · next h =>
      subst h
      by_cases ho : k = other <;> simp [get?, ho]
    · split
      · simp [get?]
      · by_cases ho : k = other
        · subst ho; simp_all [get?, eq_comm]
        · simp [get?, ho, ih]

theorem get?_erase (m : KeyMap α) (key other : NodeKey) :
    get? (erase m key) other = if key = other then none else get? m other := by
  induction m with
  | nil => simp [erase, get?]
  | cons p rest ih =>
    obtain ⟨k, w⟩ := p
    by_cases h : k = key
    · subst h
      by_cases ho : k = other
      · subst ho; simpa [erase, get?] using ih
      · simpa [erase, get?, ho] using ih
    · by_cases ho : k = other
      · subst ho; simp [erase, get?, h, Ne.symm h]
      · simpa [erase, get?, h, ho] using ih

/-- Keys ascend, as they do when they are given in this order. -/
def Rising (m : KeyMap α) : Prop := m.Pairwise fun p q => p.1.ordinal < q.1.ordinal

theorem mem_of_get? {m : KeyMap α} {key : NodeKey} {v : α} (h : get? m key = some v) :
    (key, v) ∈ m := by
  induction m with
  | nil => cases h
  | cons p rest ih =>
    by_cases hp : p.1 = key
    · obtain rfl : p.2 = v := by simpa [get?, hp] using h
      exact hp ▸ List.mem_cons_self
    · exact List.mem_cons_of_mem _ (ih (by simpa [get?, hp] using h))

theorem get?_map (f : α → β) (m : KeyMap α) (key : NodeKey) :
    get? (m.map fun p => (p.1, f p.2)) key = (get? m key).map f := by
  induction m with
  | nil => rfl
  | cons p rest ih => by_cases h : p.1 = key <;> simp [get?, h, ih]

theorem insert_append (m : KeyMap α) (key : NodeKey) (v : α)
    (h : ∀ p ∈ m, p.1.ordinal < key.ordinal) : insert m key v = m ++ [(key, v)] := by
  induction m with
  | nil => rfl
  | cons p rest ih =>
    have hp := h p List.mem_cons_self
    have hne : p.1 ≠ key := fun he => Nat.lt_irrefl _ (he ▸ hp)
    simp [insert, hne, Nat.not_lt.mpr (Nat.le_of_lt hp),
      ih fun q hq => h q (List.mem_cons_of_mem _ hq)]

theorem map_insert (f : α → β) (m : KeyMap α) (key : NodeKey) (v : α) :
    (insert m key v).map (fun p => (p.1, f p.2)) =
      insert (m.map fun p => (p.1, f p.2)) key (f v) := by
  induction m with
  | nil => rfl
  | cons p rest ih =>
    by_cases h : p.1 = key
    · simp [insert, h]
    · by_cases hl : key.ordinal < p.1.ordinal <;> simp [insert, h, hl, ih]

namespace Rising

theorem get?_eq_some_iff {m : KeyMap α} (hm : Rising m) {key : NodeKey} {v : α} :
    get? m key = some v ↔ (key, v) ∈ m := by
  refine ⟨mem_of_get?, fun h => ?_⟩
  induction m with
  | nil => cases h
  | cons p rest ih =>
    obtain ⟨hp, hm⟩ := List.pairwise_cons.mp hm
    rcases List.mem_cons.mp h with rfl | h
    · simp [get?]
    · have hne : p.1 ≠ key := fun he => Nat.lt_irrefl _ (he ▸ hp _ h)
      simpa [get?, hne] using ih hm h

theorem insert_self {m : KeyMap α} (hm : Rising m) {key : NodeKey} {v : α}
    (h : get? m key = some v) : insert m key v = m := by
  induction m with
  | nil => cases h
  | cons p rest ih =>
    obtain ⟨hp, hm⟩ := List.pairwise_cons.mp hm
    by_cases hk : p.1 = key
    · obtain rfl : p.2 = v := by simpa [get?, hk] using h
      simp [insert, ← hk]
    · have hr : get? rest key = some v := by simpa [get?, hk] using h
      have hlt := hp _ (mem_of_get? hr)
      simp [insert, hk, Nat.not_lt.mpr (Nat.le_of_lt hlt), ih hm hr]

end Rising

end KeyMap

end LiveLayout.Live
