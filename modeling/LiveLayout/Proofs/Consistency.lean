import LiveLayout.Proofs.Introducing
import LiveLayout.Proofs.Turns

/-!
# Everything that is kept agrees

After any run the scene, the directory, the sources, the subscriptions, the
bindings and the mounted nodes tell of the same widgets, and each widget has
what its component declared. Which component a key stands for is read off the
last layout that was not rejected.
-/

namespace LiveLayout.Live

open Layout (Component)

-- ---------------------------------------------------------------------------
-- Components by their keys
-- ---------------------------------------------------------------------------

theorem assigned_fresh {library : Library W} {next : Nat} {cs : List Component} :
    ∀ p ∈ assigned library next cs, next ≤ p.1.ordinal := by
  induction cs generalizing next with
  | nil => exact fun p hp => (nomatch hp)
  | cons c rest ih =>
    unfold assigned
    split
    · exact ih
    · intro p hp
      rcases List.mem_cons.mp hp with rfl | hp
      · exact Nat.le_refl _
      · exact Nat.le_of_succ_le (ih p hp)

theorem assigned_rising (library : Library W) (next : Nat) (cs : List Component) :
    KeyMap.Rising (assigned library next cs) := by
  induction cs generalizing next with
  | nil => exact .nil
  | cons c rest ih =>
    unfold assigned
    split
    · exact ih next
    · exact List.pairwise_cons.mpr ⟨fun p hp => assigned_fresh p hp, ih (next + 1)⟩

/-- What an event of a component calls; what was declared last counts. -/
def declaredBinding? (c : Component) (event : String) : Option Layout.Binding :=
  Fields.get? c.events.reverse event

-- ---------------------------------------------------------------------------
-- Bindings
-- ---------------------------------------------------------------------------

namespace Bindings

def Distinct (a b : Bound) : Prop := a.node ≠ b.node ∨ a.event ≠ b.event

theorem get?_append (bs more : Bindings) (node : NodeKey) (event : String) :
    get? (bs ++ more) node event = (get? bs node event).or (get? more node event) := by
  unfold get?
  rw [List.find?_append]
  cases bs.find? (isFor node event) <;> rfl

theorem get?_of_others {bs : Bindings} {node : NodeKey} (h : ∀ b ∈ bs, b.node ≠ node)
    (event : String) : get? bs node event = none := by
  have hf : bs.find? (isFor node event) = none := by
    refine List.find?_eq_none.mpr fun b hb => ?_
    simp [isFor, h b hb]
  rw [get?, hf, Option.map_none]

theorem get?_bind_of_ne {event other : String} (bs : Bindings) (node : NodeKey)
    (binding : Layout.Binding) (h : event ≠ other) :
    get? (bind bs node event binding) node other = get? bs node other := by
  have hf : (bs.filter fun b => !isFor node event b).find? (isFor node other) =
      bs.find? (isFor node other) := by
    rw [List.find?_filter]
    refine congrArg (bs.find? ·) (funext fun b => ?_)
    by_cases he : b.event = event
    · simp [isFor, he, h]
    · by_cases ho : b.event = other <;> simp [isFor, he, ho, Ne.symm h]
  rw [get?, bind, List.find?_append, hf]
  simp [isFor, h, get?]

theorem distinct_bind {bs : Bindings} (h : bs.Pairwise Distinct) (node : NodeKey) (event : String)
    (binding : Layout.Binding) : (bind bs node event binding).Pairwise Distinct := by
  refine List.pairwise_append.mpr ⟨h.filter _, List.pairwise_singleton _ _, fun a ha b hb => ?_⟩
  obtain rfl := List.mem_singleton.mp hb
  have hf := (List.mem_filter.mp ha).2
  by_cases hn : a.node = node
  · exact .inr (by simpa [isFor, hn] using hf)
  · exact .inl hn

end Bindings

theorem Fields.get?_append_singleton (fields : Fields α) (p : String × α) (name : String) :
    Fields.get? (fields ++ [p]) name =
      (Fields.get? fields name).or (if p.1 = name then some p.2 else none) := by
  induction fields with
  | nil => simp [Fields.get?]
  | cons q rest ih =>
    by_cases h : q.1 = name
    · simp [Fields.get?, h]
    · simpa [Fields.get?, h] using ih

theorem get?_foldl_bind (node : NodeKey) (event : String) (events : Fields Layout.Binding)
    (bs : Bindings) :
    Bindings.get? (events.foldl (fun bs e => Bindings.bind bs node e.1 e.2) bs) node event =
      (Fields.get? events.reverse event).or (Bindings.get? bs node event) := by
  induction events generalizing bs with
  | nil => rfl
  | cons e rest ih =>
    rw [List.foldl_cons, ih, List.reverse_cons, Fields.get?_append_singleton, Option.or_assoc]
    congr 1
    by_cases he : e.1 = event
    · rw [if_pos he, he, Bindings.get?_bind_self]
      rfl
    · rw [if_neg he, Bindings.get?_bind_of_ne _ _ _ he]
      rfl

namespace Exhibit

theorem get?_bindings (x : Exhibit) (event : String) :
    Bindings.get? x.bindings x.key event = declaredBinding? x.component event := by
  rw [Exhibit.bindings, get?_foldl_bind]
  exact Option.or_none

theorem distinct_bindings (x : Exhibit) : x.bindings.Pairwise Bindings.Distinct := by
  have hf : ∀ (events : Fields Layout.Binding) (bs : Bindings), bs.Pairwise Bindings.Distinct →
      (events.foldl (fun bs e => Bindings.bind bs x.key e.1 e.2) bs).Pairwise
        Bindings.Distinct := by
    intro events
    induction events with
    | nil => exact fun _ h => h
    | cons e rest ih => exact fun bs h => ih _ (Bindings.distinct_bind h ..)
  exact hf _ _ .nil

end Exhibit

namespace Renderer

section
variable {W : Type} {xs : List Exhibit} {r : Renderer W}

theorem Shows.get?_bindings (h : Shows xs r) (hx : x ∈ xs) (event : String) :
    Bindings.get? r.bindings x.key event = declaredBinding? x.component event := by
  rw [h.bindings, ← x.get?_bindings event]
  have hr := h.rising
  clear h
  induction xs with
  | nil => cases hx
  | cons y rest ih =>
    obtain ⟨hy, hr⟩ := List.pairwise_cons.mp hr
    rw [List.flatMap_cons, Bindings.get?_append]
    rcases List.mem_cons.mp hx with rfl | hx
    · have ho : ∀ b ∈ rest.flatMap Exhibit.bindings, b.node ≠ x.key := by
        intro b hb he
        obtain ⟨z, hz, hb⟩ := List.mem_flatMap.mp hb
        rw [Exhibit.node_of_mem_bindings hb] at he
        exact Nat.lt_irrefl _ (he ▸ hy z hz)
      rw [Bindings.get?_of_others ho, Option.or_none]
    · have ho : ∀ b ∈ y.bindings, b.node ≠ x.key := by
        intro b hb he
        rw [Exhibit.node_of_mem_bindings hb] at he
        exact Nat.lt_irrefl _ (he ▸ hy x hx)
      rw [Bindings.get?_of_others ho, Option.none_or]
      exact ih hx hr

theorem Shows.distinct_bindings (h : Shows xs r) : r.bindings.Pairwise Bindings.Distinct := by
  rw [h.bindings]
  refine List.pairwise_flatMap.mpr ⟨fun x _ => x.distinct_bindings, h.rising.imp ?_⟩
  intro x y hlt b hb c hc
  refine .inl fun he => ?_
  rw [Exhibit.node_of_mem_bindings hb, Exhibit.node_of_mem_bindings hc] at he
  exact Nat.lt_irrefl _ (he ▸ hlt)

theorem Shows.mem_keys_sources (h : Shows xs r) (hx : x ∈ xs) :
    x.key ∈ KeyMap.keys r.sources ↔ x.component.hasSource = true := by
  constructor
  · intro hk
    obtain ⟨p, hp, hpk⟩ := List.mem_map.mp hk
    obtain ⟨y, hy, hyk, hs, -⟩ := h.exhibit_of_mem_source hp
    exact h.key_inj hx hy (hpk.symm.trans hyk.symm) ▸ hs
  · intro hs
    obtain ⟨src, hg, -⟩ := h.source_of_exhibit hx hs
    exact List.mem_map_of_mem (f := (·.1)) (KeyMap.mem_of_get? hg)

theorem Shows.get?_subscription (h : Shows xs r) (hx : x ∈ xs) :
    KeyMap.get? r.subscriptions x.key = x.component.cascade := by
  refine Option.ext fun c => ?_
  rw [h.get?_subscriptions]
  constructor
  · rintro ⟨y, hy, hk, hc⟩
    exact h.key_inj hy hx hk ▸ hc
  · exact fun hc => ⟨x, hx, rfl, hc⟩

theorem Shows.names_directory (h : Shows xs r) : (Fields.names r.directory).Nodup := by
  rw [h.entered, names_entered]
  exact h.usable.ids

theorem Shows.get?_directory (h : Shows xs r) {id : String} :
    Fields.get? r.directory id = some entry ↔
      ∃ x ∈ xs, x.component.id = some id ∧ x.entry = entry := by
  rw [Fields.get?_eq_some_iff h.names_directory, h.directory, List.mem_filterMap]
  refine exists_congr fun x => and_congr_right fun _ => ?_
  cases hi : x.component.id <;> simp [Exhibit.registered?, hi]

theorem Shows.keyOf?_directory (h : Shows xs r) {id : String} :
    Directory.keyOf? r.directory id = some key ↔
      ∃ x ∈ xs, x.component.id = some id ∧ x.key = key := by
  simp only [Directory.keyOf?, Option.map_eq_some_iff, h.get?_directory]
  constructor
  · rintro ⟨_, ⟨x, hx, hi, rfl⟩, rfl⟩
    exact ⟨x, hx, hi, rfl⟩
  · rintro ⟨x, hx, hi, rfl⟩
    exact ⟨_, ⟨x, hx, hi, rfl⟩, rfl⟩

theorem Shows.mem_mounted (h : Shows xs r) :
    key ∈ KeyMap.keys r.mounted ↔ ∃ x ∈ xs, x.key = key := by
  rw [KeyMap.keys, h.mounted, List.map_map]
  exact List.mem_map

-- ---------------------------------------------------------------------------
-- What a run declares
-- ---------------------------------------------------------------------------

/-- What keys stand for after an operation: the components of a new layout, or
what they stood for before. -/
def declares (r : Renderer W) (given : KeyMap Component) : Operation → KeyMap Component
  | .render tree _ =>
    match Layout.check tree with
    | .ok _ => assigned r.library r.nextKey tree.components
    | .error _ => given
  | _ => given

/-- What is kept for the nodes agrees with the scene, with itself, and with what
the keys stand for. -/
structure Consistent (given : KeyMap Component) (r : Renderer W) : Prop where
  distinct : ((Scene.widgets r.tree).map (·.key)).Nodup
  ordered : (Scene.widgets r.tree).Pairwise fun v w => v.key.ordinal < w.key.ordinal
  shown : (Scene.widgets r.tree).map (·.key) = KeyMap.keys r.mounted
  described : ∀ w ∈ Scene.widgets r.tree,
    KeyMap.get? r.mounted w.key = some ⟨w.id, w.component⟩
  registered : ∀ id key, Directory.keyOf? r.directory id = some key ↔
    ∃ m, KeyMap.get? r.mounted key = some m ∧ m.id = some id
  instances : ∀ id entry, Fields.get? r.directory id = some entry →
    ∃ w ∈ Scene.widgets r.tree, w.key = entry.key ∧ w.handle = entry.handle ∧ w.id = some id
  unshared : ∀ key key' m m' id, KeyMap.get? r.mounted key = some m →
    KeyMap.get? r.mounted key' = some m' → m.id = some id → m'.id = some id → key = key'
  supplied : ∀ key ∈ KeyMap.keys r.sources, key ∈ KeyMap.keys r.mounted
  subscribed : ∀ key ∈ KeyMap.keys r.subscriptions, key ∈ KeyMap.keys r.mounted
  bound : ∀ b ∈ r.bindings, b.node ∈ KeyMap.keys r.mounted
  boundOnce : r.bindings.Pairwise Bindings.Distinct
  fed : ∀ key ∈ KeyMap.keys r.subscriptions, key ∈ KeyMap.keys r.sources
  declared : ∀ key m, KeyMap.get? r.mounted key = some m →
    ∃ c, KeyMap.get? given key = some c ∧ m = ⟨c.id, c.name⟩ ∧
      (key ∈ KeyMap.keys r.sources ↔ c.feed.isSome = true ∨ c.cascade.isSome = true) ∧
      KeyMap.get? r.subscriptions key = c.cascade ∧
      ∀ event, Bindings.get? r.bindings key event = declaredBinding? c event

-- ---------------------------------------------------------------------------
-- The invariant
-- ---------------------------------------------------------------------------

/-- Exhibits account for all that is kept, for the scene, and for what the keys
stand for. -/
structure Accounts (given : KeyMap Component) (xs : List Exhibit) (r : Renderer W) : Prop where
  shows : Shows xs r
  scene : Scene.widgets r.tree = xs.map Exhibit.widget
  listed : (xs.map Exhibit.declared).Sublist given
  rising : KeyMap.Rising given

variable {given : KeyMap Component}

theorem Accounts.get?_given (h : Accounts given xs r) (hx : x ∈ xs) :
    KeyMap.get? given x.key = some x.component :=
  h.rising.get?_eq_some_iff.mpr (h.listed.mem (List.mem_map_of_mem (f := Exhibit.declared) hx))

theorem Accounts.consistent (h : Accounts given xs r) : Consistent given r := by
  have hs := h.shows
  have hkeys : (Scene.widgets r.tree).map (·.key) = xs.map Exhibit.key := by
    rw [h.scene, List.map_map]
    rfl
  have hsub {key} (hk : key ∈ KeyMap.keys r.subscriptions) :
      ∃ c, KeyMap.get? r.subscriptions key = some c := by
    obtain ⟨p, hp, rfl⟩ := List.mem_map.mp hk
    exact ⟨p.2, hs.get?_subscriptions_iff_mem.mpr hp⟩
  refine ⟨?_, ?_, ?_, ?_, ?_, ?_, ?_, ?_, ?_, ?_, hs.distinct_bindings, ?_, ?_⟩
  · rw [hkeys]
    exact nodup_of_rising hs.rising
  · rw [h.scene]
    exact List.pairwise_map.mpr hs.rising
  · rw [hkeys, KeyMap.keys, hs.mounted, List.map_map]
    rfl
  · rw [h.scene]
    intro w hw
    obtain ⟨x, hx, rfl⟩ := List.mem_map.mp hw
    exact hs.get?_mounted.mpr ⟨x, hx, rfl, rfl⟩
  · intro id key
    rw [hs.keyOf?_directory]
    constructor
    · rintro ⟨x, hx, hi, rfl⟩
      exact ⟨_, hs.get?_mounted.mpr ⟨x, hx, rfl, rfl⟩, hi⟩
    · rintro ⟨m, hm, hi⟩
      obtain ⟨x, hx, rfl, rfl⟩ := hs.get?_mounted.mp hm
      exact ⟨x, hx, hi, rfl⟩
  · intro id entry he
    obtain ⟨x, hx, hi, rfl⟩ := hs.get?_directory.mp he
    exact ⟨x.widget, h.scene ▸ List.mem_map_of_mem hx, rfl, rfl, hi⟩
  · intro key key' m m' id hm hm' hi hi'
    obtain ⟨x, hx, rfl, rfl⟩ := hs.get?_mounted.mp hm
    obtain ⟨y, hy, rfl, rfl⟩ := hs.get?_mounted.mp hm'
    rw [hs.id_inj hx hy hi hi']
  · intro key hk
    obtain ⟨p, hp, rfl⟩ := List.mem_map.mp hk
    obtain ⟨x, hx, hxk, -⟩ := hs.exhibit_of_mem_source hp
    exact hs.mem_mounted.mpr ⟨x, hx, hxk⟩
  · intro key hk
    obtain ⟨c, hc⟩ := hsub hk
    obtain ⟨x, hx, hxk, -⟩ := hs.get?_subscriptions.mp hc
    exact hs.mem_mounted.mpr ⟨x, hx, hxk⟩
  · intro b hb
    rw [hs.bindings] at hb
    obtain ⟨x, hx, hb⟩ := List.mem_flatMap.mp hb
    exact hs.mem_mounted.mpr ⟨x, hx, (Exhibit.node_of_mem_bindings hb).symm⟩
  · intro key hk
    obtain ⟨c, hc⟩ := hsub hk
    obtain ⟨src, hsrc, -⟩ := hs.source_of_subscription hc
    exact List.mem_map_of_mem (f := (·.1)) (KeyMap.mem_of_get? hsrc)
  · intro key m hm
    obtain ⟨x, hx, rfl, rfl⟩ := hs.get?_mounted.mp hm
    refine ⟨x.component, h.get?_given hx, rfl, ?_, hs.get?_subscription hx, hs.get?_bindings hx⟩
    rw [hs.mem_keys_sources hx, Component.hasSource, Bool.or_eq_true]

theorem accounts_new (library : Library W) (options : Options) :
    Accounts [] [] (new library options) := ⟨shows_new library options, rfl, .slnil, .nil⟩

theorem declares_plain (r : Renderer W) (given : KeyMap Component) (ho : op.isPlain = true) :
    declares r given op = given := by
  cases op <;> first | rfl | cases ho

/-- Taking a node out takes it out of the scene. -/
theorem Shows.widgets_unmountKey (h : Shows xs r)
    (hs : Scene.widgets r.tree = xs.map Exhibit.widget) (key : NodeKey) :
    Scene.widgets (Renderer.unmountKey key r).2.tree =
      (xs.filter (·.key ≠ key)).map Exhibit.widget := by
  rw [unmountKey_run]
  cases hm : KeyMap.get? r.mounted key with
  | none => rw [h.filter_unmounted hm, hs]
  | some m =>
    have hn : ((Scene.widgets r.tree).map (·.key)).Nodup := by
      rw [hs, List.map_map]
      exact nodup_of_rising h.rising
    show Scene.widgets (Scene.remove r.tree key).1 = _
    rw [Scene.widgets_remove hn, hs, without, List.filter_map]
    rfl

end

variable {W : Type} [Widget W]

/-- What keys stand for after a run. -/
def declaredBy (r : Renderer W) (given : KeyMap Component) : List Operation → KeyMap Component
  | [] => given
  | op :: ops => declaredBy (r.after op) (declares r given op) ops

section
variable {given : KeyMap Component} {xs : List Exhibit} {r : Renderer W}

theorem Accounts.after (h : Accounts given xs r) (op : Operation) :
    ∃ ys, Accounts (declares r given op) ys (r.after op) := by
  obtain ⟨ys, ht, hs⟩ := h.shows.turn op
  refine ⟨ys, ?_⟩
  generalize r.after op = r' at ht hs
  cases ht with
  | stirs ho hst =>
    obtain ⟨_, _, rfl⟩ := hst.sameLayout
    rw [declares_plain r given ho]
    exact ⟨hs, h.scene, h.listed, h.rising⟩
  | takes ho key =>
    rw [declares_plain r given ho]
    exact ⟨hs, h.shows.widgets_unmountKey h.scene key, (List.filter_sublist.map _).trans h.listed, h.rising⟩
  | clears => exact ⟨hs, rfl, List.nil_sublist _, h.rising⟩
  | @rejects rejection tree handlers hc =>
    have hd : declares r given (.render tree handlers) = given := by simp only [declares, hc]
    rw [hd]
    exact h
  | @shows _ _ _ _ tree handlers hc hm hw hd =>
    have he : declares r given (.render tree handlers) =
        assigned r.library r.nextKey tree.components := by simp only [declares, hc]
    rw [he]
    exact ⟨hs, hw, hd ▸ List.Sublist.refl _, assigned_rising ..⟩
  | completes => exact ⟨hs, h.scene, h.listed, h.rising⟩
  | pumps =>
    have hl : SameLayout r (pump r).2 := by
      have hd : SameLayout r (drained r) := ⟨r.sources, _, rfl⟩
      have hsd : Shows xs (drained r) := h.shows.of_fixedPart rfl _
      exact hd.trans (hsd.applyAll r.stage.traffic.queue).1
    obtain ⟨_, _, he⟩ := hl
    rw [he] at hs ⊢
    exact ⟨hs, h.scene, h.listed, h.rising⟩

theorem Accounts.afterAll (h : Accounts given xs r) (ops : List Operation) :
    ∃ ys, Accounts (declaredBy r given ops) ys (r.afterAll ops) := by
  induction ops generalizing given xs r with
  | nil => exact ⟨xs, h⟩
  | cons op ops ih =>
    obtain ⟨ys, hy⟩ := h.after op
    exact ih hy

end

/-- Whatever is done to a renderer, what it keeps for its nodes agrees. -/
theorem consistent_afterAll (library : Library W) (options : Options) (ops : List Operation) :
    Consistent (declaredBy (new library options) [] ops)
      ((new library options).afterAll ops) := by
  obtain ⟨xs, h⟩ := (accounts_new library options).afterAll ops
  exact h.consistent

end Renderer

end LiveLayout.Live
