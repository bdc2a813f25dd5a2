import LiveLayout.Proofs.Exhibits

/-!
# What stirs in a layout that stays

Events and refreshes leave the layout as it is. All they do to it is a run of
small steps: talk on the stage, a fetch, a node that is cleared, or a first
load done again. Whatever these four keep is kept by every event and every
refresh.
-/

namespace LiveLayout.Live

namespace Renderer

section
variable {W : Type}

/-- The renderer after work on the source of a node. -/
def putSource (r : Renderer W) (key : NodeKey) (src : Source) (stage : Stage W) : Renderer W :=
  { r with sources := KeyMap.insert r.sources key src, stage }

/-- Renderers that differ in the states of their sources and in their stages. -/
def SameLayout (r r' : Renderer W) : Prop := ∃ sources stage, r' = { r with sources, stage }

theorem SameLayout.refl (r : Renderer W) : SameLayout r r := ⟨r.sources, r.stage, rfl⟩

theorem SameLayout.trans {r r' r'' : Renderer W} (h : SameLayout r r') (h' : SameLayout r' r'') :
    SameLayout r r'' := by
  obtain ⟨_, _, rfl⟩ := h
  obtain ⟨sources, stage, rfl⟩ := h'
  exact ⟨sources, stage, rfl⟩

theorem sameLayout_putSource (r : Renderer W) (key : NodeKey) (src : Source) (stage : Stage W) :
    SameLayout r (r.putSource key src stage) := ⟨_, stage, rfl⟩

theorem get?_putSource (r : Renderer W) (key other : NodeKey) (src : Source) (stage : Stage W) :
    KeyMap.get? (r.putSource key src stage).sources other =
      if key = other then some src else KeyMap.get? r.sources other :=
  KeyMap.get?_insert ..

namespace SameLayout

variable {r r' : Renderer W}

theorem directory_eq (h : SameLayout r r') : r'.directory = r.directory := by
  obtain ⟨_, _, rfl⟩ := h
  rfl

theorem bindings_eq (h : SameLayout r r') : r'.bindings = r.bindings := by
  obtain ⟨_, _, rfl⟩ := h
  rfl

theorem subscriptions_eq (h : SameLayout r r') : r'.subscriptions = r.subscriptions := by
  obtain ⟨_, _, rfl⟩ := h
  rfl

theorem mounted_eq (h : SameLayout r r') : r'.mounted = r.mounted := by
  obtain ⟨_, _, rfl⟩ := h
  rfl

theorem context_eq (h : SameLayout r r') : r'.context = r.context := by
  obtain ⟨_, _, rfl⟩ := h
  rfl

theorem tree_eq (h : SameLayout r r') : r'.tree = r.tree := by
  obtain ⟨_, _, rfl⟩ := h
  rfl

theorem nextKey_eq (h : SameLayout r r') : r'.nextKey = r.nextKey := by
  obtain ⟨_, _, rfl⟩ := h
  rfl

end SameLayout

inductive Stir (r : Renderer W) : Renderer W → Prop
  | talk {stage : Stage W} (ht : stage.traffic = r.stage.traffic) : Stir r { r with stage }
  | fetch {stage : Stage W} (hs : KeyMap.get? r.sources key = some src)
      (hc : src.cascaded = true ∨ src.lastEndpoint.isSome = true)
      (ht : stage.traffic = r.stage.traffic.submit ⟨src.nextTicket, request⟩) :
      Stir r (r.putSource key (src.fetched endpoint) stage)
  | clear {stage : Stage W} (hs : KeyMap.get? r.sources key = some src)
      (hc : src.cascaded = true) (ht : stage.traffic = r.stage.traffic) :
      Stir r (r.putSource key src.cleared stage)
  | load {stage : Stage W} (hs : KeyMap.get? r.sources key = some src)
      (he : src.lastEndpoint = none) (hc : src.cascaded = false)
      (hl : Source.Loads src r.stage.traffic src' stage.traffic) :
      Stir r (r.putSource key src' stage)

abbrev Stirs : Renderer W → Renderer W → Prop := Relation.ReflTransGen Stir

theorem Stirs.talk {r : Renderer W} {stage : Stage W} (ht : stage.traffic = r.stage.traffic) :
    Stirs r { r with stage } := .single (.talk ht)

theorem Stir.sameLayout {r r' : Renderer W} (h : Stir r r') : SameLayout r r' := by
  cases h with
  | talk => exact ⟨r.sources, _, rfl⟩
  | fetch | clear | load => exact sameLayout_putSource ..

theorem Stirs.sameLayout {r r' : Renderer W} (h : Stirs r r') : SameLayout r r' := by
  induction h with
  | refl => exact .refl r
  | tail _ hs ih => exact ih.trans hs.sameLayout

/-- Work that leaves the fixed part of a source leaves what is shown. -/
theorem Shows.putSource {r : Renderer W} (h : Shows xs r)
    (hs : KeyMap.get? r.sources key = some src) (ho : src'.origin = src.origin)
    (stage : Stage W) : Shows xs (r.putSource key src' stage) := by
  refine h.of_fixedPart ?_ stage
  have hf : KeyMap.get? (r.sources.map fixedPart) key = some src.origin := by
    rw [get?_fixedPart, hs, Option.map_some]
  have hr : KeyMap.Rising (r.sources.map fixedPart) :=
    (List.pairwise_map (f := fixedPart)).mpr h.rising_sources
  have hm := KeyMap.map_insert Source.origin r.sources key src'
  rw [ho] at hm
  exact hm.trans (hr.insert_self hf)

theorem Shows.stir {r r' : Renderer W} (h : Shows xs r) (hs : Stir r r') : Shows xs r' := by
  cases hs with
  | talk => exact h.of_fixedPart rfl _
  | fetch hs => exact h.putSource hs (Source.origin_fetched ..) _
  | clear hs => exact h.putSource hs (Source.origin_cleared _) _
  | load hs _ _ hl => exact h.putSource hs hl.origin _

theorem Shows.stirs {r r' : Renderer W} (h : Shows xs r) (hs : Stirs r r') : Shows xs r' := by
  induction hs with
  | refl => exact h
  | tail _ hs ih => exact ih.stir hs

theorem Shows.get?_subscriptions_iff_mem {r : Renderer W} (h : Shows xs r) :
    KeyMap.get? r.subscriptions key = some c ↔ (key, c) ∈ r.subscriptions :=
  h.rising_subscriptions.get?_eq_some_iff

theorem mem_followersOf {subs : Subscriptions} {id : String} :
    child ∈ subs.followersOf id ↔ ∃ c, (child, c) ∈ subs ∧ c.parent = id := by
  simp [Subscriptions.followersOf]

/-- A node follows the mounted one whose id is that of its parent. -/
def Follows (r : Renderer W) (parent child : NodeKey) : Prop :=
  ∃ m id c, KeyMap.get? r.mounted parent = some m ∧ m.id = some id ∧
    KeyMap.get? r.subscriptions child = some c ∧ c.parent = id

theorem Shows.mem_followers {r : Renderer W} (h : Shows xs r) :
    child ∈ followers r key ↔ Follows r key child := by
  simp only [Follows, h.get?_subscriptions_iff_mem]
  constructor
  · intro hc
    unfold followers at hc
    split at hc
    · rename_i id hid
      obtain ⟨m, hm, hi⟩ := Option.bind_eq_some_iff.mp hid
      obtain ⟨c, hc, hp⟩ := mem_followersOf.mp hc
      exact ⟨m, id, c, hm, hi, hc, hp⟩
    · cases hc
  · rintro ⟨m, id, c, hm, hi, hc, hp⟩
    have hf : followers r key = r.subscriptions.followersOf id := by
      simp [followers, hm, hi]
    rw [hf]
    exact mem_followersOf.mpr ⟨c, hc, hp⟩

theorem Shows.subscription_of_follower {r : Renderer W} (h : Shows xs r)
    (hc : child ∈ followers r key) : ∃ c, KeyMap.get? r.subscriptions child = some c := by
  obtain ⟨_, _, c, _, _, hc, _⟩ := h.mem_followers.mp hc
  exact ⟨c, hc⟩

-- ---------------------------------------------------------------------------
-- Work on sources
-- ---------------------------------------------------------------------------

theorem withSource_none {r : Renderer W} (act : Source → Act W (α × Source))
    (hs : KeyMap.get? r.sources key = none) : withSource key act r = (none, r) := by
  simp only [withSource, run_bind, run_get, hs, run_pure]

theorem withSource_some {r : Renderer W} (act : Source → Act W (α × Source))
    (hs : KeyMap.get? r.sources key = some src) :
    withSource key act r = (some (act src r.stage).1.1,
      r.putSource key (act src r.stage).1.2 (act src r.stage).2) := by
  simp only [withSource, run_bind, run_get, hs]
  rfl

end

variable {W : Type} [Widget W]

theorem resetSource_none {r : Renderer W} (hs : KeyMap.get? r.sources key = none) :
    resetSource key r = ((), r) := by
  simp only [resetSource, run_bind, withSource_none _ hs, run_pure]

theorem resetSource_some {r : Renderer W} (hs : KeyMap.get? r.sources key = some src) :
    resetSource key r = ((), r.putSource key src.cleared (src.reset r.stage).2) := by
  simp only [resetSource, run_bind, withSource_some _ hs, run_pure, Source.reset_fst]

theorem fetchSource_some {r : Renderer W} {endpoint : String} (ctx : Context)
    (hs : KeyMap.get? r.sources key = some src) :
    withSource key (fun src => src.fetch ctx endpoint) r = (some src.nextTicket,
      r.putSource key (src.fetched endpoint) (src.fetch ctx endpoint r.stage).2) := by
  rw [withSource_some _ hs, Source.fetch_fst]

theorem propagate_nil (fresh : List NodeKey) (r : Renderer W) : propagate fresh [] r = ((), r) := by
  rw [propagate]
  rfl

theorem propagate_of_mem {r : Renderer W} (h : key ∈ fresh) :
    propagate fresh (key :: rest) r =
      propagate (fresh.erase key) ((followers r key).reverse ++ rest)
        (resetAll (followers r key) r).2 := by
  rw [propagate, dif_pos h]
  rfl

theorem propagate_of_notMem {r : Renderer W} (h : key ∉ fresh) :
    propagate fresh (key :: rest) r = propagate fresh rest r := by
  rw [propagate, dif_neg h]

-- ---------------------------------------------------------------------------
-- Events and refreshes stir
-- ---------------------------------------------------------------------------

section
variable {xs : List Exhibit} {r : Renderer W}

theorem Shows.resetSource_stirs (h : Shows xs r) (key : NodeKey)
    (hc : ∃ c, KeyMap.get? r.subscriptions key = some c) :
    Stirs r (resetSource key r).2 := by
  obtain ⟨c, hc⟩ := hc
  obtain ⟨src, hs, hcas⟩ := h.source_of_subscription hc
  rw [resetSource_some hs]
  exact .single (.clear hs hcas (Source.reset_traffic ..))

theorem Shows.resetAll_stirs (h : Shows xs r) {keys : List NodeKey}
    (hk : ∀ key ∈ keys, ∃ c, KeyMap.get? r.subscriptions key = some c) :
    Stirs r (resetAll keys r).2 := by
  induction keys generalizing r with
  | nil => exact .refl
  | cons key rest ih =>
    have hf := h.resetSource_stirs key (hk key List.mem_cons_self)
    refine hf.trans (ih (h.stirs hf) fun k hkr => ?_)
    rw [hf.sameLayout.subscriptions_eq]
    exact hk k (List.mem_cons_of_mem _ hkr)

theorem Shows.resetFollowing_stirs (h : Shows xs r) (key : NodeKey) :
    Stirs r (resetAll (followers r key) r).2 :=
  h.resetAll_stirs fun _ hc => h.subscription_of_follower hc

theorem Shows.propagate_stirs (h : Shows xs r) (fresh pending : List NodeKey) :
    Stirs r (propagate fresh pending r).2 := by
  induction fresh, pending using propagate.induct (W := W) generalizing r with
  | case1 fresh => rw [propagate_nil]
  | case2 fresh key rest hm ih =>
    rw [propagate_of_mem hm]
    have hf := h.resetFollowing_stirs key
    exact hf.trans (ih r (h.stirs hf))
  | case3 fresh key rest hm ih =>
    rw [propagate_of_notMem hm]
    exact ih h

theorem Shows.resetFollowers_stirs (h : Shows xs r) (key : NodeKey) :
    Stirs r (resetFollowers key r).2 := h.propagate_stirs _ _

theorem Shows.applyAction_stirs (h : Shows xs r) (a : Action)
    (hc : ∃ c, KeyMap.get? r.subscriptions a.node = some c) :
    Stirs r (applyAction a r).2 := by
  cases a with
  | fetch key endpoint =>
    obtain ⟨c, hc⟩ : ∃ c, KeyMap.get? r.subscriptions key = some c := hc
    obtain ⟨src, hs, hcas⟩ := h.source_of_subscription hc
    have hf : Stirs r (r.putSource key (src.fetched endpoint)
        (src.fetch r.context endpoint r.stage).2) :=
      .single (.fetch hs (.inl hcas) (Source.fetch_traffic ..))
    refine hf.trans ?_
    simp only [applyAction, run_bind, run_get]
    rw [fetchSource_some r.context hs]
    exact (h.stirs hf).resetFollowers_stirs key
  | reset key =>
    have hf := h.resetSource_stirs key hc
    exact hf.trans ((h.stirs hf).resetFollowers_stirs key)

theorem Shows.applyActions_stirs (h : Shows xs r) {actions : List Action}
    (hc : ∀ a ∈ actions, ∃ c, KeyMap.get? r.subscriptions a.node = some c) :
    Stirs r (applyActions actions r).2 := by
  induction actions generalizing r with
  | nil => exact .refl
  | cons a rest ih =>
    have hf := h.applyAction_stirs a (hc a List.mem_cons_self)
    refine hf.trans (ih (h.stirs hf) fun b hb => ?_)
    rw [hf.sameLayout.subscriptions_eq]
    exact hc b (List.mem_cons_of_mem _ hb)

end

/-- Actions are for the nodes that follow this event of the parent. -/
theorem actions_nodes (d : Directory) (parent event : String) (payload : Json)
    (subs : Subscriptions) (s : Stage W) :
    (Subscriptions.actions d parent event payload subs s).1.map (·.node) =
      (subs.filter fun p => p.2.parent = parent ∧ p.2.event = event).map (·.1) := by
  induction subs generalizing s with
  | nil => rfl
  | cons p rest ih =>
    unfold Subscriptions.actions
    by_cases hp : p.2.parent = parent ∧ p.2.event = event
    · rw [if_pos hp, List.filter_cons_of_pos (by simpa using hp), List.map_cons, ← ih]
      simp only [run_bind, run_pure, List.map_cons]
      cases (keyFor d p.2 payload s).1 <;> rfl
    · rw [if_neg hp, List.filter_cons_of_neg (by simpa using hp)]
      exact ih s

section
variable {xs : List Exhibit} {r : Renderer W}

theorem Shows.cascadeFrom_stirs (h : Shows xs r) (event : Event) :
    Stirs r (cascadeFrom event r).2 := by
  unfold cascadeFrom
  cases event.sourceId with
  | none => exact .refl
  | some id =>
    have ht := (actions_talk r.directory id event.name event.payload r.subscriptions).traffic
      r.stage
    refine (Stirs.talk ht).trans ((h.of_fixedPart rfl _).applyActions_stirs fun a ha => ?_)
    have hm := List.mem_map_of_mem (f := (·.node)) ha
    rw [actions_nodes, List.mem_map] at hm
    obtain ⟨p, hp, hn⟩ := hm
    exact ⟨p.2, hn ▸ h.get?_subscriptions_iff_mem.mpr (List.mem_filter.mp hp).1⟩

theorem fireKey_some (hm : KeyMap.get? r.mounted key = some m) (name : String) (payload : Json) :
    (fireKey key name payload r).2 = (cascadeFrom ⟨name, key, m.id, payload⟩ { r with
      stage := (dispatch r.bindings r.directory r.handlers ⟨name, key, m.id, payload⟩
        r.stage).2 }).2 := by
  simp only [fireKey, run_bind, run_get, hm]
  rfl

theorem warn_stirs (w : Warning) : Stirs r (warn w r).2 := .talk ((Talk.warn w).traffic _)

theorem Shows.fireKey_stirs (h : Shows xs r) (key : NodeKey) (name : String) (payload : Json) :
    Stirs r (fireKey key name payload r).2 := by
  cases hm : KeyMap.get? r.mounted key with
  | none =>
    simp only [fireKey, run_bind, run_get, hm]
    exact warn_stirs _
  | some m =>
    rw [fireKey_some hm]
    have ht := (dispatch_talk r.bindings r.directory r.handlers
      ⟨name, key, m.id, payload⟩).traffic r.stage
    exact (Stirs.talk ht).trans ((h.of_fixedPart rfl _).cascadeFrom_stirs _)

theorem Shows.fire_stirs (h : Shows xs r) (id name : String) (payload : Json) :
    Stirs r (fire id name payload r).2 := by
  simp only [fire, run_bind, run_get]
  cases Directory.keyOf? r.directory id with
  | none => exact warn_stirs _
  | some key => exact h.fireKey_stirs key name payload

/-- What refreshing a source that is there leaves behind, and what it answers. -/
theorem refreshKey_some (hs : KeyMap.get? r.sources key = some src) :
    refreshKey key r =
      (if (src.refresh r.context r.stage).1.1 = true then do resetFollowers key; pure true
        else pure false : Run W Bool)
      (r.putSource key (src.refresh r.context r.stage).1.2
        (src.refresh r.context r.stage).2) := by
  simp only [refreshKey, run_bind, run_get, withSource_some _ hs]
  cases (src.refresh r.context r.stage).1.1 <;> rfl

theorem Shows.refreshKey_stirs (h : Shows xs r) (key : NodeKey) :
    Stirs r (refreshKey key r).2 := by
  cases hs : KeyMap.get? r.sources key with
  | none =>
    simp only [refreshKey, run_bind, run_get, withSource_none _ hs]
    exact warn_stirs _
  | some src =>
    have hp : Stirs r (r.putSource key (src.refresh r.context r.stage).1.2
        (src.refresh r.context r.stage).2) := by
      rcases src.refresh_cases r.context r.stage with
        ⟨endpoint, request, hl, he, ht⟩ | ⟨-, -, he, ht⟩ | ⟨hl, hc, he⟩
      · rw [he]
        exact .single (.fetch hs (.inr (by simp [hl])) ht)
      · have hp : r.putSource key src (src.refresh r.context r.stage).2 =
            { r with stage := (src.refresh r.context r.stage).2 } := by
          rw [Renderer.putSource, h.rising_sources.insert_self hs]
        rw [he, hp]
        exact .talk ht
      · rw [he]
        exact .single (.load hs hl hc (src.mount_loads r.context r.stage))
    rw [refreshKey_some hs]
    split
    · exact hp.trans ((h.stirs hp).resetFollowers_stirs key)
    · exact hp

theorem Shows.refresh_stirs (h : Shows xs r) (id : String) : Stirs r (refresh id r).2 := by
  simp only [refresh, run_bind, run_get]
  cases Directory.keyOf? r.directory id with
  | none => exact warn_stirs _
  | some key => exact h.refreshKey_stirs key

end

end Renderer

end LiveLayout.Live
