import LiveLayout.Live.Renderer
import LiveLayout.Proofs.CheckLaws
import LiveLayout.Proofs.SceneLaws
import LiveLayout.Proofs.SourceLaws

/-!
# What is shown decides what is kept

An exhibit is a mounted node: its component, its key and its instance. The
directory, the bindings, the subscriptions, the mounted nodes and all that is
fixed of the sources are functions of the exhibits, in the order in which they
were mounted. `Shows` says that a renderer keeps just that; mounting adds an
exhibit at the end, unmounting takes one out.
-/

namespace LiveLayout.Live

open Layout (Component Cascade Usable declaredIds)

variable {W : Type}

structure Exhibit where
  component : Component
  entry : Entry

namespace Exhibit

def key (x : Exhibit) : NodeKey := x.entry.key

def widget (x : Exhibit) : SceneWidget :=
  ⟨x.key, x.component.id, x.component.name, x.entry.handle, x.component.style, x.component.classes⟩

def mounted (x : Exhibit) : NodeKey × Mounted := (x.key, ⟨x.component.id, x.component.name⟩)

def registered? (x : Exhibit) : Option (String × Entry) := x.component.id.map (·, x.entry)

def subscription? (x : Exhibit) : Option (NodeKey × Cascade) :=
  x.component.cascade.map (x.key, ·)

def newSource (x : Exhibit) : Source :=
  .new x.key x.component.name x.component.feed x.component.cascade.isSome x.entry.handle

def source? (x : Exhibit) : Option (NodeKey × Source) :=
  if x.component.hasSource then some (x.key, x.newSource) else none

def bindings (x : Exhibit) : Bindings :=
  x.component.events.foldl (fun bs e => Bindings.bind bs x.key e.1 e.2) []

end Exhibit

-- ---------------------------------------------------------------------------
-- Lists
-- ---------------------------------------------------------------------------

theorem filter_filterMap_comm {f : α → Option β} {p : β → Bool} {q : α → Bool} {l : List α}
    (h : ∀ a ∈ l, ∀ b, f a = some b → p b = q a) :
    (l.filterMap f).filter p = (l.filter q).filterMap f := by
  induction l with
  | nil => rfl
  | cons a rest ih =>
    have hr := ih fun a ha => h a (List.mem_cons_of_mem _ ha)
    have ha := h a List.mem_cons_self
    cases hf : f a with
    | none => by_cases hq : q a = true <;> simp [hf, hr, hq]
    | some b => by_cases hq : q a = true <;> simp [hf, hr, hq, ha b hf]

theorem filter_flatMap_comm {f : α → List β} {p : β → Bool} {q : α → Bool} {l : List α}
    (h : ∀ a ∈ l, ∀ b ∈ f a, p b = q a) : (l.flatMap f).filter p = (l.filter q).flatMap f := by
  induction l with
  | nil => rfl
  | cons a rest ih =>
    have hr := ih fun b hb => h b (List.mem_cons_of_mem _ hb)
    have ha := h a List.mem_cons_self
    rw [List.flatMap_cons, List.filter_append, hr]
    cases hq : q a with
    | true => simp [hq, List.filter_eq_self.mpr fun b hb => (ha b hb).trans hq]
    | false =>
      have hn : (f a).filter p = [] := List.filter_eq_nil_iff.mpr fun b hb => by simp [ha b hb, hq]
      simp [hq, hn]

theorem eq_of_nodup_filterMap {f : α → Option β} {l : List α} (hn : (l.filterMap f).Nodup)
    (ha : a ∈ l) (hb : b ∈ l) (hfa : f a = some c) (hfb : f b = some c) : a = b := by
  induction l with
  | nil => cases ha
  | cons x rest ih =>
    have hm : ∀ y ∈ rest, f y = some c → f x ≠ some c := by
      intro y hy hfy hfx
      rw [List.filterMap_cons_some hfx] at hn
      exact (List.nodup_cons.mp hn).1 (List.mem_filterMap.mpr ⟨y, hy, hfy⟩)
    rcases List.mem_cons.mp ha with rfl | har <;> rcases List.mem_cons.mp hb with rfl | hbr
    · rfl
    · exact absurd hfa (hm b hbr hfb)
    · exact absurd hfb (hm a har hfa)
    · exact ih (hn.sublist ((List.sublist_cons_self x rest).filterMap f)) har hbr

/-- The last thing of a kind cuts a list in one way only. -/
theorem eq_of_append_cons {p : α → Prop} {xs ys us vs : List α} {a b : α} (ha : p a) (hb : p b)
    (hu : ∀ u ∈ us, ¬p u) (hv : ∀ v ∈ vs, ¬p v) (h : xs ++ a :: us = ys ++ b :: vs) : xs = ys := by
  rcases List.append_eq_append_iff.mp h with ⟨as, rfl, he⟩ | ⟨bs, rfl, he⟩
  · rcases List.append_eq_cons_iff.mp he.symm with ⟨rfl, -⟩ | ⟨as', -, he⟩
    · simp
    · exact absurd hb (hu b (by simp [he]))
  · rcases List.append_eq_cons_iff.mp he.symm with ⟨rfl, -⟩ | ⟨bs', -, he⟩
    · simp
    · exact absurd ha (hv a (by simp [he]))

theorem nodup_of_rising {f : α → NodeKey} {l : List α}
    (h : l.Pairwise fun a b => (f a).ordinal < (f b).ordinal) : (l.map f).Nodup := by
  refine List.pairwise_map.mpr (h.imp fun hlt he => ?_)
  exact Nat.lt_irrefl _ (he ▸ hlt)

-- ---------------------------------------------------------------------------
-- Bindings of one node
-- ---------------------------------------------------------------------------

namespace Bindings

/-- Binding events of a node leaves what other nodes have bound in front. -/
theorem foldl_bind_append (node : NodeKey) (events : List (String × Layout.Binding))
    {others : Bindings} (ho : ∀ b ∈ others, b.node ≠ node) (own : Bindings) :
    events.foldl (fun bs e => bind bs node e.1 e.2) (others ++ own) =
      others ++ events.foldl (fun bs e => bind bs node e.1 e.2) own := by
  induction events generalizing own with
  | nil => rfl
  | cons e rest ih =>
    have hk : others.filter (fun b => !isFor node e.1 b) = others := by
      refine List.filter_eq_self.mpr fun b hb => ?_
      simp [isFor, ho b hb]
    have hb : bind (others ++ own) node e.1 e.2 = others ++ bind own node e.1 e.2 := by
      simp [bind, List.filter_append, hk]
    rw [List.foldl_cons, hb, ih, List.foldl_cons]

theorem node_of_mem_foldl_bind {node : NodeKey} {events : List (String × Layout.Binding)}
    {own : Bindings} (ho : ∀ b ∈ own, b.node = node) :
    ∀ b ∈ events.foldl (fun bs e => bind bs node e.1 e.2) own, b.node = node := by
  induction events generalizing own with
  | nil => exact ho
  | cons e rest ih =>
    refine ih fun b hb => ?_
    rcases List.mem_append.mp hb with hb | hb
    · exact ho b (List.mem_filter.mp hb).1
    · exact List.mem_singleton.mp hb ▸ rfl

end Bindings

theorem Exhibit.node_of_mem_bindings {x : Exhibit} (h : b ∈ x.bindings) : b.node = x.key :=
  Bindings.node_of_mem_foldl_bind (by simp) b h

-- ---------------------------------------------------------------------------
-- Showing
-- ---------------------------------------------------------------------------

namespace Renderer

/-- A source without what changes in it. -/
def fixedPart (p : NodeKey × Source) : NodeKey × Source := (p.1, p.2.origin)

structure Shows (xs : List Exhibit) (r : Renderer W) : Prop where
  rising : xs.Pairwise fun x y => x.key.ordinal < y.key.ordinal
  fresh : ∀ x ∈ xs, x.key.ordinal < r.nextKey
  usable : Usable (xs.map (·.component))
  mounted : r.mounted = xs.map Exhibit.mounted
  directory : r.directory = xs.filterMap Exhibit.registered?
  subscriptions : r.subscriptions = xs.filterMap Exhibit.subscription?
  sources : r.sources.map fixedPart = xs.filterMap Exhibit.source?
  bindings : r.bindings = xs.flatMap Exhibit.bindings

theorem shows_new (library : Library W) (options : Options) : Shows [] (new library options) where
  rising := .nil
  fresh := by simp
  usable := ⟨.nil, fun id hc => by
    obtain ⟨_, hl, -⟩ := Relation.TransGen.head'_iff.mp hc
    exact absurd hl List.not_mem_nil⟩
  mounted := rfl
  directory := rfl
  subscriptions := rfl
  sources := rfl
  bindings := rfl

section
variable {xs : List Exhibit} {r : Renderer W}

theorem Shows.key_inj (h : Shows xs r) (hx : x ∈ xs) (hy : y ∈ xs) (hk : x.key = y.key) :
    x = y := by
  have hn : (xs.filterMap fun x => some x.key).Nodup := by
    rw [List.filterMap_eq_map']
    exact nodup_of_rising h.rising
  exact eq_of_nodup_filterMap hn hx hy rfl (congrArg some hk.symm)

theorem Shows.id_inj (h : Shows xs r) {id : String} (hx : x ∈ xs) (hy : y ∈ xs)
    (hi : x.component.id = some id) (hj : y.component.id = some id) : x = y := by
  have hn := h.usable.ids
  rw [declaredIds, List.filterMap_map] at hn
  exact eq_of_nodup_filterMap hn hx hy hi hj

-- ---------------------------------------------------------------------------
-- Looking nodes up
-- ---------------------------------------------------------------------------

/-- What is kept for each exhibit under its key is kept in ascending order. -/
theorem Shows.rising_filterMap (h : Shows xs r) {f : Exhibit → Option (NodeKey × α)}
    (hf : ∀ x p, f x = some p → p.1 = x.key) : KeyMap.Rising (xs.filterMap f) := by
  refine List.pairwise_filterMap.mpr (h.rising.imp fun hlt p hp q hq => ?_)
  rw [hf _ p hp, hf _ q hq]
  exact hlt

theorem Shows.get?_filterMap (h : Shows xs r) {f : Exhibit → Option (NodeKey × α)}
    (hf : ∀ x p, f x = some p → p.1 = x.key) {key : NodeKey} {v : α} :
    KeyMap.get? (xs.filterMap f) key = some v ↔ ∃ x ∈ xs, f x = some (key, v) :=
  (h.rising_filterMap hf).get?_eq_some_iff.trans List.mem_filterMap

theorem Exhibit.fst_of_subscription? {x : Exhibit} (h : x.subscription? = some p) :
    p.1 = x.key := by
  obtain ⟨c, -, rfl⟩ := Option.map_eq_some_iff.mp h
  rfl

theorem Exhibit.source?_eq_some {x : Exhibit} :
    x.source? = some p ↔ x.component.hasSource = true ∧ p = (x.key, x.newSource) := by
  unfold Exhibit.source?
  split
  · next hs => simp [hs, eq_comm]
  · next hs => simp [hs]

theorem Exhibit.fst_of_source? {x : Exhibit} (h : x.source? = some p) : p.1 = x.key := by
  rw [(Exhibit.source?_eq_some.mp h).2]

theorem Shows.get?_mounted (h : Shows xs r) :
    KeyMap.get? r.mounted key = some m ↔
      ∃ x ∈ xs, x.key = key ∧ m = ⟨x.component.id, x.component.name⟩ := by
  have hf : ∀ x p, some (Exhibit.mounted x) = some p → p.1 = x.key := by
    rintro x p ⟨⟩
    rfl
  rw [h.mounted, ← List.filterMap_eq_map', h.get?_filterMap hf]
  simp [Exhibit.mounted, eq_comm]

theorem Shows.get?_subscriptions (h : Shows xs r) :
    KeyMap.get? r.subscriptions key = some c ↔
      ∃ x ∈ xs, x.key = key ∧ x.component.cascade = some c := by
  rw [h.subscriptions, h.get?_filterMap fun x p => Exhibit.fst_of_subscription?]
  refine exists_congr fun x => and_congr_right fun _ => ?_
  constructor
  · intro hs
    obtain ⟨c', hc, he⟩ := Option.map_eq_some_iff.mp hs
    obtain ⟨rfl, rfl⟩ := Prod.mk.inj he
    exact ⟨rfl, hc⟩
  · rintro ⟨rfl, hc⟩
    exact Option.map_eq_some_iff.mpr ⟨c, hc, rfl⟩

theorem Shows.rising_subscriptions (h : Shows xs r) : KeyMap.Rising r.subscriptions := by
  rw [h.subscriptions]
  exact h.rising_filterMap fun x p => Exhibit.fst_of_subscription?

theorem get?_fixedPart (sources : KeyMap Source) (key : NodeKey) :
    KeyMap.get? (sources.map fixedPart) key = (KeyMap.get? sources key).map Source.origin :=
  KeyMap.get?_map Source.origin sources key

theorem Shows.rising_sources (h : Shows xs r) : KeyMap.Rising r.sources := by
  have hr := h.rising_filterMap fun x p => Exhibit.fst_of_source? (x := x) (p := p)
  rw [← h.sources] at hr
  exact (List.pairwise_map (f := fixedPart)).mp hr

theorem Shows.exhibit_of_source (h : Shows xs r) (hs : KeyMap.get? r.sources key = some src) :
    ∃ x ∈ xs, x.key = key ∧ x.component.hasSource = true ∧ src.origin = x.newSource := by
  have hf : KeyMap.get? (r.sources.map fixedPart) key = some src.origin := by
    rw [get?_fixedPart, hs, Option.map_some]
  rw [h.sources, h.get?_filterMap fun x p => Exhibit.fst_of_source?] at hf
  obtain ⟨x, hx, hsrc⟩ := hf
  obtain ⟨hh, he⟩ := Exhibit.source?_eq_some.mp hsrc
  exact ⟨x, hx, (congrArg Prod.fst he).symm, hh, congrArg Prod.snd he⟩

theorem Shows.exhibit_of_mem_source {p : NodeKey × Source} (h : Shows xs r) (hp : p ∈ r.sources) :
    ∃ x ∈ xs, x.key = p.1 ∧ x.component.hasSource = true ∧ p.2.origin = x.newSource :=
  h.exhibit_of_source (h.rising_sources.get?_eq_some_iff.mpr hp)

theorem Shows.source_of_exhibit (h : Shows xs r) (hx : x ∈ xs)
    (hs : x.component.hasSource = true) :
    ∃ src, KeyMap.get? r.sources x.key = some src ∧ src.origin = x.newSource := by
  have hf : KeyMap.get? (r.sources.map fixedPart) x.key = some x.newSource := by
    rw [h.sources, h.get?_filterMap fun x p => Exhibit.fst_of_source?]
    exact ⟨x, hx, Exhibit.source?_eq_some.mpr ⟨hs, rfl⟩⟩
  rw [get?_fixedPart] at hf
  exact Option.map_eq_some_iff.mp hf

theorem Shows.source_key (h : Shows xs r) (hs : KeyMap.get? r.sources key = some src) :
    src.key = key := by
  obtain ⟨x, -, rfl, -, ho⟩ := h.exhibit_of_source hs
  exact congrArg Source.key ho

/-- A node that follows another has a source, which waits for its parent. -/
theorem Shows.source_of_subscription (h : Shows xs r)
    (hs : KeyMap.get? r.subscriptions key = some c) :
    ∃ src, KeyMap.get? r.sources key = some src ∧ src.cascaded = true := by
  obtain ⟨x, hx, rfl, hc⟩ := h.get?_subscriptions.mp hs
  obtain ⟨src, hsrc, ho⟩ := h.source_of_exhibit hx (by simp [Component.hasSource, hc])
  refine ⟨src, hsrc, (congrArg Source.cascaded ho).trans ?_⟩
  simp [Exhibit.newSource, Source.new, hc]

theorem Shows.key_lt (h : Shows xs r) (hs : KeyMap.get? r.sources key = some src) :
    key.ordinal < r.nextKey := by
  obtain ⟨x, hx, rfl, -⟩ := h.exhibit_of_source hs
  exact h.fresh x hx

/-- A source that follows nobody has something to load. -/
theorem Shows.feed_of_source (h : Shows xs r) (hs : KeyMap.get? r.sources key = some src)
    (hc : src.cascaded = false) : src.feed ≠ none := by
  obtain ⟨x, -, -, hh, ho⟩ := h.exhibit_of_source hs
  have hxc : x.component.cascade.isSome = src.cascaded := (congrArg Source.cascaded ho).symm
  have hxf : x.component.feed = src.feed := (congrArg Source.feed ho).symm
  rw [Component.hasSource, hxc, hc, hxf, Bool.or_false] at hh
  exact Option.isSome_iff_ne_none.mp hh

theorem Shows.get?_mounted_of_source (h : Shows xs r) (hs : KeyMap.get? r.sources key = some src) :
    ∃ m, KeyMap.get? r.mounted key = some m := by
  obtain ⟨x, hx, rfl, -, -⟩ := h.exhibit_of_source hs
  exact ⟨_, h.get?_mounted.mpr ⟨x, hx, rfl, rfl⟩⟩

-- ---------------------------------------------------------------------------
-- Taking exhibits out
-- ---------------------------------------------------------------------------

theorem unmountKey_run (key : NodeKey) (r : Renderer W) :
    unmountKey key r = match KeyMap.get? r.mounted key with
      | none => (false, r)
      | some m => (true,
          { forget { r with directory := match m.id with
              | some id => Fields.erase r.directory id
              | none => r.directory } key with tree := (Scene.remove r.tree key).1 }) := by
  simp only [unmountKey, run_bind, run_get]
  cases KeyMap.get? r.mounted key <;> rfl

@[simp] theorem unmountKey_stage (key : NodeKey) (r : Renderer W) :
    (unmountKey key r).2.stage = r.stage := by
  rw [unmountKey_run]
  cases KeyMap.get? r.mounted key <;> rfl

@[simp] theorem unmountKey_nextKey (key : NodeKey) (r : Renderer W) :
    (unmountKey key r).2.nextKey = r.nextKey := by
  rw [unmountKey_run]
  cases KeyMap.get? r.mounted key <;> rfl

theorem Shows.filter_unmounted (h : Shows xs r) (hm : KeyMap.get? r.mounted key = none) :
    xs.filter (·.key ≠ key) = xs := by
  refine List.filter_eq_self.mpr fun x hx => decide_eq_true fun hk => ?_
  have hg := h.get?_mounted.mpr ⟨x, hx, rfl, rfl⟩
  rw [hk, hm] at hg
  cases hg

theorem Shows.unmountKey (h : Shows xs r) (key : NodeKey) :
    Shows (xs.filter (·.key ≠ key)) (unmountKey key r).2 := by
  rw [unmountKey_run]
  cases hm : KeyMap.get? r.mounted key with
  | none =>
    rwa [h.filter_unmounted hm]
  | some m =>
    obtain ⟨x, hx, rfl, rfl⟩ := h.get?_mounted.mp hm
    refine ⟨h.rising.filter _, fun y hy => h.fresh y (List.mem_filter.mp hy).1,
      h.usable.sublist (List.filter_sublist.map _), ?_, ?_, ?_, ?_, ?_⟩
    · simp only [forget, KeyMap.erase, h.mounted, List.filter_map]
      rfl
    · -- nobody else has the id of the node that is taken out
      dsimp only [forget]
      rw [h.directory]
      cases hi : x.component.id with
      | some id =>
        refine filter_filterMap_comm fun y hy p hp => ?_
        obtain ⟨other, ho, rfl⟩ := Option.map_eq_some_iff.mp hp
        by_cases hk : y.key = x.key
        · obtain rfl := h.key_inj hy hx hk
          obtain rfl : id = other := Option.some.inj (hi.symm.trans ho)
          simp
        · have hne : other ≠ id := fun he => hk (h.id_inj hy hx (he ▸ ho) hi ▸ rfl)
          simp [hk, hne]
      | none =>
        have hs : (xs.filterMap Exhibit.registered?).filter (fun _ => true) =
            (xs.filter (·.key ≠ x.key)).filterMap Exhibit.registered? := by
          refine filter_filterMap_comm fun y hy p hp => ?_
          obtain ⟨other, ho, rfl⟩ := Option.map_eq_some_iff.mp hp
          refine (decide_eq_true (p := y.key ≠ x.key) fun hk => ?_).symm
          rw [h.key_inj hy hx hk, hi] at ho
          cases ho
        rwa [List.filter_eq_self.mpr fun _ _ => rfl] at hs
    · dsimp only [forget, KeyMap.erase]
      rw [h.subscriptions]
      exact filter_filterMap_comm fun y hy p hp => by rw [Exhibit.fst_of_subscription? hp]
    · dsimp only [forget, KeyMap.erase]
      have hm : (r.sources.filter (·.1 ≠ x.key)).map fixedPart =
          (r.sources.map fixedPart).filter (·.1 ≠ x.key) := by
        rw [List.filter_map]
        rfl
      rw [hm, h.sources]
      exact filter_filterMap_comm fun y hy p hp => by rw [Exhibit.fst_of_source? hp]
    · dsimp only [forget, Bindings.unbind]
      rw [h.bindings]
      refine filter_flatMap_comm fun y hy b hb => ?_
      rw [Exhibit.node_of_mem_bindings hb]

theorem filter_notMem_cons {f : α → NodeKey} (key : NodeKey) (rest : List NodeKey) (l : List α) :
    (l.filter (f · ≠ key)).filter (f · ∉ rest) = l.filter (f · ∉ key :: rest) := by
  simp [List.filter_filter, Bool.and_comm]

/-- Forgetting nodes one after the other. -/
theorem foldl_forget (keys : List NodeKey) (r : Renderer W) :
    keys.foldl forget r = { r with
      sources := r.sources.filter (·.1 ∉ keys)
      subscriptions := r.subscriptions.filter (·.1 ∉ keys)
      bindings := r.bindings.filter (·.node ∉ keys)
      mounted := r.mounted.filter (·.1 ∉ keys) } := by
  induction keys generalizing r with
  | nil =>
    have hf : ∀ {α : Type} (f : α → NodeKey) (l : List α), l.filter (f · ∉ []) = l := by simp
    rw [hf, hf, hf, hf, List.foldl_nil]
  | cons key rest ih =>
    rw [List.foldl_cons, ih]
    simp only [forget, KeyMap.erase, Bindings.unbind, filter_notMem_cons]

/-- Nothing shown and nothing kept; keys and the stage go on. -/
def bare (r : Renderer W) : Renderer W :=
  { r with
    directory := [], handlers := [], bindings := [], subscriptions := [], sources := [],
    mounted := [], tree := none }

theorem Shows.teardown_run (h : Shows xs r) : teardown r = ((), bare r) := by
  have hk : ∀ key src, KeyMap.get? r.sources key = some src → key ∈ KeyMap.keys r.mounted := by
    intro key src hs
    obtain ⟨m, hm⟩ := h.get?_mounted_of_source hs
    exact List.mem_map_of_mem (f := (·.1)) (KeyMap.mem_of_get? hm)
  have hs : r.sources.filter (·.1 ∉ KeyMap.keys r.mounted) = [] := by
    refine List.filter_eq_nil_iff.mpr fun p hp => ?_
    simpa using hk p.1 p.2 (h.rising_sources.get?_eq_some_iff.mpr hp)
  have hm : r.mounted.filter (·.1 ∉ KeyMap.keys r.mounted) = [] := by
    refine List.filter_eq_nil_iff.mpr fun p hp => ?_
    have hp : p.1 ∈ KeyMap.keys r.mounted := List.mem_map_of_mem (f := (·.1)) hp
    exact Bool.eq_false_iff.mp (decide_eq_false (Classical.not_not.mpr hp))
  simp only [teardown, run_modify, foldl_forget, hs, hm]
  rfl

theorem shows_bare (r : Renderer W) : Shows [] (bare r) :=
  { shows_new r.library r.options with fresh := by simp }

-- ---------------------------------------------------------------------------
-- Adding exhibits
-- ---------------------------------------------------------------------------

/-- The renderer with a new exhibit, once its source was mounted. -/
def withExhibit (x : Exhibit) (sources : KeyMap Source) (stage : Stage W) (r : Renderer W) :
    Renderer W :=
  attach x.component x.key { r with
    nextKey := r.nextKey + 1
    directory := r.directory ++ x.registered?.toList
    sources
    stage }

theorem Shows.withExhibit {sources : KeyMap Source} {stage : Stage W} (h : Shows xs r)
    (hk : x.key = ⟨r.nextKey⟩) (hu : Usable ((xs ++ [x]).map (·.component)))
    (hs : sources.map fixedPart = r.sources.map fixedPart ++ x.source?.toList) :
    Shows (xs ++ [x]) (withExhibit x sources stage r) := by
  have hlt : ∀ y ∈ xs, y.key.ordinal < x.key.ordinal := fun y hy => hk ▸ h.fresh y hy
  refine ⟨?_, ?_, hu, ?_, ?_, ?_, ?_, ?_⟩
  · refine List.pairwise_append.mpr ⟨h.rising, List.pairwise_singleton _ _, fun y hy z hz => ?_⟩
    exact List.mem_singleton.mp hz ▸ hlt y hy
  · intro y hy
    refine Nat.lt_succ_of_le ?_
    rcases List.mem_append.mp hy with hy | hy
    · exact Nat.le_of_lt (h.fresh y hy)
    · exact List.mem_singleton.mp hy ▸ hk ▸ Nat.le_refl _
  · have hi := KeyMap.insert_append r.mounted x.key ⟨x.component.id, x.component.name⟩ (by
      rw [h.mounted]
      intro p hp
      obtain ⟨y, hy, rfl⟩ := List.mem_map.mp hp
      exact hlt y hy)
    simpa [Renderer.withExhibit, attach, h.mounted, Exhibit.mounted] using hi
  · simp [Renderer.withExhibit, attach, h.directory, List.filterMap_append, List.filterMap_cons]
    cases x.registered? <;> rfl
  · cases hc : x.component.cascade with
    | none => simp [Renderer.withExhibit, attach, hc, h.subscriptions, Exhibit.subscription?]
    | some c =>
      have hi := KeyMap.insert_append r.subscriptions x.key c (by
        rw [h.subscriptions]
        intro p hp
        obtain ⟨y, hy, hyp⟩ := List.mem_filterMap.mp hp
        exact Exhibit.fst_of_subscription? hyp ▸ hlt y hy)
      simpa [Renderer.withExhibit, attach, hc, h.subscriptions, Exhibit.subscription?] using hi
  · show sources.map fixedPart = _
    rw [hs, h.sources, List.filterMap_append]
    cases hx : x.source? <;> simp [hx]
  · have hn : ∀ b ∈ r.bindings, b.node ≠ x.key := by
      rw [h.bindings]
      intro b hb he
      obtain ⟨y, hy, hb⟩ := List.mem_flatMap.mp hb
      have := hlt y hy
      rw [← Exhibit.node_of_mem_bindings hb, he] at this
      exact Nat.lt_irrefl _ this
    have hf := Bindings.foldl_bind_append x.key x.component.events hn []
    rw [List.append_nil] at hf
    show x.component.events.foldl (fun bs e => Bindings.bind bs x.key e.1 e.2) r.bindings = _
    rw [hf, h.bindings, List.flatMap_append, List.flatMap_singleton]
    rfl

/-- What is shown depends on the fixed part of the sources only. -/
theorem Shows.of_fixedPart {sources : KeyMap Source} (h : Shows xs r)
    (hs : sources.map fixedPart = r.sources.map fixedPart) (stage : Stage W) :
    Shows xs { r with sources, stage } :=
  ⟨h.rising, h.fresh, h.usable, h.mounted, h.directory, h.subscriptions, hs.trans h.sources,
    h.bindings⟩

end

end Renderer

end LiveLayout.Live
