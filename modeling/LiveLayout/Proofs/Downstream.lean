import LiveLayout.Proofs.Stirring

/-!
# Who follows whom

Nodes that follow others form a forest: ids are unique, so each node has one
parent, and the check has ruled out circles. Going down from some nodes that
are apart, propagation comes to each node below them once, clears it, and
leaves all others alone.
-/

namespace LiveLayout.Live

open Layout (Linked)
open Relation (TransGen ReflTransGen)

-- ---------------------------------------------------------------------------
-- Forests
-- ---------------------------------------------------------------------------

/-- Everybody has one parent at most, and nobody is below themselves. -/
structure Forest (child : α → α → Prop) : Prop where
  parent : ∀ {p q c}, child p c → child q c → p = q
  acyclic : ∀ p, ¬TransGen child p p

/-- Nothing is reached from both. -/
def Apart (child : α → α → Prop) (p q : α) : Prop :=
  ∀ k, ReflTransGen child p k → ¬ReflTransGen child q k

namespace Forest

variable {child : α → α → Prop}

theorem total (hf : Forest child) (hp : ReflTransGen child p k) (hq : ReflTransGen child q k) :
    ReflTransGen child p q ∨ ReflTransGen child q p := by
  have hu : Relator.RightUnique (Function.swap child) := fun c p q h h' => hf.parent h h'
  have ht := ReflTransGen.total_of_right_unique hu
    (Relation.reflTransGen_swap.mpr hp) (Relation.reflTransGen_swap.mpr hq)
  exact (ht.imp Relation.reflTransGen_swap.mp Relation.reflTransGen_swap.mp).symm

/-- Who is above a child is its parent or above that. -/
theorem above_parent (hf : Forest child) (hc : child p c) (h : TransGen child q c) :
    ReflTransGen child q p := by
  obtain ⟨m, hm, hmc⟩ := TransGen.tail'_iff.mp h
  exact hf.parent hmc hc ▸ hm

theorem not_sibling_below (hf : Forest child) (hc : child p c) (hd : child p d)
    (h : ReflTransGen child c d) : c = d := by
  rcases Relation.reflTransGen_iff_eq_or_transGen.mp h with he | ht
  · exact he.symm
  · exact absurd (TransGen.head' hc (hf.above_parent hd ht)) (hf.acyclic p)

theorem siblings_apart (hf : Forest child) (hc : child p c) (hd : child p d) (hne : c ≠ d) :
    Apart child c d := by
  intro k hck hdk
  rcases hf.total hck hdk with h | h
  · exact hne (hf.not_sibling_below hc hd h)
  · exact hne (hf.not_sibling_below hd hc h).symm

end Forest

theorem Apart.down {child : α → α → Prop} (h : Apart child p q) (hc : child p c) :
    Apart child c q := fun k hck hqk => h k (.head hc hck) hqk

namespace Forest

-- Going down, the first of some nodes that are apart makes way for its children.
variable {child : α → α → Prop} {key : α} {rest children : List α}

theorem mem_next (hc : ∀ c, c ∈ children ↔ child key c) :
    p ∈ children.reverse ++ rest ↔ child key p ∨ p ∈ rest := by
  rw [List.mem_append, List.mem_reverse, hc]

theorem next_apart (hf : Forest child) (hc : ∀ c, c ∈ children ↔ child key c)
    (hn : children.Nodup) (ha : (key :: rest).Pairwise (Apart child)) :
    (children.reverse ++ rest).Pairwise (Apart child) := by
  obtain ⟨hkey, hrest⟩ := List.pairwise_cons.mp ha
  refine List.pairwise_append.mpr ⟨List.pairwise_reverse.mpr ?_, hrest, fun p hp q hq => ?_⟩
  · refine hn.imp_of_mem fun hp hq hne => ?_
    exact hf.siblings_apart ((hc _).mp hq) ((hc _).mp hp) (Ne.symm hne)
  · exact Apart.down (hkey q hq) ((hc p).mp (List.mem_reverse.mp hp))

/-- The first node itself is not reached again. -/
theorem next_reached (hf : Forest child) (hc : ∀ c, c ∈ children ↔ child key c)
    (ha : (key :: rest).Pairwise (Apart child)) (hp : p ∈ children.reverse ++ rest)
    (hk : ReflTransGen child p k) : k ≠ key ∧ ∃ q ∈ key :: rest, ReflTransGen child q k := by
  rcases (mem_next hc).mp hp with hp | hp
  · refine ⟨?_, key, List.mem_cons_self, .head hp hk⟩
    rintro rfl
    exact hf.acyclic _ (TransGen.head' hp hk)
  · refine ⟨?_, p, List.mem_cons_of_mem _ hp, hk⟩
    rintro rfl
    exact (List.pairwise_cons.mp ha).1 p hp _ .refl hk

theorem below_next (hc : ∀ c, c ∈ children ↔ child key c) :
    (∃ p ∈ key :: rest, TransGen child p k) ↔
      child key k ∨ ∃ p ∈ children.reverse ++ rest, TransGen child p k := by
  constructor
  · rintro ⟨p, hp, hpk⟩
    rcases List.mem_cons.mp hp with rfl | hp
    · obtain ⟨c, hpc, hck⟩ := TransGen.head'_iff.mp hpk
      rcases Relation.reflTransGen_iff_eq_or_transGen.mp hck with rfl | hck
      · exact .inl hpc
      · exact .inr ⟨c, (mem_next hc).mpr (.inl hpc), hck⟩
    · exact .inr ⟨p, (mem_next hc).mpr (.inr hp), hpk⟩
  · rintro (hk | ⟨p, hp, hpk⟩)
    · exact ⟨key, List.mem_cons_self, .single hk⟩
    · rcases (mem_next hc).mp hp with hp | hp
      · exact ⟨key, List.mem_cons_self, .head hp hpk⟩
      · exact ⟨p, List.mem_cons_of_mem _ hp, hpk⟩

theorem not_below_next (hf : Forest child) (hc : ∀ c, c ∈ children ↔ child key c)
    (ha : (key :: rest).Pairwise (Apart child)) (hk : child key k) :
    ¬∃ p ∈ children.reverse ++ rest, TransGen child p k := by
  rintro ⟨p, hp, hpk⟩
  rcases (mem_next hc).mp hp with hp | hp
  · exact hf.acyclic key (TransGen.head' hp (hf.above_parent hk hpk))
  · exact (List.pairwise_cons.mp ha).1 p hp k (.single hk) hpk.to_reflTransGen

end Forest

namespace Renderer

section
variable {W : Type} {r r' : Renderer W}

/-- Some steps down from a node, at least one. -/
abbrev Below (r : Renderer W) (parent : NodeKey) : NodeKey → Prop := TransGen (Follows r) parent

theorem SameLayout.follows_eq (h : SameLayout r r') : Follows r' = Follows r := by
  unfold Follows
  rw [h.mounted_eq, h.subscriptions_eq]

theorem SameLayout.below_iff (h : SameLayout r r') : Below r' p k ↔ Below r p k := by
  unfold Below
  rw [h.follows_eq]

/-- A step down in the layout goes up a link, if the child has an id. -/
theorem Shows.linked (h : Shows xs r) (hf : Follows r p q) (hq : KeyMap.get? r.mounted q = some mq)
    (hj : mq.id = some j) : ∃ mp i, KeyMap.get? r.mounted p = some mp ∧ mp.id = some i ∧
      Linked (Layout.links (xs.map (·.component))) j i := by
  obtain ⟨mp, i, c, hm, hi, hc, hp⟩ := hf
  obtain ⟨x, hx, rfl, rfl⟩ := h.get?_mounted.mp hq
  obtain ⟨y, hy, hk, hyc⟩ := h.get?_subscriptions.mp hc
  obtain rfl := h.key_inj hy hx hk
  refine ⟨mp, i, hm, hi, Layout.mem_links.mpr ⟨y.component, List.mem_map_of_mem hx, hj, ?_⟩⟩
  exact ⟨c, hyc, hp⟩

theorem Shows.below_linked (h : Shows xs r) (hb : Below r p q)
    (hq : KeyMap.get? r.mounted q = some mq) (hj : mq.id = some j) :
    ∃ mp i, KeyMap.get? r.mounted p = some mp ∧ mp.id = some i ∧
      TransGen (Linked (Layout.links (xs.map (·.component)))) j i := by
  induction hb generalizing mq j with
  | single hf =>
    obtain ⟨mp, i, hm, hi, hl⟩ := h.linked hf hq hj
    exact ⟨mp, i, hm, hi, .single hl⟩
  | tail _ hf ih =>
    obtain ⟨mc, k, hm, hk, hl⟩ := h.linked hf hq hj
    obtain ⟨mp, i, hmp, hi, ht⟩ := ih hm hk
    exact ⟨mp, i, hmp, hi, .head hl ht⟩

theorem Shows.forest (h : Shows xs r) : Forest (Follows r) where
  parent := by
    rintro p q c ⟨mp, i, cp, hmp, hi, hcp, rfl⟩ ⟨mq, j, cq, hmq, hj, hcq, rfl⟩
    obtain rfl : cp = cq := Option.some.inj (hcp.symm.trans hcq)
    obtain ⟨x, hx, rfl, rfl⟩ := h.get?_mounted.mp hmp
    obtain ⟨y, hy, rfl, rfl⟩ := h.get?_mounted.mp hmq
    rw [h.id_inj hx hy hi hj]
  acyclic := by
    intro p hp
    obtain ⟨c, ⟨mp, i, -, hm, hi, -, -⟩, -⟩ := TransGen.head'_iff.mp hp
    obtain ⟨mp', i', hm', hi', hl⟩ := h.below_linked hp hm hi
    obtain rfl : mp = mp' := Option.some.inj (hm.symm.trans hm')
    obtain rfl : i = i' := Option.some.inj (hi.symm.trans hi')
    exact h.usable.acyclic i hl

theorem followers_subset (r : Renderer W) (key : NodeKey) :
    ∀ child ∈ followers r key, child ∈ KeyMap.keys r.subscriptions := by
  intro child hc
  unfold followers at hc
  split at hc
  · obtain ⟨p, hp, rfl⟩ := List.mem_map.mp hc
    exact List.mem_map_of_mem (List.mem_filter.mp hp).1
  · cases hc

theorem Shows.nodup_subscribers (h : Shows xs r) (p : NodeKey × Layout.Cascade → Bool) :
    ((r.subscriptions.filter p).map (·.1)).Nodup :=
  nodup_of_rising (h.rising_subscriptions.filter p)

theorem Shows.nodup_followers (h : Shows xs r) (key : NodeKey) : (followers r key).Nodup := by
  unfold followers
  split
  · exact h.nodup_subscribers _
  · exact .nil

-- ---------------------------------------------------------------------------
-- Clearing some nodes
-- ---------------------------------------------------------------------------

/-- The sources of some nodes are cleared, and those of all others kept. -/
structure Clears (hit : NodeKey → Prop) (r r' : Renderer W) : Prop where
  layout : SameLayout r r'
  inside : ∀ k, hit k → KeyMap.get? r'.sources k = (KeyMap.get? r.sources k).map Source.cleared
  outside : ∀ k, ¬hit k → KeyMap.get? r'.sources k = KeyMap.get? r.sources k

theorem Clears.none {hit : NodeKey → Prop} (hn : ∀ k, ¬hit k) (r : Renderer W) : Clears hit r r :=
  ⟨.refl r, fun k hk => absurd hk (hn k), fun _ _ => rfl⟩

theorem Clears.trans {first second both : NodeKey → Prop} {r'' : Renderer W}
    (h : Clears first r r') (h' : Clears second r' r'')
    (hd : ∀ k, first k → ¬second k) (hb : ∀ k, both k ↔ first k ∨ second k) :
    Clears both r r'' := by
  refine ⟨h.layout.trans h'.layout, fun k hk => ?_, fun k hk => ?_⟩
  · rcases (hb k).mp hk with hf | hs
    · rw [h'.outside k (hd k hf), h.inside k hf]
    · rw [h'.inside k hs, h.outside k fun hf => hd k hf hs]
  · have hn := not_or.mp fun he => hk ((hb k).mpr he)
    rw [h'.outside k hn.2, h.outside k hn.1]

end

variable {W : Type} [Widget W]

theorem resetSource_clears (key : NodeKey) (r : Renderer W) :
    Clears (· = key) r (resetSource key r).2 := by
  cases hs : KeyMap.get? r.sources key with
  | none =>
    rw [resetSource_none hs]
    refine ⟨.refl r, fun k hk => ?_, fun _ _ => rfl⟩
    rw [hk, hs, Option.map_none]
  | some src =>
    rw [resetSource_some hs]
    refine ⟨sameLayout_putSource .., fun k hk => ?_, fun k hk => ?_⟩
    · rw [hk, get?_putSource, if_pos rfl, hs, Option.map_some]
    · rw [get?_putSource, if_neg (Ne.symm hk)]

theorem resetAll_clears {keys : List NodeKey} (hn : keys.Nodup) (r : Renderer W) :
    Clears (· ∈ keys) r (resetAll keys r).2 := by
  induction keys generalizing r with
  | nil => exact .none (fun _ => List.not_mem_nil) r
  | cons key rest ih =>
    obtain ⟨hk, hn⟩ := List.nodup_cons.mp hn
    refine (resetSource_clears key r).trans (ih hn _) ?_ fun _ => List.mem_cons
    rintro k rfl
    exact hk

-- ---------------------------------------------------------------------------
-- Propagation
-- ---------------------------------------------------------------------------

/-- Propagation from nodes that are apart, all of them and all below them being
fresh, clears what is below them. -/
theorem Shows.propagate_clears {r : Renderer W} (h : Shows xs r) {fresh pending : List NodeKey}
    (hf : ∀ p ∈ pending, ∀ k, ReflTransGen (Follows r) p k → k ∈ fresh)
    (ha : pending.Pairwise (Apart (Follows r))) :
    Clears (fun k => ∃ p ∈ pending, Below r p k) r (propagate fresh pending r).2 := by
  induction fresh, pending using propagate.induct (W := W) generalizing r with
  | case1 fresh =>
    rw [propagate_nil]
    exact .none (by simp) r
  | case3 fresh key rest hm => exact absurd (hf key List.mem_cons_self key .refl) hm
  | case2 fresh key rest hm ih =>
    rw [propagate_of_mem hm]
    have hforest := h.forest
    have hchild (c) : c ∈ followers r key ↔ Follows r key c := h.mem_followers
    have hc := resetAll_clears (h.nodup_followers key) r
    have hfol := hc.layout.follows_eq
    have hi := ih r (h.stirs (h.resetFollowing_stirs key)) ?_ ?_
    · simp only [Below, hfol] at hi
      refine hc.trans hi (fun k hk => ?_) fun k => ?_
      · exact hforest.not_below_next hchild ha ((hchild k).mp hk)
      · rw [hchild]
        exact Forest.below_next hchild
    · intro p hp k hpk
      rw [hfol] at hpk
      obtain ⟨hne, q, hq, hqk⟩ := hforest.next_reached hchild ha hp hpk
      rw [List.mem_erase_of_ne hne]
      exact hf q hq k hqk
    · rw [hfol]
      exact hforest.next_apart hchild (h.nodup_followers key) ha

omit [Widget W] in
/-- Whoever is reached from a node is it or follows somebody. -/
theorem reached_fresh {r : Renderer W} (hk : ReflTransGen (Follows r) key k) :
    k ∈ key :: (KeyMap.keys r.subscriptions).filter (· ≠ key) := by
  by_cases he : k = key
  · exact he ▸ List.mem_cons_self
  · rcases ReflTransGen.cases_tail hk with hk | ⟨q, -, hq⟩
    · exact absurd hk he
    · obtain ⟨_, _, c, -, -, hc, -⟩ := hq
      have hm : k ∈ KeyMap.keys r.subscriptions := List.mem_map_of_mem (KeyMap.mem_of_get? hc)
      exact List.mem_cons_of_mem _ (List.mem_filter.mpr ⟨hm, by simpa using he⟩)

theorem Shows.resetFollowers_clears {r : Renderer W} (h : Shows xs r) (key : NodeKey) :
    Clears (Below r key) r (resetFollowers key r).2 := by
  have hf : ∀ p ∈ [key], ∀ k, ReflTransGen (Follows r) p k →
      k ∈ key :: (KeyMap.keys r.subscriptions).filter (· ≠ key) := fun p hp k hk =>
    reached_fresh (List.mem_singleton.mp hp ▸ hk)
  have hc := h.propagate_clears hf (List.pairwise_singleton _ _)
  refine ⟨hc.layout, fun k hk => hc.inside k ⟨key, List.mem_singleton_self key, hk⟩, fun k hk => ?_⟩
  refine hc.outside k ?_
  rintro ⟨p, hp, hpk⟩
  exact hk (List.mem_singleton.mp hp ▸ hpk)

-- ---------------------------------------------------------------------------
-- The loop
-- ---------------------------------------------------------------------------

/-- Runs of the loop that knows only whom it has visited. -/
inductive Loop : List NodeKey → List NodeKey → Renderer W → Renderer W → Prop
  | done : Loop visited [] r r
  | skip (hv : key ∈ visited) (hr : Loop visited rest r r') : Loop visited (key :: rest) r r'
  | visit (hv : key ∉ visited)
      (hr : Loop (key :: visited) ((followers r key).reverse ++ rest)
        (resetAll (followers r key) r).2 r') :
      Loop visited (key :: rest) r r'

theorem resetAll_sameLayout (keys : List NodeKey) (r : Renderer W) :
    SameLayout r (resetAll keys r).2 := by
  induction keys generalizing r with
  | nil => exact .refl r
  | cons key rest ih => exact (resetSource_clears key r).layout.trans (ih _)

/-- Whoever follows somebody is fresh or was visited, so propagation does what
the loop does. -/
theorem propagate_loop {r : Renderer W} {fresh visited pending : List NodeKey} (hn : fresh.Nodup)
    (hd : ∀ k ∈ fresh, k ∉ visited) (hp : ∀ k ∈ pending, k ∈ fresh ∨ k ∈ visited)
    (hs : ∀ k ∈ KeyMap.keys r.subscriptions, k ∈ fresh ∨ k ∈ visited) :
    Loop visited pending r (propagate fresh pending r).2 := by
  induction fresh, pending using propagate.induct (W := W) generalizing r visited with
  | case1 fresh =>
    rw [propagate_nil]
    exact .done
  | case3 fresh key rest hm ih =>
    rw [propagate_of_notMem hm]
    refine .skip ((hp key List.mem_cons_self).resolve_left hm) (ih hn hd ?_ hs)
    exact fun k hk => hp k (List.mem_cons_of_mem _ hk)
  | case2 fresh key rest hm ih =>
    rw [propagate_of_mem hm]
    have hmove : ∀ k, k ∈ fresh ∨ k ∈ visited → k ∈ fresh.erase key ∨ k ∈ key :: visited := by
      intro k hk
      by_cases he : k = key
      · exact .inr (he ▸ List.mem_cons_self)
      · rw [List.mem_erase_of_ne he]
        exact hk.imp_right (List.mem_cons_of_mem _)
    refine .visit (hd key hm) (ih r (hn.erase key) ?_ ?_ ?_)
    · intro k hk hv
      obtain ⟨hne, hk⟩ := (List.Nodup.mem_erase_iff hn).mp hk
      rcases List.mem_cons.mp hv with he | hv
      · exact hne he
      · exact hd k hk hv
    · intro k hk
      refine hmove k ?_
      rcases List.mem_append.mp hk with hk | hk
      · exact hs k (followers_subset r key k (List.mem_reverse.mp hk))
      · exact hp k (List.mem_cons_of_mem _ hk)
    · rw [(resetAll_sameLayout (followers r key) r).subscriptions_eq]
      exact fun k hk => hmove k (hs k hk)

end Renderer

end LiveLayout.Live
