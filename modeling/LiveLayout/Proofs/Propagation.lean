import LiveLayout.Proofs.Downstream
import LiveLayout.Proofs.Settling

/-!
# What an event or a refresh moves

An event is answered by the children that follow it, a refresh by the node
itself. Whoever is below them is cleared, whoever answers is left as the answer
has it, and no other source is touched.
-/

namespace LiveLayout.Live

open Relation (TransGen ReflTransGen)

/-- Operations that set data moving. -/
inductive Trigger where
  | fire (id event : String) (payload : Json)
  | fireKey (key : NodeKey) (event : String) (payload : Json)
  | refresh (id : String)
  | refreshKey (key : NodeKey)

def Trigger.operation : Trigger → Operation
  | .fire id event payload => .fire id event payload
  | .fireKey key event payload => .fireKey key event payload
  | .refresh id => .refresh id
  | .refreshKey key => .refreshKey key

/-- What an action does to the source of its node. -/
def Action.effect : Action → Source → Source
  | .fetch _ endpoint => fun src => src.fetched endpoint
  | .reset _ => Source.cleared

theorem Action.origin_effect (a : Action) (src : Source) :
    (a.effect src).origin = src.origin := by
  cases a <;> rfl

/-- What a refresh that has something to load does to a source: the last request
is made again, or the first load is done again. -/
def Source.reloaded (src : Source) : Source :=
  match src.lastEndpoint, src.feed with
  | some endpoint, _ => src.fetched endpoint
  | none, some (.inline records) => src.supplied records
  | none, some (.remote r) => src.fetched r.endpoint
  | none, none => src

theorem Source.origin_reloaded (src : Source) : src.reloaded.origin = src.origin := by
  unfold Source.reloaded
  split <;> rfl

namespace Renderer

section
variable {W : Type} {r r' : Renderer W}

/-- A node follows this event of its parent. -/
def Subscribes (r : Renderer W) (parent : NodeKey) (event : String) (child : NodeKey) : Prop :=
  ∃ m id c, KeyMap.get? r.mounted parent = some m ∧ m.id = some id ∧
    KeyMap.get? r.subscriptions child = some c ∧ c.parent = id ∧ c.event = event

theorem Subscribes.follows (hs : Subscribes r p event c) : Follows r p c := by
  obtain ⟨m, id, cascade, hm, hi, hc, hp, -⟩ := hs
  exact ⟨m, id, cascade, hm, hi, hc, hp⟩

theorem Shows.source_of_below (h : Shows xs r) (hb : Below r p k) :
    ∃ src, KeyMap.get? r.sources k = some src := by
  obtain ⟨q, -, -, -, c, -, -, hc, -⟩ := TransGen.tail'_iff.mp hb
  obtain ⟨src, hs, -⟩ := h.source_of_subscription hc
  exact ⟨src, hs⟩

theorem Shows.source_of_subscribes (h : Shows xs r) (hs : Subscribes r key event node) :
    ∃ src, KeyMap.get? r.sources node = some src :=
  h.source_of_below (.single hs.follows)

-- ---------------------------------------------------------------------------
-- Answers
-- ---------------------------------------------------------------------------

/-- Some nodes answer, each in its way, and what is below them is cleared. -/
structure Answered (hit : NodeKey → (Source → Source) → Prop) (r r' : Renderer W) : Prop where
  layout : SameLayout r r'
  apart : ∀ p f q g, hit p f → hit q g → ¬Below r p q
  direct : ∀ p f, hit p f → KeyMap.get? r'.sources p = (KeyMap.get? r.sources p).map f
  below : ∀ p f k, hit p f → Below r p k →
    KeyMap.get? r'.sources k = (KeyMap.get? r.sources k).map Source.cleared
  elsewhere : ∀ k, (∀ p f, hit p f → ¬ReflTransGen (Follows r) p k) →
    KeyMap.get? r'.sources k = KeyMap.get? r.sources k

theorem Answered.none {hit : NodeKey → (Source → Source) → Prop} (hn : ∀ p f, ¬hit p f)
    (hl : SameLayout r r') (hs : r'.sources = r.sources) : Answered hit r r' :=
  ⟨hl, fun p f _ _ h => absurd h (hn p f), fun p f h => absurd h (hn p f),
    fun p f _ h => absurd h (hn p f), fun k _ => by rw [hs]⟩

theorem Answered.congr {hit hit' : NodeKey → (Source → Source) → Prop} (h : Answered hit r r')
    (he : ∀ p f, hit' p f ↔ hit p f) : Answered hit' r r' := by
  obtain rfl : hit' = hit := funext fun p => funext fun f => propext (he p f)
  exact h

/-- Answers on a stage that has moved on are answers. -/
theorem Answered.of_stage {hit : NodeKey → (Source → Source) → Prop} {stage : Stage W}
    (h : Answered hit { r with stage } r') : Answered hit r r' := by
  have hl : SameLayout r { r with stage } := ⟨r.sources, stage, rfl⟩
  exact ⟨hl.trans h.layout, h.apart, h.direct, h.below, h.elsewhere⟩

/-- First one node answers, then others that are apart from it. -/
theorem Answered.cons {first rest both : NodeKey → (Source → Source) → Prop} {r'' : Renderer W}
    (h : Answered first r r') (h' : Answered rest r' r'')
    (ha : ∀ p f q g, first p f → rest q g → Apart (Follows r) p q)
    (hb : ∀ p f, both p f ↔ first p f ∨ rest p f) : Answered both r r'' := by
  have hfol := h.layout.follows_eq
  have hbel {p k} : Below r' p k ↔ Below r p k := h.layout.below_iff
  have hkeep {p f k} (hp : first p f) (hk : ReflTransGen (Follows r) p k) :
      KeyMap.get? r''.sources k = KeyMap.get? r'.sources k := by
    refine h'.elsewhere k fun q g hq hqk => ?_
    rw [hfol] at hqk
    exact ha p f q g hp hq k hk hqk
  have hwas {q g k} (hq : rest q g) (hk : ReflTransGen (Follows r) q k) :
      KeyMap.get? r'.sources k = KeyMap.get? r.sources k :=
    h.elsewhere k fun p f hp hpk => ha p f q g hp hq k hpk hk
  refine ⟨h.layout.trans h'.layout, ?_, ?_, ?_, ?_⟩
  · intro p f q g hp hq hpq
    rcases (hb p f).mp hp with hp | hp <;> rcases (hb q g).mp hq with hq | hq
    · exact h.apart p f q g hp hq hpq
    · exact ha p f q g hp hq q hpq.to_reflTransGen .refl
    · exact ha q g p f hq hp q .refl hpq.to_reflTransGen
    · exact h'.apart p f q g hp hq (hbel.mpr hpq)
  · intro p f hp
    rcases (hb p f).mp hp with hp | hp
    · rw [hkeep hp .refl, h.direct p f hp]
    · rw [h'.direct p f hp, hwas hp .refl]
  · intro p f k hp hk
    rcases (hb p f).mp hp with hp | hp
    · rw [hkeep hp hk.to_reflTransGen, h.below p f k hp hk]
    · rw [h'.below p f k hp (hbel.mpr hk), hwas hp hk.to_reflTransGen]
  · intro k hk
    rw [h'.elsewhere k fun q g hq => hfol ▸ hk q g ((hb q g).mpr (.inr hq)),
      h.elsewhere k fun p f hp => hk p f ((hb p f).mpr (.inl hp))]

end

variable {W : Type} [Widget W]

/-- A node whose source has changed answers, once its followers are reset. -/
theorem Shows.answered_one {r r' : Renderer W} (h : Shows xs r) (h' : Shows xs r')
    (hl : SameLayout r r') (key : NodeKey) (f : Source → Source)
    (hk : KeyMap.get? r'.sources key = (KeyMap.get? r.sources key).map f)
    (ho : ∀ k, k ≠ key → KeyMap.get? r'.sources k = KeyMap.get? r.sources k) :
    Answered (fun p g => p = key ∧ g = f) r (resetFollowers key r').2 := by
  have hc := h'.resetFollowers_clears key
  have hbel {p k} : Below r' p k ↔ Below r p k := hl.below_iff
  have hself : ¬Below r key key := h.forest.acyclic key
  refine ⟨hl.trans hc.layout, ?_, ?_, ?_, ?_⟩
  · rintro p _ q _ ⟨rfl, rfl⟩ ⟨rfl, rfl⟩
    exact hself
  · rintro p _ ⟨rfl, rfl⟩
    rw [hc.outside p (mt hbel.mp hself), hk]
  · rintro p _ k ⟨rfl, rfl⟩ hb
    have hne : k ≠ p := by
      rintro rfl
      exact hself hb
    rw [hc.inside k (hbel.mpr hb), ho k hne]
  · intro k hn
    have hk := hn key f ⟨rfl, rfl⟩
    rw [hc.outside k fun hb => hk (hbel.mp hb).to_reflTransGen]
    exact ho k fun he => hk (he ▸ .refl)

-- ---------------------------------------------------------------------------
-- Actions
-- ---------------------------------------------------------------------------

theorem applyAction_none {r : Renderer W} {a : Action}
    (hs : KeyMap.get? r.sources a.node = none) :
    (applyAction a r).2 = (resetFollowers a.node r).2 := by
  cases a with
  | fetch key endpoint =>
    change KeyMap.get? r.sources key = none at hs
    simp only [applyAction, run_bind, run_get]
    rw [withSource_none _ hs]
  | reset key =>
    change KeyMap.get? r.sources key = none at hs
    simp only [applyAction, run_bind]
    rw [resetSource_none hs]

/-- An action changes the source of its node before it comes to the followers. -/
theorem applyAction_some {r : Renderer W} {a : Action}
    (hs : KeyMap.get? r.sources a.node = some src) :
    ∃ stage, (applyAction a r).2 =
      (resetFollowers a.node (r.putSource a.node (a.effect src) stage)).2 := by
  cases a with
  | fetch key endpoint =>
    change KeyMap.get? r.sources key = some src at hs
    refine ⟨(src.fetch r.context endpoint r.stage).2, ?_⟩
    simp only [applyAction, run_bind, run_get]
    rw [fetchSource_some r.context hs]
    rfl
  | reset key =>
    change KeyMap.get? r.sources key = some src at hs
    refine ⟨(src.reset r.stage).2, ?_⟩
    simp only [applyAction, run_bind]
    rw [resetSource_some hs]
    rfl

/-- Putting a changed source in its place, and resetting the followers. -/
theorem Shows.putSource_answered {r : Renderer W} (h : Shows xs r)
    (hs : KeyMap.get? r.sources key = some src) {f : Source → Source}
    (ho : (f src).origin = src.origin) (stage : Stage W) :
    Answered (fun p g => p = key ∧ g = f) r
      (resetFollowers key (r.putSource key (f src) stage)).2 := by
  refine h.answered_one (h.putSource hs ho stage) (sameLayout_putSource ..) key f ?_ fun k hk => ?_
  · rw [get?_putSource, if_pos rfl, hs, Option.map_some]
  · rw [get?_putSource, if_neg (Ne.symm hk)]

theorem Shows.applyAction_answered {r : Renderer W} (h : Shows xs r) (a : Action) :
    Answered (fun p f => p = a.node ∧ f = a.effect) r (applyAction a r).2 := by
  cases hs : KeyMap.get? r.sources a.node with
  | none =>
    rw [applyAction_none hs]
    exact h.answered_one h (.refl r) a.node a.effect (by rw [hs, Option.map_none]) fun _ _ => rfl
  | some src =>
    obtain ⟨stage, he⟩ := applyAction_some hs
    rw [he]
    exact h.putSource_answered hs (a.origin_effect src) stage

theorem Shows.applyActions_answered {r : Renderer W} (h : Shows xs r) {actions : List Action}
    (hc : ∀ a ∈ actions, ∃ c, KeyMap.get? r.subscriptions a.node = some c)
    (ha : (actions.map (·.node)).Pairwise (Apart (Follows r))) :
    Answered (fun p f => ∃ a ∈ actions, p = a.node ∧ f = a.effect) r
      (applyActions actions r).2 := by
  induction actions generalizing r with
  | nil => exact .none (by simp) (.refl r) rfl
  | cons a rest ih =>
    obtain ⟨hhead, hrest⟩ := List.pairwise_cons.mp ha
    have h1 := h.applyAction_answered a
    have hs1 := h.stirs (h.applyAction_stirs a (hc a List.mem_cons_self))
    have hc1 : ∀ b ∈ rest, ∃ c,
        KeyMap.get? (applyAction a r).2.subscriptions b.node = some c := by
      rw [h1.layout.subscriptions_eq]
      exact fun b hb => hc b (List.mem_cons_of_mem _ hb)
    have h2 := ih hs1 hc1 (h1.layout.follows_eq ▸ hrest)
    refine h1.cons h2 ?_ fun p f => ?_
    · rintro p f q g ⟨rfl, -⟩ ⟨b, hb, rfl, -⟩
      exact hhead _ (List.mem_map_of_mem hb)
    · simp [List.mem_cons]

-- ---------------------------------------------------------------------------
-- Events
-- ---------------------------------------------------------------------------

/-- What the children of a node do about its event, which is decided when the
handler is done. -/
def reactions (r : Renderer W) (key : NodeKey) (name : String) (payload : Json) : List Action :=
  match (KeyMap.get? r.mounted key).bind (·.id) with
  | none => []
  | some id =>
    (Subscriptions.actions r.directory id name payload r.subscriptions
      (dispatch r.bindings r.directory r.handlers ⟨name, key, some id, payload⟩ r.stage).2).1

theorem Shows.mem_reactions {r : Renderer W} (h : Shows xs r) (payload : Json) :
    node ∈ (reactions r key name payload).map (·.node) ↔ Subscribes r key name node := by
  unfold reactions Subscribes
  cases hm : KeyMap.get? r.mounted key with
  | none => simp
  | some m =>
    cases hi : m.id with
    | none => simp [hi]
    | some id =>
      simp only [Option.bind_some, hi, actions_nodes, List.mem_map, List.mem_filter,
        Option.some.injEq]
      constructor
      · rintro ⟨p, ⟨hp, hd⟩, rfl⟩
        obtain ⟨h1, h2⟩ := of_decide_eq_true hd
        exact ⟨m, id, p.2, rfl, hi, h.get?_subscriptions_iff_mem.mpr hp, h1, h2⟩
      · rintro ⟨_, _, c, rfl, hj, hc, h1, h2⟩
        obtain rfl : id = _ := Option.some.inj (hi.symm.trans hj)
        exact ⟨(node, c), ⟨h.get?_subscriptions_iff_mem.mp hc, decide_eq_true ⟨h1, h2⟩⟩, rfl⟩

theorem Shows.reactions_apart {r : Renderer W} (h : Shows xs r) (key : NodeKey) (name : String)
    (payload : Json) :
    ((reactions r key name payload).map (·.node)).Pairwise (Apart (Follows r)) := by
  have hn : ((reactions r key name payload).map (·.node)).Nodup := by
    unfold reactions
    split
    · exact .nil
    · rw [actions_nodes]
      exact h.nodup_subscribers _
  refine hn.imp_of_mem fun hp hq hne => ?_
  exact h.forest.siblings_apart ((h.mem_reactions payload).mp hp).follows
    ((h.mem_reactions payload).mp hq).follows hne

/-- Firing an event ends with the reactions to it. -/
theorem fireKey_snd (key : NodeKey) (name : String) (payload : Json) (r : Renderer W) :
    ∃ stage, (fireKey key name payload r).2 =
      (applyActions (reactions r key name payload) { r with stage }).2 := by
  cases hm : KeyMap.get? r.mounted key with
  | none =>
    refine ⟨(Act.warn (.firedUnmounted name key) r.stage).2, ?_⟩
    simp only [fireKey, run_bind, run_get, reactions, hm]
    rfl
  | some m =>
    rw [fireKey_some hm]
    cases hi : m.id with
    | none =>
      refine ⟨(dispatch r.bindings r.directory r.handlers ⟨name, key, none, payload⟩ r.stage).2, ?_⟩
      simp only [reactions, hm, Option.bind_some, hi]
      rfl
    | some id =>
      refine ⟨(Subscriptions.actions r.directory id name payload r.subscriptions (dispatch
        r.bindings r.directory r.handlers ⟨name, key, some id, payload⟩ r.stage).2).2, ?_⟩
      simp only [reactions, hm, Option.bind_some, hi]
      rfl

theorem Shows.fireKey_answered {r : Renderer W} (h : Shows xs r) (key : NodeKey) (name : String)
    (payload : Json) :
    Answered (fun p f => ∃ a ∈ reactions r key name payload, p = a.node ∧ f = a.effect) r
      (fireKey key name payload r).2 := by
  obtain ⟨stage, he⟩ := fireKey_snd key name payload r
  rw [he]
  have hs : Shows xs { r with stage } := h.of_fixedPart rfl stage
  have hc : ∀ a ∈ reactions r key name payload, ∃ c,
      KeyMap.get? r.subscriptions a.node = some c := by
    intro a ha
    obtain ⟨_, _, c, _, _, hc, _⟩ := (h.mem_reactions payload).mp (List.mem_map_of_mem ha)
    exact ⟨c, hc⟩
  exact (hs.applyActions_answered hc (h.reactions_apart key name payload)).of_stage

-- ---------------------------------------------------------------------------
-- Refreshes
-- ---------------------------------------------------------------------------

/-- A refresh that has something to load reloads the source; any other leaves
it. -/
theorem Shows.refresh_fst {r : Renderer W} (h : Shows xs r)
    (hs : KeyMap.get? r.sources key = some src) (ctx : Context) (s : Stage W) :
    (src.refresh ctx s).1 = (true, src.reloaded) ∨ (src.refresh ctx s).1 = (false, src) := by
  rcases src.refresh_cases ctx s with ⟨endpoint, _, hl, he, -⟩ | ⟨-, -, he, -⟩ | ⟨hl, hc, he⟩
  · refine .inl (he.trans ?_)
    simp only [Source.reloaded, hl]
  · exact .inr he
  · refine .inl ?_
    have hm := src.mount_loads ctx s
    rw [he]
    generalize (src.mount ctx s).1 = src' at hm
    generalize (src.mount ctx s).2.traffic = u at hm
    cases hm with
    | waits hw =>
      rcases hw with hw | hw
      · exact absurd (hc.symm.trans hw) (by simp)
      · exact absurd hw (h.feed_of_source hs hc)
    | supplies hr => simp only [Source.reloaded, hl, Source.feed_of_ownRecords? hr]
    | fetches _ hf => simp only [Source.reloaded, hl, hf]

theorem Shows.refreshKey_answered {r : Renderer W} (h : Shows xs r) (key : NodeKey) :
    Answered (fun p f => (refreshKey key r).1 = true ∧ p = key ∧ f = Source.reloaded) r
      (refreshKey key r).2 := by
  cases hs : KeyMap.get? r.sources key with
  | none =>
    have he : refreshKey key r = (false, (warn (.refreshedSourceless key) r).2) := by
      simp only [refreshKey, run_bind, run_get, withSource_none _ hs]
      rfl
    rw [he]
    exact .none (by simp) ⟨r.sources, _, rfl⟩ rfl
  | some src =>
    rw [refreshKey_some hs]
    rcases h.refresh_fst hs r.context r.stage with he | he
    · rw [he, if_pos rfl]
      have ha := h.putSource_answered hs src.origin_reloaded (src.refresh r.context r.stage).2
      exact ha.congr fun p f => and_iff_right rfl
    · rw [he, if_neg (by simp)]
      refine .none ?_ (sameLayout_putSource ..) (h.rising_sources.insert_self hs)
      rintro p f ⟨hf, -⟩
      cases hf

theorem source_of_refreshed {r : Renderer W} (hr : (refreshKey key r).1 = true) :
    ∃ src, KeyMap.get? r.sources key = some src := by
  cases hs : KeyMap.get? r.sources key with
  | some src => exact ⟨src, rfl⟩
  | none =>
    simp only [refreshKey, run_bind, run_get, withSource_none _ hs] at hr
    cases hr

-- ---------------------------------------------------------------------------
-- Triggers
-- ---------------------------------------------------------------------------

/-- Nodes that an operation triggers directly: who follows the event, or who is
refreshed. -/
def Targeted (r : Renderer W) : Trigger → NodeKey → Prop
  | .fire id event _, node =>
    ∃ key, Directory.keyOf? r.directory id = some key ∧ Subscribes r key event node
  | .fireKey key event _, node => Subscribes r key event node
  | .refresh id, node => Directory.keyOf? r.directory id = some node ∧ (refresh id r).1 = true
  | .refreshKey key, node => node = key ∧ (refreshKey key r).1 = true

/-- What the trigger of a node does to its source. -/
inductive Response (r : Renderer W) : Trigger → NodeKey → (Source → Source) → Prop
  | fire {id : String} (hk : Directory.keyOf? r.directory id = some key)
      (ha : a ∈ reactions r key event payload) :
      Response r (.fire id event payload) a.node a.effect
  | fireKey (ha : a ∈ reactions r key event payload) :
      Response r (.fireKey key event payload) a.node a.effect
  | refresh {id : String} (hk : Directory.keyOf? r.directory id = some key)
      (hr : (refreshKey key r).1 = true) : Response r (.refresh id) key Source.reloaded
  | refreshKey (hr : (refreshKey key r).1 = true) :
      Response r (.refreshKey key) key Source.reloaded

/-- Nodes below those that are triggered directly. -/
def Downstream (r : Renderer W) (t : Trigger) (node : NodeKey) : Prop :=
  ∃ p, Targeted r t p ∧ Below r p node

/-- What a trigger leaves behind. -/
structure Cascaded (r : Renderer W) (t : Trigger) (r' : Renderer W) : Prop where
  disjoint : ∀ node, Targeted r t node → ¬Downstream r t node
  direct : ∀ node, Targeted r t node → ∃ src f, KeyMap.get? r.sources node = some src ∧
    Response r t node f ∧ KeyMap.get? r'.sources node = some (f src)
  below : ∀ node, Downstream r t node → ∃ src, KeyMap.get? r.sources node = some src ∧
    KeyMap.get? r'.sources node = some src.cleared
  elsewhere : ∀ node, ¬Targeted r t node → ¬Downstream r t node →
    KeyMap.get? r'.sources node = KeyMap.get? r.sources node

theorem Answered.cascaded {r r' : Renderer W} {t : Trigger} (hx : Shows xs r)
    (h : Answered (Response r t) r r')
    (ht : ∀ node, Targeted r t node ↔ ∃ f, Response r t node f)
    (hs : ∀ node, Targeted r t node → ∃ src, KeyMap.get? r.sources node = some src) :
    Cascaded r t r' := by
  refine ⟨?_, ?_, ?_, ?_⟩
  · rintro node hn ⟨p, hp, hb⟩
    obtain ⟨g, hg⟩ := (ht node).mp hn
    obtain ⟨f, hf⟩ := (ht p).mp hp
    exact h.apart p f node g hf hg hb
  · intro node hn
    obtain ⟨f, hf⟩ := (ht node).mp hn
    obtain ⟨src, hsrc⟩ := hs node hn
    exact ⟨src, f, hsrc, hf, by rw [h.direct node f hf, hsrc, Option.map_some]⟩
  · rintro node ⟨p, hp, hb⟩
    obtain ⟨f, hf⟩ := (ht p).mp hp
    obtain ⟨src, hsrc⟩ := hx.source_of_below hb
    exact ⟨src, hsrc, by rw [h.below p f node hf hb, hsrc, Option.map_some]⟩
  · intro node hn hd
    refine h.elsewhere node fun p f hf hr => ?_
    have hp : Targeted r t p := (ht p).mpr ⟨f, hf⟩
    rcases Relation.reflTransGen_iff_eq_or_transGen.mp hr with rfl | hb
    · exact hn hp
    · exact hd ⟨p, hp, hb⟩

section
variable {xs : List Exhibit} {r : Renderer W}

theorem Shows.fireKey_cascaded (h : Shows xs r) (key : NodeKey) (event : String)
    (payload : Json) :
    Cascaded r (.fireKey key event payload) (fireKey key event payload r).2 := by
  refine Answered.cascaded h ((h.fireKey_answered key event payload).congr fun p f => ?_)
    (fun node => ?_) fun node => h.source_of_subscribes
  · constructor
    · intro hr
      cases hr with
      | fireKey ha => exact ⟨_, ha, rfl, rfl⟩
    · rintro ⟨a, ha, rfl, rfl⟩
      exact .fireKey ha
  · refine (h.mem_reactions payload).symm.trans ?_
    constructor
    · intro hm
      obtain ⟨a, ha, rfl⟩ := List.mem_map.mp hm
      exact ⟨_, .fireKey ha⟩
    · rintro ⟨_, ha⟩
      cases ha with
      | fireKey ha => exact List.mem_map_of_mem ha

theorem Shows.refreshKey_cascaded (h : Shows xs r) (key : NodeKey) :
    Cascaded r (.refreshKey key) (refreshKey key r).2 := by
  refine Answered.cascaded h ((h.refreshKey_answered key).congr fun p f => ?_)
    (fun node => ?_) ?_
  · constructor
    · intro hr
      cases hr with
      | refreshKey hr => exact ⟨hr, rfl, rfl⟩
    · rintro ⟨hr, rfl, rfl⟩
      exact .refreshKey hr
  · constructor
    · rintro ⟨rfl, hr⟩
      exact ⟨_, .refreshKey hr⟩
    · rintro ⟨_, hr⟩
      cases hr with
      | refreshKey hr => exact ⟨rfl, hr⟩
  · rintro node ⟨rfl, hr⟩
    exact source_of_refreshed hr

/-- A trigger by id is the trigger of the node that has it. -/
theorem Cascaded.of_key {r' : Renderer W} {t u : Trigger} (h : Cascaded r t r')
    (ht : ∀ node, Targeted r u node ↔ Targeted r t node)
    (hr : ∀ node f, Response r t node f → Response r u node f) : Cascaded r u r' := by
  have hd : ∀ node, Downstream r u node ↔ Downstream r t node := fun node =>
    exists_congr fun p => and_congr_left fun _ => ht p
  refine ⟨fun node hn => ?_, fun node hn => ?_, fun node hn => ?_, fun node hn hb => ?_⟩
  · rw [hd]
    exact h.disjoint node ((ht node).mp hn)
  · obtain ⟨src, f, hs, hf, he⟩ := h.direct node ((ht node).mp hn)
    exact ⟨src, f, hs, hr node f hf, he⟩
  · exact h.below node ((hd node).mp hn)
  · exact h.elsewhere node (mt (ht node).mpr hn) (mt (hd node).mpr hb)

/-- Nobody is triggered, and nothing happens to the sources. -/
theorem Cascaded.none {r' : Renderer W} {t : Trigger} (hn : ∀ node, ¬Targeted r t node)
    (hs : r'.sources = r.sources) : Cascaded r t r' :=
  ⟨fun node h => absurd h (hn node), fun node h => absurd h (hn node),
    fun _ ⟨p, hp, _⟩ => absurd hp (hn p), fun _ _ _ => by rw [hs]⟩

theorem Shows.cascaded (h : Shows xs r) (t : Trigger) : Cascaded r t (r.after t.operation) := by
  cases t with
  | fireKey key event payload => exact h.fireKey_cascaded key event payload
  | refreshKey key => exact h.refreshKey_cascaded key
  | fire id event payload =>
    show Cascaded r _ (fire id event payload r).2
    simp only [fire, run_bind, run_get]
    cases hk : Directory.keyOf? r.directory id with
    | none => exact .none (by simp [Targeted, hk]) rfl
    | some key =>
      refine (h.fireKey_cascaded key event payload).of_key (by simp [Targeted, hk]) ?_
      intro node f hr
      cases hr with
      | fireKey ha => exact .fire hk ha
  | refresh id =>
    show Cascaded r _ (refresh id r).2
    cases hk : Directory.keyOf? r.directory id with
    | none =>
      simp only [refresh, run_bind, run_get, hk]
      exact .none (by simp [Targeted, hk]) rfl
    | some key =>
      have he : refresh id r = refreshKey key r := by
        simp only [refresh, run_bind, run_get, hk]
      rw [he]
      refine (h.refreshKey_cascaded key).of_key (fun node => ?_) ?_
      · simp only [Targeted, hk, he, Option.some.injEq, eq_comm]
      · intro node f hr
        cases hr with
        | refreshKey hr => exact .refresh hk hr

theorem resetFollowers_loop (hn : (KeyMap.keys r.subscriptions).Nodup) (key : NodeKey) :
    Loop [] [key] r (resetFollowers key r).2 := by
  refine propagate_loop ?_ (fun _ _ => List.not_mem_nil) (by simp) fun k hk => .inl ?_
  · exact List.nodup_cons.mpr ⟨by simp, hn.filter _⟩
  · by_cases he : k = key
    · exact he ▸ List.mem_cons_self
    · exact List.mem_cons_of_mem _ (List.mem_filter.mpr ⟨hk, by simpa using he⟩)

end

/-- After any run an event or a refresh leaves those it triggers as their own
triggers have them, clears those below them, and leaves all others. The loop
that clears them comes to an end. -/
theorem cascaded_afterAll (library : Library W) (options : Options) (ops : List Operation)
    (t : Trigger) :
    Cascaded ((new library options).afterAll ops) t
        (((new library options).afterAll ops).after t.operation) ∧
      ∀ r key, SameLayout ((new library options).afterAll ops) r →
        Loop [] [key] r (resetFollowers key r).2 := by
  obtain ⟨⟨xs, h⟩, -⟩ := (sane_new library options).afterAll ops
  refine ⟨h.cascaded t, fun r key hl => resetFollowers_loop ?_ key⟩
  obtain ⟨_, _, rfl⟩ := hl
  have hn := h.nodup_subscribers fun _ => true
  rwa [List.filter_eq_self.mpr fun _ _ => rfl] at hn

end Renderer

end LiveLayout.Live
