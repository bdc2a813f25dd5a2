import LiveLayout.Proofs.Activity
import LiveLayout.Proofs.Propagation

/-!
# Moves

As long as a layout stays, all that happens to a renderer is a run of moves: a
warning, the handler of an event, a decision about the children of a node, or a
deed of a data source. `Moves P` are those whose deeds are as `P` has it. What
every such move keeps is kept by every event, every refresh and every pump.
-/

namespace LiveLayout.Live

/-- What a data source is told to do. -/
inductive Deed where
  | fetch (endpoint : String)
  | reset
  | refresh
  | take (completion : Completion)

variable {W : Type} [Widget W]

def Deed.act (ctx : Context) (src : Source) : Deed → Act W Source
  | .fetch endpoint => Prod.snd <$> src.fetch ctx endpoint
  | .reset => src.reset
  | .refresh => Prod.snd <$> src.refresh ctx
  | .take c => Prod.snd <$> src.apply c

/-- The deed of an action. -/
def Action.deed : Action → Deed
  | .fetch _ endpoint => .fetch endpoint
  | .reset _ => .reset

namespace Renderer

/-- A source does a deed. -/
def done (r : Renderer W) (key : NodeKey) (src : Source) (deed : Deed) : Renderer W :=
  r.putSource key (deed.act r.context src r.stage).1 (deed.act r.context src r.stage).2

inductive Move (P : NodeKey → Deed → Prop) (r : Renderer W) : Renderer W → Prop
  | warns (w : Warning) : Move P r (warn w r).2
  | dispatches (event : Event) :
      Move P r (onStage (dispatch r.bindings r.directory r.handlers event) r).2
  | decides (id name : String) (payload : Json) :
      Move P r (onStage (Subscriptions.actions r.directory id name payload r.subscriptions) r).2
  | does (hs : KeyMap.get? r.sources key = some src) (hp : P key deed) :
      Move P r (r.done key src deed)

abbrev Moves (P : NodeKey → Deed → Prop) : Renderer W → Renderer W → Prop :=
  Relation.ReflTransGen (Move P)

variable {P Q : NodeKey → Deed → Prop} {r r' : Renderer W}

theorem Move.mono (h : Move P r r') (hpq : ∀ key deed, P key deed → Q key deed) : Move Q r r' := by
  cases h with
  | warns w => exact .warns w
  | dispatches event => exact .dispatches event
  | decides id name payload => exact .decides id name payload
  | does hs hp => exact .does hs (hpq _ _ hp)

theorem Moves.mono (h : Moves P r r') (hpq : ∀ key deed, P key deed → Q key deed) :
    Moves Q r r' := Relation.ReflTransGen.mono (fun _ _ hm => hm.mono hpq) _ _ h

theorem Move.sameLayout (h : Move P r r') : SameLayout r r' := by
  cases h with
  | warns | dispatches | decides => exact ⟨r.sources, _, rfl⟩
  | does => exact sameLayout_putSource ..

theorem Moves.sameLayout (h : Moves P r r') : SameLayout r r' := by
  induction h with
  | refl => exact .refl r
  | tail _ hm ih => exact ih.trans hm.sameLayout

theorem Deed.origin_act (deed : Deed) (ctx : Context) (src : Source) (s : Stage W) :
    (deed.act ctx src s).1.origin = src.origin := by
  cases deed with
  | fetch endpoint => simp [Deed.act, run_map, Source.fetch_fst]
  | reset => simp [Deed.act, Source.reset_fst]
  | refresh => simpa [Deed.act, run_map] using Source.origin_refreshed src ctx s
  | take c => simp [Deed.act, run_map, Source.apply_fst, Source.origin_received]

theorem Shows.move (h : Shows xs r) (hm : Move P r r') : Shows xs r' := by
  cases hm with
  | warns | dispatches | decides => exact h.of_fixedPart rfl _
  | does hs => exact h.putSource hs (Deed.origin_act ..) _

theorem Shows.moves (h : Shows xs r) (hm : Moves P r r') : Shows xs r' := by
  induction hm with
  | refl => exact h
  | tail _ hm ih => exact ih.move hm

-- ---------------------------------------------------------------------------
-- Deeds
-- ---------------------------------------------------------------------------

/-- Work on a source is a deed of it, if there is one. -/
theorem withSource_moves {act : Source → Act W (α × Source)} (key : NodeKey) (deed : Deed)
    (hp : P key deed) (ha : ∀ src, deed.act r.context src = Prod.snd <$> act src) :
    Moves P r (withSource key act r).2 := by
  cases hs : KeyMap.get? r.sources key with
  | none =>
    rw [withSource_none act hs]
  | some src =>
    have hd : (withSource key act r).2 = r.done key src deed := by
      rw [withSource_some act hs, done, ha, run_map]
    rw [hd]
    exact .single (.does hs hp)

theorem resetSource_moves (key : NodeKey) (hp : P key .reset) (r : Renderer W) :
    Moves P r (resetSource key r).2 := by
  refine withSource_moves key .reset hp fun src => ?_
  simp [Deed.act]

theorem resetAll_moves (hp : ∀ key, P key .reset) (keys : List NodeKey) (r : Renderer W) :
    Moves P r (resetAll keys r).2 := by
  induction keys generalizing r with
  | nil => exact .refl
  | cons key rest ih => exact (resetSource_moves key (hp key) r).trans (ih _)

theorem propagate_moves (hp : ∀ key, P key .reset) (fresh pending : List NodeKey)
    (r : Renderer W) : Moves P r (propagate fresh pending r).2 := by
  induction fresh, pending using propagate.induct (W := W) generalizing r with
  | case1 fresh => rw [propagate_nil]
  | case2 fresh key rest hm ih =>
    rw [propagate_of_mem hm]
    exact (resetAll_moves hp (followers r key) r).trans (ih r _)
  | case3 fresh key rest hm ih =>
    rw [propagate_of_notMem hm]
    exact ih r

theorem resetFollowers_moves (hp : ∀ key, P key .reset) (key : NodeKey) (r : Renderer W) :
    Moves P r (resetFollowers key r).2 := propagate_moves hp _ _ r

-- ---------------------------------------------------------------------------
-- Events, refreshes and completions
-- ---------------------------------------------------------------------------

theorem applyAction_moves (hp : ∀ key, P key .reset) (a : Action) (ha : P a.node a.deed)
    (r : Renderer W) : Moves P r (applyAction a r).2 := by
  cases a with
  | fetch key endpoint =>
    have hf : Moves P r (withSource key (fun src => src.fetch r.context endpoint) r).2 :=
      withSource_moves key (.fetch endpoint) ha fun _ => rfl
    exact hf.trans (resetFollowers_moves hp key _)
  | reset key => exact (resetSource_moves key ha r).trans (resetFollowers_moves hp key _)

theorem applyActions_moves (hp : ∀ key, P key .reset) {actions : List Action}
    (ha : ∀ a ∈ actions, P a.node a.deed) (r : Renderer W) :
    Moves P r (applyActions actions r).2 := by
  induction actions generalizing r with
  | nil => exact .refl
  | cons a rest ih =>
    obtain ⟨h, hr⟩ := List.forall_mem_cons.mp ha
    exact (applyAction_moves hp a h r).trans (ih hr _)

/-- An event moves the children that react to it, and resets whoever is below. -/
theorem fireKey_moves (hp : ∀ key, P key .reset) (key : NodeKey) (name : String) (payload : Json)
    (r : Renderer W) (ha : ∀ a ∈ reactions r key name payload, P a.node a.deed) :
    Moves P r (fireKey key name payload r).2 := by
  cases hm : KeyMap.get? r.mounted key with
  | none =>
    simp only [fireKey, run_bind, run_get, hm]
    exact .single (.warns _)
  | some m =>
    rw [fireKey_some hm]
    refine .head (.dispatches ⟨name, key, m.id, payload⟩) ?_
    unfold cascadeFrom
    cases hi : m.id with
    | none => exact .refl
    | some id =>
      refine .head (.decides id name payload) (applyActions_moves hp ?_ _)
      simpa [reactions, hm, hi] using ha

theorem refreshKey_moves (hp : ∀ key, P key .reset) (key : NodeKey) (hr : P key .refresh)
    (r : Renderer W) : Moves P r (refreshKey key r).2 := by
  have hw : Moves P r (withSource key (fun src => src.refresh r.context) r).2 :=
    withSource_moves key .refresh hr fun _ => rfl
  simp only [refreshKey, run_bind, run_get]
  cases (withSource key (fun src => src.refresh r.context) r).1 with
  | none => exact hw.tail (.warns _)
  | some refreshed =>
    cases refreshed with
    | true => exact hw.trans (resetFollowers_moves hp key _)
    | false => exact hw

theorem applyAll_moves {cs : List Completion} (hp : ∀ c ∈ cs, P c.ticket.node (.take c))
    (r : Renderer W) : Moves P r (applyAll cs r).2 := by
  induction cs generalizing r with
  | nil => exact .refl
  | cons c rest ih =>
    obtain ⟨hc, hr⟩ := List.forall_mem_cons.mp hp
    have hw : Moves P r (withSource c.ticket.node (fun src => src.apply c) r).2 :=
      withSource_moves c.ticket.node (.take c) hc fun _ => rfl
    exact hw.trans (ih hr _)

-- ---------------------------------------------------------------------------
-- Operations and runs
-- ---------------------------------------------------------------------------

theorem fire_found {id : String} (hk : Directory.keyOf? r.directory id = some key)
    (event : String) (payload : Json) : fire id event payload r = fireKey key event payload r := by
  simp only [fire, run_bind, run_get, hk]

theorem refresh_found {id : String} (hk : Directory.keyOf? r.directory id = some key) :
    refresh id r = refreshKey key r := by
  simp only [refresh, run_bind, run_get, hk]

/-- Whatever a trigger does is a run of moves. -/
theorem trigger_moves (t : Trigger) (r : Renderer W) :
    Moves (fun _ _ => True) r (r.after t.operation) := by
  have hf (key : NodeKey) (event : String) (payload : Json) :
      Moves (fun _ _ => True) r (fireKey key event payload r).2 :=
    fireKey_moves (fun _ => trivial) key event payload r fun _ _ => trivial
  have hk (key : NodeKey) : Moves (fun _ _ => True) r (refreshKey key r).2 :=
    refreshKey_moves (fun _ => trivial) key trivial r
  cases t with
  | fireKey key event payload => exact hf key event payload
  | refreshKey key => exact hk key
  | fire id event payload =>
    show Moves _ r (fire id event payload r).2
    cases hd : Directory.keyOf? r.directory id with
    | none =>
      simp only [fire, run_bind, run_get, hd]
      exact .single (.warns _)
    | some key =>
      rw [fire_found hd]
      exact hf key event payload
  | refresh id =>
    show Moves _ r (refresh id r).2
    cases hd : Directory.keyOf? r.directory id with
    | none =>
      simp only [refresh, run_bind, run_get, hd]
      exact .single (.warns _)
    | some key =>
      rw [refresh_found hd]
      exact hk key

omit [Widget W] in
/-- What is kept when a node is taken down was there before. -/
theorem source_of_unmountKey (hs : KeyMap.get? (unmountKey node r).2.sources key = some src) :
    KeyMap.get? r.sources key = some src := by
  rw [unmountKey_run] at hs
  split at hs
  · exact hs
  · change KeyMap.get? (KeyMap.erase r.sources node) key = some src at hs
    rw [KeyMap.get?_erase] at hs
    split at hs
    · cases hs
    · exact hs

theorem afterAll_concat (r : Renderer W) (ops : List Operation) (op : Operation) :
    r.afterAll (ops ++ [op]) = (r.afterAll ops).after op := by
  rw [afterAll_append, afterAll_cons, afterAll_nil]

end Renderer

end LiveLayout.Live
