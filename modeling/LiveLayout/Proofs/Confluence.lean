import LiveLayout.Proofs.Coupling
import LiveLayout.Proofs.Provenance
import LiveLayout.Rehearsal.Widget

/-!
# Completions may come in any order

Two runs that set the same data moving in the same order, and get the same
answers, come to the same, wherever in between the answers arrive and are
pumped. Until the last pump the runs are coupled; after it the states of the
sources agree too, since both are told by the same answers.
-/

namespace LiveLayout.Live

open Layout (Node Component)

/-- Operations that only deal with completions. -/
def Operation.isArrival : Operation → Bool
  | .complete .. | .pump => true
  | _ => false

namespace Renderer

variable {W : Type} [Widget W]

-- ---------------------------------------------------------------------------
-- Coupled renderers
-- ---------------------------------------------------------------------------

section
omit [Widget W]

/-- All but data is the same, and the stages are alike. -/
structure Coupled (alike : W → W → Prop) (r s : Renderer W) : Prop where
  layout : SameLayout r s
  sources : ∀ key, (KeyMap.get? r.sources key).map Source.stateless =
    (KeyMap.get? s.sources key).map Source.stateless
  stage : r.stage.Like alike s.stage

/-- Runs that answer the same on coupled renderers, and leave them coupled. -/
def Steadfast (alike : W → W → Prop) (run : Run W α) : Prop :=
  ∀ r s, Coupled alike r s → (run r).1 = (run s).1 ∧ Coupled alike (run r).2 (run s).2

section
variable {alike : W → W → Prop} {r s : Renderer W}

theorem Coupled.source_cases (h : Coupled alike r s) (key : NodeKey) :
    (KeyMap.get? r.sources key = none ∧ KeyMap.get? s.sources key = none) ∨
      ∃ src state, KeyMap.get? r.sources key = some src ∧
        KeyMap.get? s.sources key = some { src with state } := by
  have hk := h.sources key
  cases hr : KeyMap.get? r.sources key with
  | none => exact .inl ⟨rfl, by simpa [hr] using hk.symm⟩
  | some src =>
    rw [hr] at hk
    obtain ⟨src', hs, he⟩ := Option.map_eq_some_iff.mp hk.symm
    obtain ⟨state, rfl⟩ := Source.stateless_eq.mp he.symm
    exact .inr ⟨src, state, rfl, hs⟩

theorem Coupled.putSource {stage stage' : Stage W} (h : Coupled alike r s) (key : NodeKey)
    (hsrc : src.stateless = src'.stateless) (hst : stage.Like alike stage') :
    Coupled alike (r.putSource key src stage) (s.putSource key src' stage') where
  layout := by
    obtain ⟨_, _, rfl⟩ := h.layout
    exact ⟨_, _, rfl⟩
  sources other := by
    by_cases hk : key = other <;> simp [get?_putSource, hk, hsrc, h.sources other]
  stage := hst

theorem Coupled.of_stage {stage stage' : Stage W} (h : Coupled alike r s)
    (hst : stage.Like alike stage') :
    Coupled alike { r with stage } { s with stage := stage' } where
  layout := by
    obtain ⟨_, _, rfl⟩ := h.layout
    exact ⟨_, _, rfl⟩
  sources := h.sources
  stage := hst

/-- Work that neither reads nor changes sources and the stage. -/
theorem Coupled.map {f : Renderer W → Renderer W} (h : Coupled alike r s)
    (hf : ∀ (r : Renderer W) sources stage,
      f { r with sources, stage } = { f r with sources, stage }) : Coupled alike (f r) (f s) := by
  obtain ⟨sources, stage, rfl⟩ := id h.layout
  have hr : f r = { f r with sources := r.sources, stage := r.stage } := hf r r.sources r.stage
  have hsources : (f r).sources = r.sources := by rw [hr]
  have hstage : (f r).stage = r.stage := by rw [hr]
  refine ⟨⟨sources, stage, hf ..⟩, fun key => ?_, ?_⟩
  · rw [hsources, hf]
    exact h.sources key
  · rw [hstage, hf]
    exact h.stage

theorem Coupled.forget (h : Coupled alike r s) (key : NodeKey) :
    Coupled alike (r.forget key) (s.forget key) where
  layout := by
    obtain ⟨_, _, rfl⟩ := h.layout
    exact ⟨_, _, rfl⟩
  sources other := by
    by_cases hk : key = other <;>
      simp [Renderer.forget, KeyMap.get?_erase, hk, h.sources other]
  stage := h.stage

theorem Coupled.foldl_forget (h : Coupled alike r s) (keys : List NodeKey) :
    Coupled alike (keys.foldl Renderer.forget r) (keys.foldl Renderer.forget s) := by
  induction keys generalizing r s with
  | nil => exact h
  | cons key rest ih => exact ih (h.forget key)

-- ---------------------------------------------------------------------------
-- Steadfast runs
-- ---------------------------------------------------------------------------

theorem Steadfast.pure (a : α) : Steadfast alike (pure a : Run W α) := fun _ _ h => ⟨rfl, h⟩

theorem Steadfast.bind {m : Run W α} {f : α → Run W β} (hm : Steadfast alike m)
    (hf : ∀ a, Steadfast alike (f a)) : Steadfast alike (m >>= f) := by
  intro r s h
  obtain ⟨h1, h2⟩ := hm r s h
  rw [run_bind, run_bind, h1]
  exact hf _ _ _ h2

theorem Steadfast.ite {c : Prop} [Decidable c] {m n : Run W α} (hm : Steadfast alike m)
    (hn : Steadfast alike n) : Steadfast alike (if c then m else n) := by
  split
  · exact hm
  · exact hn

/-- Reading what coupled renderers have in common. -/
theorem Steadfast.reading {f : Renderer W → Run W α}
    (hf : ∀ (r : Renderer W) sources stage, f { r with sources, stage } = f r)
    (hs : ∀ r, Steadfast alike (f r)) : Steadfast alike (get >>= f) := by
  intro r s h
  obtain ⟨sources, stage, rfl⟩ := id h.layout
  simp only [run_bind, run_get, hf]
  exact hs r _ _ h

theorem Steadfast.update {f : Renderer W → Renderer W}
    (hf : ∀ r s, Coupled alike r s → Coupled alike (f r) (f s)) :
    Steadfast alike (modify f : Run W PUnit) := fun r s h => ⟨rfl, hf r s h⟩

theorem Steadfast.map {f : Renderer W → Renderer W}
    (hf : ∀ (r : Renderer W) sources stage,
      f { r with sources, stage } = { f r with sources, stage }) :
    Steadfast alike (modify f : Run W PUnit) := .update fun _ _ h => h.map hf

theorem Steadfast.onStage {act : Act W α} (ha : Steady alike act) :
    Steadfast alike (onStage act) := by
  intro r s h
  obtain ⟨h1, h2⟩ := ha _ _ h.stage
  exact ⟨h1, h.of_stage h2⟩

theorem Steadfast.warn (w : Warning) : Steadfast alike (warn w : Run W Unit) :=
  .onStage fun _ _ h => ⟨rfl, h.record _ _⟩

theorem Steadfast.withSource {act : Source → Act W (α × Source)} (key : NodeKey)
    (ha : Source.Steady alike act) : Steadfast alike (withSource key act) := by
  intro r s h
  rcases h.source_cases key with ⟨hr, hs⟩ | ⟨src, state, hr, hs⟩
  · rw [withSource_none _ hr, withSource_none _ hs]
    exact ⟨rfl, h⟩
  · obtain ⟨h1, h2, h3⟩ := ha src state _ _ h.stage
    rw [withSource_some _ hr, withSource_some _ hs, h1]
    exact ⟨rfl, h.putSource key h2 h3⟩

end

end

section
variable {alike : W → W → Prop} {r s t : Renderer W}

theorem Coupled.refl (hb : Blind alike) (r : Renderer W) : Coupled alike r r :=
  ⟨.refl r, fun _ => rfl, .refl hb r.stage⟩

theorem Coupled.symm (hb : Blind alike) (h : Coupled alike r s) : Coupled alike s r where
  layout := by
    obtain ⟨_, _, rfl⟩ := h.layout
    exact ⟨r.sources, r.stage, rfl⟩
  sources key := (h.sources key).symm
  stage := h.stage.symm hb

theorem Coupled.trans (hb : Blind alike) (h : Coupled alike r s) (h' : Coupled alike s t) :
    Coupled alike r t :=
  ⟨h.layout.trans h'.layout, fun key => (h.sources key).trans (h'.sources key),
    h.stage.trans hb h'.stage⟩

-- ---------------------------------------------------------------------------
-- Events and refreshes
-- ---------------------------------------------------------------------------

theorem resetSource_steadfast (hb : Blind alike) (key : NodeKey) :
    Steadfast alike (resetSource key : Run W Unit) :=
  .bind (.withSource key (Source.reset_steady hb)) fun _ => .pure _

theorem resetAll_steadfast (hb : Blind alike) (keys : List NodeKey) :
    Steadfast alike (resetAll keys : Run W Unit) := by
  induction keys with
  | nil => exact .pure _
  | cons key rest ih => exact .bind (resetSource_steadfast hb key) fun _ => ih

theorem propagate_steadfast (hb : Blind alike) (fresh pending : List NodeKey) :
    Steadfast alike (propagate fresh pending : Run W Unit) := by
  induction fresh, pending using propagate.induct (W := W) with
  | case1 fresh =>
    rw [propagate]
    exact .pure _
  | case2 fresh key rest hm ih =>
    rw [propagate, dif_pos hm]
    exact .reading (fun _ _ _ => rfl) fun r => .bind (resetAll_steadfast hb _) fun _ => ih r
  | case3 fresh key rest hm ih =>
    rw [propagate, dif_neg hm]
    exact ih

theorem resetFollowers_steadfast (hb : Blind alike) (key : NodeKey) :
    Steadfast alike (resetFollowers key : Run W Unit) :=
  .reading (fun _ _ _ => rfl) fun _ => propagate_steadfast hb _ _

theorem applyAction_steadfast (hb : Blind alike) (a : Action) :
    Steadfast alike (applyAction a : Run W Unit) := by
  cases a with
  | fetch key endpoint =>
    refine .reading (fun _ _ _ => rfl) fun r => ?_
    exact .bind (.withSource key (Source.fetch_steady hb _ endpoint)) fun _ =>
      resetFollowers_steadfast hb key
  | reset key =>
    exact .bind (resetSource_steadfast hb key) fun _ => resetFollowers_steadfast hb key

theorem applyActions_steadfast (hb : Blind alike) (actions : List Action) :
    Steadfast alike (applyActions actions : Run W Unit) := by
  induction actions with
  | nil => exact .pure _
  | cons a rest ih => exact .bind (applyAction_steadfast hb a) fun _ => ih

theorem cascadeFrom_steadfast (hb : Blind alike) (event : Event) :
    Steadfast alike (cascadeFrom event : Run W Unit) := by
  unfold cascadeFrom
  cases event.sourceId with
  | none => exact .pure _
  | some id =>
    refine .reading (fun _ _ _ => rfl) fun r => ?_
    exact .bind (.onStage ((actions_talk ..).steady hb)) (applyActions_steadfast hb)

theorem fireKey_steadfast (hb : Blind alike) (key : NodeKey) (name : String) (payload : Json) :
    Steadfast alike (fireKey key name payload : Run W Bool) := by
  refine .reading (fun _ _ _ => rfl) fun r => ?_
  cases KeyMap.get? r.mounted key with
  | none => exact .bind (.warn _) fun _ => .pure _
  | some m =>
    exact .bind (.onStage ((dispatch_talk ..).steady hb)) fun _ =>
      .bind (cascadeFrom_steadfast hb _) fun _ => .pure _

theorem fire_steadfast (hb : Blind alike) (id name : String) (payload : Json) :
    Steadfast alike (fire id name payload : Run W Bool) := by
  refine .reading (fun _ _ _ => rfl) fun r => ?_
  cases Directory.keyOf? r.directory id with
  | none => exact .bind (.warn _) fun _ => .pure _
  | some key => exact fireKey_steadfast hb key name payload

theorem refreshKey_steadfast (hb : Blind alike) (key : NodeKey) :
    Steadfast alike (refreshKey key : Run W Bool) := by
  refine .reading (fun _ _ _ => rfl) fun r => ?_
  refine .bind (.withSource key (Source.refresh_steady hb _)) fun refreshed => ?_
  cases refreshed with
  | none => exact .bind (.warn _) fun _ => .pure _
  | some refreshed =>
    cases refreshed with
    | true => exact .bind (resetFollowers_steadfast hb key) fun _ => .pure _
    | false => exact .pure _

theorem refresh_steadfast (hb : Blind alike) (id : String) :
    Steadfast alike (refresh id : Run W Bool) := by
  refine .reading (fun _ _ _ => rfl) fun r => ?_
  cases Directory.keyOf? r.directory id with
  | none => exact .bind (.warn _) fun _ => .pure _
  | some key => exact refreshKey_steadfast hb key

-- ---------------------------------------------------------------------------
-- Taking down
-- ---------------------------------------------------------------------------

omit [Widget W] in
theorem teardown_steadfast : Steadfast alike (teardown : Run W Unit) := by
  refine .update fun r s h => ?_
  obtain ⟨_, _, rfl⟩ := id h.layout
  have hf := h.foldl_forget (KeyMap.keys r.mounted)
  obtain ⟨_, _, he⟩ := id hf.layout
  exact ⟨⟨_, _, by rw [he]⟩, hf.sources, hf.stage⟩

omit [Widget W] in
theorem unmountKey_steadfast (key : NodeKey) :
    Steadfast alike (unmountKey key : Run W Bool) := by
  intro r s h
  obtain ⟨sources, stage, rfl⟩ := id h.layout
  rw [unmountKey_run, unmountKey_run]
  cases KeyMap.get? r.mounted key with
  | none => exact ⟨rfl, h⟩
  | some m => exact ⟨rfl, ⟨_, _, rfl⟩, (h.forget key).sources, h.stage⟩

omit [Widget W] in
theorem unmount_steadfast (id : String) : Steadfast alike (unmount id : Run W Bool) := by
  refine .reading (fun _ _ _ => rfl) fun r => ?_
  cases Directory.keyOf? r.directory id with
  | none => exact .pure _
  | some key => exact unmountKey_steadfast key

-- ---------------------------------------------------------------------------
-- Mounting
-- ---------------------------------------------------------------------------

omit [Widget W] in
theorem freshKey_steadfast : Steadfast alike (freshKey : Run W NodeKey) := by
  intro r s h
  obtain ⟨_, _, rfl⟩ := id h.layout
  exact ⟨rfl, h.map (f := fun r => { r with nextKey := r.nextKey + 1 }) fun _ _ _ => rfl⟩

theorem register_steadfast (c : Component) (key : NodeKey) (handle : Handle) (w : W) :
    Steadfast alike (register c key handle w) := by
  intro r s h
  obtain ⟨_, _, rfl⟩ := id h.layout
  unfold register
  cases c.id with
  | none => exact ⟨rfl, h⟩
  | some id =>
    dsimp only
    cases Directory.register r.directory id ⟨key, handle, Widget.capabilities w⟩ with
    | error e => exact ⟨rfl, h⟩
    | ok directory => exact ⟨rfl, h.map (f := ({ · with directory })) fun _ _ _ => rfl⟩

theorem mountSource_steadfast (hb : Blind alike) (c : Component) (key : NodeKey)
    (handle : Handle) : Steadfast alike (mountSource c key handle : Run W Unit) := by
  unfold mountSource
  refine .ite ?_ (.pure _)
  refine .reading (fun _ _ _ => rfl) fun r => ?_
  refine .bind (.onStage (Source.mount_steady hb _ _)) fun src => .update fun r s h => ?_
  exact h.putSource key rfl h.stage

theorem mountComponent_steadfast (hb : Blind alike) (c : Component) :
    Steadfast alike (mountComponent c : Run W (Option SceneNode)) := by
  refine .reading (fun _ _ _ => rfl) fun r => ?_
  cases Fields.get? r.library c.name with
  | none => exact .bind (.warn _) fun _ => .pure _
  | some make =>
    refine .bind (.onStage (.add hb _)) fun handle => .bind freshKey_steadfast fun key => ?_
    refine .bind (register_steadfast c key handle _) fun registered => ?_
    cases registered with
    | error rejection => exact .bind (.warn _) fun _ => .pure _
    | ok =>
      refine .bind (mountSource_steadfast hb c key handle) fun _ => ?_
      exact .bind (.map fun _ _ _ => rfl) fun _ => .pure _

mutual
theorem mountNode_steadfast (hb : Blind alike) (n : Node) :
    Steadfast alike (mountNode n : Run W (Option SceneNode)) := by
  cases n with
  | container frame children =>
    unfold mountNode
    exact .bind (mountAll_steadfast hb children) fun _ => .pure _
  | component c =>
    unfold mountNode
    exact mountComponent_steadfast hb c
theorem mountAll_steadfast (hb : Blind alike) (ns : List Node) :
    Steadfast alike (mountAll ns : Run W (List SceneNode)) := by
  cases ns with
  | nil =>
    unfold mountAll
    exact .pure _
  | cons n rest =>
    unfold mountAll
    exact .bind (mountNode_steadfast hb n) fun _ => .bind (mountAll_steadfast hb rest) fun _ =>
      .pure _
end

omit [Widget W] in
theorem forM_warn_steadfast (concerns : List Layout.Concern) :
    Steadfast alike (concerns.forM fun c => warn (.concern c) : Run W Unit) := by
  induction concerns with
  | nil => exact .pure _
  | cons c rest ih => exact .bind (.warn _) fun _ => ih

theorem render_steadfast (hb : Blind alike) (tree : Node) (handlers : Handlers) :
    Steadfast alike (render tree handlers : Run W (Except Layout.Rejection Scene)) := by
  unfold render
  cases Layout.check tree with
  | error rejection => exact .pure _
  | ok concerns =>
    refine .bind (forM_warn_steadfast concerns) fun _ => .bind teardown_steadfast fun _ => ?_
    refine .bind (.map fun _ _ _ => rfl) fun _ => .bind (mountNode_steadfast hb tree) fun _ => ?_
    refine .bind (.map fun _ _ _ => rfl) fun _ => ?_
    -- the summaries are noted, and need not be the same
    intro r s h
    exact ⟨rfl, h.of_stage (h.stage.record _ _)⟩

-- ---------------------------------------------------------------------------
-- Operations
-- ---------------------------------------------------------------------------

/-- Operations that set data moving keep renderers coupled. -/
theorem Coupled.after (hb : Blind alike) (h : Coupled alike r s) {op : Operation}
    (ho : op.isArrival = false) : Coupled alike (r.after op) (s.after op) := by
  cases op with
  | occupy handles =>
    refine h.of_stage ⟨h.stage.count, h.stage.widgets, rfl, h.stage.jobs⟩
  | render tree handlers => exact (render_steadfast hb tree handlers r s h).2
  | teardown => exact (teardown_steadfast r s h).2
  | unmount id => exact (unmount_steadfast id r s h).2
  | unmountKey key => exact (unmountKey_steadfast key r s h).2
  | fire id event payload => exact (fire_steadfast hb id event payload r s h).2
  | fireKey key event payload => exact (fireKey_steadfast hb key event payload r s h).2
  | refresh id => exact (refresh_steadfast hb id r s h).2
  | refreshKey key => exact (refreshKey_steadfast hb key r s h).2
  | complete | pump => cases ho

theorem coupled_applyAll (hb : Blind alike) (cs : List Completion) (r : Renderer W) :
    Coupled alike r (applyAll cs r).2 := by
  induction cs generalizing r with
  | nil => exact .refl hb r
  | cons c rest ih =>
    refine Coupled.trans hb ?_
      (ih (withSource c.ticket.node (fun src => src.apply c) r).2)
    cases hs : KeyMap.get? r.sources c.ticket.node with
    | none =>
      rw [withSource_none _ hs]
      exact .refl hb r
    | some src =>
      rw [withSource_some _ hs, Source.apply_fst]
      refine ⟨sameLayout_putSource .., fun key => ?_, src.apply_like hb c r.stage⟩
      by_cases hk : c.ticket.node = key
      · subst hk
        simp [get?_putSource, hs, Source.stateless_received]
      · simp [get?_putSource, hk]

/-- Arrivals change data only. -/
theorem coupled_arrival (hb : Blind alike) (r : Renderer W) {op : Operation}
    (ho : op.isArrival = true) : Coupled alike r (r.after op) := by
  have hr := Coupled.refl hb r
  cases op with
  | complete number response =>
    show Coupled alike r { r with stage := (Act.complete number response r.stage).2 }
    rw [complete_run]
    cases hu : r.stage.traffic.complete? number response with
    | none => exact hr
    | some u =>
      obtain ⟨job, -, rfl⟩ := Traffic.complete?_eq_some hu
      exact ⟨⟨_, _, rfl⟩, hr.sources, ⟨hr.stage.count, hr.stage.widgets, rfl, rfl⟩⟩
  | pump =>
    have hd : Coupled alike r (drained r) :=
      ⟨⟨_, _, rfl⟩, hr.sources, ⟨hr.stage.count, hr.stage.widgets, rfl, rfl⟩⟩
    show Coupled alike r (pump r).2
    rw [pump_snd]
    exact hd.trans hb (coupled_applyAll hb _ _)
  | _ => cases ho

/-- A run is coupled to what it sets moving, without the arrivals. -/
theorem Coupled.afterAll (hb : Blind alike) (h : Coupled alike r s) (ops : List Operation) :
    Coupled alike (r.afterAll ops) (s.afterAll (ops.filter (!·.isArrival))) := by
  induction ops generalizing r s with
  | nil => exact h
  | cons op ops ih =>
    cases ho : op.isArrival with
    | true =>
      rw [List.filter_cons_of_neg (by simp [ho])]
      exact ih (((coupled_arrival hb r ho).symm hb).trans hb h)
    | false =>
      rw [List.filter_cons_of_pos (by simp [ho])]
      exact ih (h.after hb ho)

end

-- ---------------------------------------------------------------------------
-- The end of a run
-- ---------------------------------------------------------------------------

/-- What runs that are confluent have in common in the end. -/
structure Agree (r s : Renderer W) : Prop where
  jobs : r.stage.traffic.jobs = s.stage.traffic.jobs
  directory : r.directory = s.directory
  tree : r.tree = s.tree
  subscriptions : r.subscriptions = s.subscriptions
  mounted : r.mounted = s.mounted
  bindings : r.bindings = s.bindings
  sources : ∀ key, KeyMap.get? r.sources key = KeyMap.get? s.sources key

section
variable {alike : W → W → Prop} {r s : Renderer W}

omit [Widget W] in
/-- The data of settled renderers that are coupled and were handed the same
answers are the same. -/
theorem Coupled.agree (h : Coupled alike r s) (hr : Settled r) (hs : Settled s)
    (hd : ∀ p, p ∈ r.stage.traffic.delivered ↔ p ∈ s.stage.traffic.delivered) : Agree r s := by
  have hst := Traffic.standing_congr hr.sound hs.sound h.stage.jobs hd
  have hsources : ∀ key, KeyMap.get? r.sources key = KeyMap.get? s.sources key := by
    intro key
    rcases h.source_cases key with ⟨h1, h2⟩ | ⟨src, state, h1, h2⟩
    · rw [h1, h2]
    · obtain ⟨-, ha⟩ := hr.agree key _ h1
      obtain ⟨-, ha'⟩ := hs.agree key _ h2
      have he : src.state = state := by
        cases ho : src.ownRecords? with
        | none => exact (ha.due ho).trans ((hst src.ticket).trans (ha'.due ho).symm)
        | some records => exact (ha.own records ho).1.trans (ha'.own records ho).1.symm
      rw [h1, h2, ← he]
  obtain ⟨_, _, rfl⟩ := id h.layout
  exact ⟨h.stage.jobs, rfl, rfl, rfl, rfl, rfl, hsources⟩

end

theorem delivered_pumped (library : Library W) (options : Options) (ops : List Operation)
    (p : Nat × Completion) :
    p ∈ ((new library options).afterAll (ops ++ [.pump])).stage.traffic.delivered ↔
      ∃ job response,
        ((new library options).afterAll (ops ++ [.pump])).stage.traffic.jobs[p.1]? = some job ∧
          Completed (new library options) ops p.1 response ∧ job.complete response = p.2 := by
  refine ((ledger_afterAll library options (ops ++ [.pump])).delivered p.1 p.2).trans ?_
  refine exists₂_congr fun job response => and_congr_right fun _ => and_congr_left fun _ => ?_
  exact handed_pump

/-- Two runs from one reachable renderer that set the same data moving, and in
which the same jobs are completed with the same responses, come to the same once
all was pumped. -/
theorem confluent {alike : W → W → Prop} (hb : Blind alike) (library : Library W)
    (options : Options) (before first second : List Operation)
    (hm : first.filter (!·.isArrival) = second.filter (!·.isArrival))
    (hc : ∀ number response,
      Completed ((new library options).afterAll before) first number response ↔
        Completed ((new library options).afterAll before) second number response) :
    Agree (((new library options).afterAll before).afterAll (first ++ [.pump]))
      (((new library options).afterAll before).afterAll (second ++ [.pump])) := by
  have hrun (ops : List Operation) :
      ((new library options).afterAll before).afterAll (ops ++ [.pump]) =
        (new library options).afterAll (before ++ ops ++ [.pump]) := by
    rw [List.append_assoc, afterAll_append _ before]
  have hcoupled : Coupled alike
      (((new library options).afterAll before).afterAll (first ++ [.pump]))
      (((new library options).afterAll before).afterAll (second ++ [.pump])) := by
    have h0 := Coupled.refl hb ((new library options).afterAll before)
    have h1 := h0.afterAll hb (first ++ [.pump])
    have h2 := h0.afterAll hb (second ++ [.pump])
    rw [List.filter_append, hm, ← List.filter_append] at h1
    exact h1.trans hb (h2.symm hb)
  obtain ⟨-, hr⟩ := (sane_new library options).afterAll (before ++ first ++ [.pump])
  obtain ⟨-, hs⟩ := (sane_new library options).afterAll (before ++ second ++ [.pump])
  rw [hrun, hrun] at hcoupled ⊢
  refine hcoupled.agree hr hs fun p => ?_
  rw [delivered_pumped, delivered_pumped, hcoupled.stage.jobs]
  simp only [completed_append, hc]

-- ---------------------------------------------------------------------------
-- A late answer
-- ---------------------------------------------------------------------------

open Rehearsal (StandIn)

/-- Stand-ins do nothing with the data they are given. -/
theorem blind_standIn : Blind (W := StandIn) Eq where
  equivalence := ⟨fun _ => rfl, Eq.symm, Eq.trans⟩
  setData _ _ := rfl
  invoke := by
    rintro w _ method args rfl
    exact ⟨rfl, rfl⟩

/-- A table that fetches its rows when it is mounted. -/
def fetchingTable : Node :=
  .component { Component.plain "Table" with feed := some (.remote (.plain "/rows")) }

/-- An answer that is applied before the layout is shown again, and the same
answer after that, when nobody waits for it any more. -/
theorem confluent_late_answer :
    Agree
      (((new [("Table", StandIn.make "Table")] .default).afterAll
          [.render fetchingTable []]).afterAll
        ([.complete 0 (.ok (.array [])), .pump, .render fetchingTable [],
          .complete 1 (.ok (.array [.null]))] ++ [.pump]))
      (((new [("Table", StandIn.make "Table")] .default).afterAll
          [.render fetchingTable []]).afterAll
        ([.render fetchingTable [], .complete 1 (.ok (.array [.null])), .pump,
          .complete 0 (.ok (.array []))] ++ [.pump])) := by
  refine confluent blind_standIn _ _ _ _ _ rfl fun number response => ?_
  simp only [completed_cons, completed_nil, or_false, Operation.complete.injEq, reduceCtorEq,
    false_and, false_or]
  constructor
  · rintro (⟨h, -⟩ | ⟨h, -⟩)
    · exact .inr ⟨h, rfl⟩
    · exact .inl ⟨h, rfl⟩
  · rintro (⟨h, -⟩ | ⟨h, -⟩)
    · exact .inr ⟨h, rfl⟩
    · exact .inl ⟨h, rfl⟩

end Renderer

end LiveLayout.Live
