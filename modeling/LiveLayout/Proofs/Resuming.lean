import LiveLayout.Proofs.Tracking

/-!
# Going on after a past

One renderer resumes what another one does if all that is shown and kept is the
same, numbers moved on, on a stage with a past. Whatever is asked of both in the
same way is answered in the same way, and the one goes on resuming the other:
this holds of every operation, down to the single source.
-/

namespace LiveLayout.Live

open Layout (Node Component Rejection)

namespace Renderer

section
variable {W : Type}

/-- The second renderer goes on after a past as the first one does without it.
All that is shown and kept is the same, numbers moved on. -/
structure Resumes (p r t : Renderer W) : Prop where
  library : t.library = r.library
  options : t.options = r.options
  handlers : Handlers.Alike p.offset r.handlers t.handlers
  directory : t.directory = r.directory.moved p.offset
  bindings : t.bindings = r.bindings.moved p.offset
  subscriptions : t.subscriptions = KeyMap.moved p.offset id r.subscriptions
  sources : t.sources = KeyMap.moved p.offset (Source.moved p.offset) r.sources
  mounted : t.mounted = KeyMap.moved p.offset id r.mounted
  tree : t.tree = r.tree.moved p.offset
  nextKey : t.nextKey = r.nextKey + p.offset.nodes
  stage : Stage.Later p r.stage t.stage
  started : 0 < r.nextKey
  supplied : ∀ key src, KeyMap.get? r.sources key = some src → 0 < key.ordinal

/-- Runs that do the same on a renderer with a past. -/
abbrev Resuming (p : Renderer W) (f : α → β) (run : Run W α) (run' : Run W β) : Prop :=
  Tracks (Resumes p) f run run'

variable {p : Renderer W}

namespace Resumes

variable {r t : Renderer W}

theorem context (h : Resumes p r t) : t.context = r.context.moved p.offset := by
  simp [Renderer.context, Context.moved, h.directory, h.options]

theorem get?_sources (h : Resumes p r t) (key : NodeKey) :
    KeyMap.get? t.sources (key.moved p.offset) =
      (KeyMap.get? r.sources key).map (Source.moved p.offset) := by
  simp [h.sources]

theorem get?_mounted (h : Resumes p r t) (key : NodeKey) :
    KeyMap.get? t.mounted (key.moved p.offset) = KeyMap.get? r.mounted key := by
  simp [h.mounted]

theorem keyOf? (h : Resumes p r t) (target : String) :
    Directory.keyOf? t.directory target =
      (Directory.keyOf? r.directory target).map (NodeKey.moved p.offset) := by
  simp [h.directory]

/-- Nodes of the past have no sources any more. -/
theorem past_source (h : Resumes p r t) (hk : key.ordinal < p.nextKey) :
    KeyMap.get? t.sources key = none := by
  refine Option.eq_none_iff_forall_not_mem.mpr fun src hs => ?_
  have hm := KeyMap.mem_of_get? hs
  rw [h.sources] at hm
  obtain ⟨q, hq, he⟩ := List.mem_map.mp hm
  obtain ⟨rfl, -⟩ := Prod.mk.inj he
  rw [h.get?_sources] at hs
  obtain ⟨own, ho, -⟩ := Option.map_eq_some_iff.mp hs
  have hp := h.supplied q.1 own ho
  simp only [NodeKey.moved, Renderer.offset] at hk
  omega

theorem followers (h : Resumes p r t) (key : NodeKey) :
    Renderer.followers t (key.moved p.offset) =
      (Renderer.followers r key).map (·.moved p.offset) := by
  unfold Renderer.followers
  rw [h.get?_mounted, h.subscriptions]
  cases (KeyMap.get? r.mounted key).bind (·.id) with
  | none => rfl
  | some id => exact Subscriptions.followersOf_moved r.subscriptions id

theorem putSource {stage stage' : Stage W} (h : Resumes p r t) (hk : 0 < key.ordinal)
    (src : Source) (hst : Stage.Later p stage stage') :
    Resumes p (r.putSource key src stage)
      (t.putSource (key.moved p.offset) (src.moved p.offset) stage') := by
  have hs : KeyMap.insert t.sources (key.moved p.offset) (src.moved p.offset) =
      KeyMap.moved p.offset (Source.moved p.offset) (KeyMap.insert r.sources key src) := by
    simp only [h.sources, KeyMap.insert_moved]
  refine { h with sources := hs, stage := hst, supplied := fun other src' hg => ?_ }
  rw [get?_putSource] at hg
  split at hg
  · next he => exact he ▸ hk
  · exact h.supplied other src' hg

theorem forget (h : Resumes p r t) (key : NodeKey) :
    Resumes p (r.forget key) (t.forget (key.moved p.offset)) := by
  refine { h with
    bindings := by simp [Renderer.forget, h.bindings]
    subscriptions := by simp [Renderer.forget, h.subscriptions]
    sources := by simp [Renderer.forget, h.sources]
    mounted := by simp [Renderer.forget, h.mounted]
    supplied := fun other src hs => ?_ }
  rw [Renderer.forget, KeyMap.get?_erase] at hs
  split at hs
  · cases hs
  · exact h.supplied other src hs

end Resumes

-- ---------------------------------------------------------------------------
-- The stage of a renderer
-- ---------------------------------------------------------------------------

theorem onStage_resuming {f : α → β} {act : Act W α} {act' : Act W β}
    (ha : Echoes p f act act') : Resuming p f (onStage act) (onStage act') := by
  refine ⟨fun r t h => ?_⟩
  obtain ⟨h1, h2⟩ := ha.run _ _ h.stage
  exact ⟨h1, { h with stage := h2 }⟩

theorem warn_resuming (w : Warning) :
    Resuming p id (Renderer.warn w) (Renderer.warn (w.moved p.offset)) := onStage_resuming (.warn w)

theorem freshKey_resuming : Resuming p (NodeKey.moved p.offset) freshKey freshKey := by
  refine ⟨fun r t h => ⟨?_, { h with nextKey := ?_, started := Nat.succ_pos _ }⟩⟩
  · exact congrArg NodeKey.mk h.nextKey
  · show t.nextKey + 1 = r.nextKey + 1 + p.offset.nodes
    rw [h.nextKey, Nat.add_right_comm]

/-- Work on the source of a node, which is there in both runs or in none. -/
theorem withSource_resuming (key : NodeKey) {f : α → α} {act act' : Source → Act W (α × Source)}
    (ha : ∀ src, Echoes p (Source.movedResult p.offset f) (act src)
      (act' (src.moved p.offset))) :
    Resuming p (Option.map f) (withSource key act) (withSource (key.moved p.offset) act') := by
  refine ⟨fun r t h => ?_⟩
  have hs' := h.get?_sources key
  cases hs : KeyMap.get? r.sources key with
  | none =>
    rw [hs, Option.map_none] at hs'
    rw [withSource_none act hs, withSource_none act' hs']
    exact ⟨rfl, h⟩
  | some src =>
    rw [hs, Option.map_some] at hs'
    rw [withSource_some act hs, withSource_some act' hs']
    obtain ⟨h1, h2⟩ := (ha src).run _ _ h.stage
    rw [h1]
    exact ⟨rfl, h.putSource (h.supplied key src hs) _ h2⟩

end

variable {W : Type} [Widget W] {p : Renderer W}

-- ---------------------------------------------------------------------------
-- Whoever follows
-- ---------------------------------------------------------------------------

theorem resetSource_resuming (key : NodeKey) :
    Resuming p id (resetSource key) (resetSource (key.moved p.offset)) := by
  refine .bind (withSource_resuming key (f := id) fun src => ?_) fun _ => .pure ()
  exact .bind (Source.reset_echoes src) fun src => .pure ((), src)

theorem resetAll_resuming (keys : List NodeKey) :
    Resuming p id (resetAll keys) (resetAll (keys.map (·.moved p.offset))) := by
  induction keys with
  | nil => exact .pure ()
  | cons key rest ih => exact .bind (resetSource_resuming key) fun _ => ih

theorem propagate_resuming (fresh pending : List NodeKey) :
    Resuming p id (propagate fresh pending)
      (propagate (fresh.map (·.moved p.offset)) (pending.map (·.moved p.offset))) := by
  induction fresh, pending using propagate.induct (W := W) with
  | case1 fresh =>
    rw [propagate, List.map_nil, propagate]
    exact .pure ()
  | case2 fresh key rest hm ih =>
    rw [propagate, dif_pos hm, List.map_cons, propagate, dif_pos (mem_map_moved.mpr hm)]
    refine .reading fun r t h => ?_
    have hp : ((followers r key).map (·.moved p.offset)).reverse ++ rest.map (·.moved p.offset) =
        ((followers r key).reverse ++ rest).map (·.moved p.offset) := by simp
    rw [h.followers, erase_map_moved]
    dsimp only
    rw [hp]
    exact .bind (resetAll_resuming _) fun _ => ih r
  | case3 fresh key rest hm ih =>
    rw [propagate, dif_neg hm, List.map_cons, propagate,
      dif_neg fun h => hm (mem_map_moved.mp h)]
    exact ih

theorem resetFollowers_resuming (key : NodeKey) :
    Resuming p id (resetFollowers key) (resetFollowers (key.moved p.offset)) := by
  refine .reading fun r t h => ?_
  have hs : key.moved p.offset :: (KeyMap.keys t.subscriptions).filter (· ≠ key.moved p.offset) =
      (key :: (KeyMap.keys r.subscriptions).filter (· ≠ key)).map (·.moved p.offset) := by
    simp [h.subscriptions, KeyMap.keys_moved, List.filter_map, Function.comp_def]
  rw [hs]
  exact propagate_resuming _ [key]

-- ---------------------------------------------------------------------------
-- Events
-- ---------------------------------------------------------------------------

theorem applyAction_resuming (a : Action) :
    Resuming p id (applyAction a) (applyAction (a.moved p.offset)) := by
  cases a with
  | fetch key endpoint =>
    refine .reading fun r t h => ?_
    rw [h.context]
    refine .bind (withSource_resuming (f := Ticket.moved p.offset) key fun src => ?_) fun _ =>
      resetFollowers_resuming key
    exact Source.fetch_echoes src r.context endpoint
  | reset key => exact .bind (resetSource_resuming key) fun _ => resetFollowers_resuming key

theorem applyActions_resuming (actions : List Action) :
    Resuming p id (applyActions actions) (applyActions (actions.map (Action.moved p.offset))) := by
  induction actions with
  | nil => exact .pure ()
  | cons a rest ih => exact .bind (applyAction_resuming a) fun _ => ih

theorem cascadeFrom_resuming (event : Event) :
    Resuming p id (cascadeFrom event) (cascadeFrom (event.moved p.offset)) := by
  unfold cascadeFrom
  rw [show (event.moved p.offset).sourceId = event.sourceId from rfl]
  cases event.sourceId with
  | none => exact .pure ()
  | some parent =>
    refine .reading fun r t h => ?_
    rw [h.directory, h.subscriptions]
    exact .bind (onStage_resuming (actions_echoes ..)) applyActions_resuming

theorem fireKey_resuming (key : NodeKey) (name : String) (payload : Json) :
    Resuming p id (fireKey key name payload) (fireKey (key.moved p.offset) name payload) := by
  refine .reading fun r t h => ?_
  rw [h.get?_mounted]
  cases KeyMap.get? r.mounted key with
  | none => exact .bind (warn_resuming (.firedUnmounted name key)) fun _ => .pure false
  | some m =>
    have hd := dispatch_echoes h.handlers r.bindings r.directory ⟨name, key, m.id, payload⟩
    rw [h.bindings, h.directory]
    refine .bind (onStage_resuming hd) fun handled => ?_
    exact .bind (cascadeFrom_resuming ⟨name, key, m.id, payload⟩) fun _ => .pure handled

theorem fire_resuming (target name : String) (payload : Json) :
    Resuming p id (fire target name payload) (fire target name payload) := by
  refine .reading fun r t h => ?_
  rw [h.keyOf?]
  cases Directory.keyOf? r.directory target with
  | none => exact .bind (warn_resuming (.firedUnknown name target)) fun _ => .pure false
  | some key => exact fireKey_resuming key name payload

-- ---------------------------------------------------------------------------
-- Refreshing
-- ---------------------------------------------------------------------------

theorem refreshKey_resuming (key : NodeKey) :
    Resuming p id (refreshKey key) (refreshKey (key.moved p.offset)) := by
  refine .reading fun r t h => ?_
  rw [h.context]
  refine .bind (withSource_resuming (f := id) key fun src => ?_) fun refreshed => ?_
  · exact Source.refresh_echoes src r.context
  · cases refreshed with
    | none => exact .bind (warn_resuming (.refreshedSourceless key)) fun _ => .pure false
    | some refreshed =>
      cases refreshed with
      | true => exact .bind (resetFollowers_resuming key) fun _ => .pure true
      | false => exact .pure false

theorem refresh_resuming (target : String) :
    Resuming p id (refresh target) (refresh target) := by
  refine .reading fun r t h => ?_
  rw [h.keyOf?]
  cases Directory.keyOf? r.directory target with
  | none => exact .bind (warn_resuming (.refreshedUnknown target)) fun _ => .pure false
  | some key => exact refreshKey_resuming key

-- ---------------------------------------------------------------------------
-- Completions
-- ---------------------------------------------------------------------------

/-- Nobody takes a completion of the past. -/
theorem Resumes.applyLate {r t : Renderer W} (h : Resumes p r t) {c : Completion}
    (hc : c.ticket.node.ordinal < p.nextKey) :
    withSource c.ticket.node (fun src => src.apply c) t = (none, t) :=
  withSource_none _ (h.past_source hc)

theorem applyAll_resuming {cs ds : List Completion} (hm : Mingled p cs ds) :
    Resuming p id (applyAll ds) (applyAll cs) := by
  induction hm with
  | nil => exact .pure 0
  | @late cs ds c hc _ ih =>
    refine ⟨fun r t h => ?_⟩
    simp only [applyAll, run_bind, h.applyLate hc]
    exact ih.run r t h
  | @both cs ds c _ ih =>
    refine .bind (withSource_resuming (f := id) c.ticket.node fun src => ?_) fun applied => ?_
    · exact Source.apply_echoes src c
    · rw [Option.map_id]
      exact .bind ih fun more => .pure _

theorem pump_resuming : Resuming p id pump pump := by
  refine ⟨fun r t h => ?_⟩
  have hd : Resumes p (drained r) (drained t) :=
    { h with stage := { h.stage with queue := .nil } }
  exact (applyAll_resuming h.stage.queue).run _ _ hd

omit [Widget W] in
theorem complete_resuming (number : Nat) (response : Except FetchError Json) :
    Resuming p id (complete number response) (complete (number + p.offset.jobs) response) :=
  onStage_resuming (.complete number response)

-- ---------------------------------------------------------------------------
-- Taking down
-- ---------------------------------------------------------------------------

omit [Widget W] in
theorem unmountKey_resuming (key : NodeKey) :
    Resuming p id (unmountKey key) (unmountKey (key.moved p.offset)) := by
  refine ⟨fun r t h => ?_⟩
  rw [unmountKey_run, unmountKey_run, h.get?_mounted]
  cases KeyMap.get? r.mounted key with
  | none => exact ⟨rfl, h⟩
  | some m =>
    have ht : (Scene.remove t.tree (key.moved p.offset)).1 =
        Scene.moved p.offset (Scene.remove r.tree key).1 := by
      rw [h.tree, Scene.remove_moved]
    obtain ⟨target, component⟩ := m
    cases target with
    | none => exact ⟨rfl, { h.forget key with tree := ht }⟩
    | some target =>
      have hd : Fields.erase t.directory target =
          Directory.moved p.offset (Fields.erase r.directory target) := by
        rw [h.directory, Directory.erase_moved]
      exact ⟨rfl, { h.forget key with directory := hd, tree := ht }⟩

omit [Widget W] in
theorem unmount_resuming (target : String) :
    Resuming p id (unmount target) (unmount target) := by
  refine .reading fun r t h => ?_
  rw [h.keyOf?]
  cases Directory.keyOf? r.directory target with
  | none => exact .pure false
  | some key => exact unmountKey_resuming key

omit [Widget W] in
theorem Resumes.foldl_forget {r t : Renderer W} (h : Resumes p r t) (keys : List NodeKey) :
    Resumes p (keys.foldl Renderer.forget r)
      ((keys.map (·.moved p.offset)).foldl Renderer.forget t) := by
  induction keys generalizing r t with
  | nil => exact h
  | cons key rest ih => exact ih (h.forget key)

omit [Widget W] in
theorem teardown_resuming : Resuming p id teardown teardown := by
  refine .update fun r t h => ?_
  have hf := h.foldl_forget (KeyMap.keys r.mounted)
  rw [← KeyMap.keys_moved, ← h.mounted] at hf
  exact { hf with
    handlers := .nil p.offset, directory := rfl, bindings := rfl, subscriptions := rfl,
    tree := rfl }

-- ---------------------------------------------------------------------------
-- Mounting
-- ---------------------------------------------------------------------------

theorem register_resuming (c : Component) (key : NodeKey) (handle : Handle) (w : W) :
    Resuming p id (register c key handle w)
      (register c (key.moved p.offset) (handle.moved p.offset) w) := by
  refine ⟨fun r t h => ?_⟩
  unfold register
  cases c.id with
  | none => exact ⟨rfl, h⟩
  | some target =>
    have hr := Directory.register_moved (o := p.offset) r.directory target
      ⟨key, handle, Widget.capabilities w⟩
    rw [Entry.moved, ← h.directory] at hr
    dsimp only
    rw [hr]
    cases Directory.register r.directory target ⟨key, handle, Widget.capabilities w⟩ with
    | error e => exact ⟨rfl, h⟩
    | ok directory => exact ⟨rfl, { h with directory := rfl }⟩

theorem mountSource_resuming (c : Component) {key : NodeKey} (hk : 0 < key.ordinal)
    (handle : Handle) :
    Resuming p id (mountSource c key handle)
      (mountSource c (key.moved p.offset) (handle.moved p.offset)) := by
  unfold mountSource
  refine .ite (.reading fun r t h => ?_) (.pure ())
  rw [h.context]
  have hm := Source.mount_echoes (p := p)
    (Source.new key c.name c.feed c.cascade.isSome handle) r.context
  exact .bind (onStage_resuming hm) fun src => .update fun r t h => h.putSource hk src h.stage

omit [Widget W] in
theorem Resumes.attach {r t : Renderer W} (h : Resumes p r t) (c : Component) (key : NodeKey) :
    Resumes p (Renderer.attach c key r) (Renderer.attach c (key.moved p.offset) t) := by
  refine { h with bindings := ?_, subscriptions := ?_, mounted := ?_ }
  · simp only [Renderer.attach, h.bindings]
    exact Bindings.foldl_bind_moved c.events key r.bindings
  · unfold Renderer.attach
    cases c.cascade with
    | none => exact h.subscriptions
    | some cascade =>
      simp only [h.subscriptions]
      exact KeyMap.insert_moved (f := id) r.subscriptions key cascade
  · simp only [Renderer.attach, h.mounted]
    exact KeyMap.insert_moved (f := id) r.mounted key ⟨c.id, c.name⟩

omit [Widget W] in
/-- The keys that are given are never the first ones of a past. -/
theorem freshKey_bind {k : NodeKey → Run W α} {k' : NodeKey → Run W β} {f : α → β}
    (hk : ∀ key, 0 < key.ordinal → Resuming p f (k key) (k' (key.moved p.offset))) :
    Resuming p f (freshKey >>= k) (freshKey >>= k') := by
  refine ⟨fun r t h => ?_⟩
  obtain ⟨h1, h2⟩ := freshKey_resuming.run r t h
  rw [run_bind, run_bind, h1]
  exact (hk ⟨r.nextKey⟩ h.started).run _ _ h2

theorem mountComponent_resuming (c : Component) :
    Resuming p (Option.map (SceneNode.moved p.offset)) (mountComponent c) (mountComponent c) := by
  refine .reading fun r t h => ?_
  rw [h.library]
  cases Fields.get? r.library c.name with
  | none => exact .bind (warn_resuming (.unknownComponent c.name)) fun _ => .pure none
  | some make =>
    refine .bind (onStage_resuming (.add (make c.propsJson))) fun handle => ?_
    refine freshKey_bind fun key hk => ?_
    refine .bind (register_resuming c key handle _) fun registered => ?_
    cases registered with
    | error rejection =>
      exact .bind (warn_resuming (.notRegistered rejection c.name)) fun _ => .pure none
    | ok =>
      refine .bind (mountSource_resuming c hk handle) fun _ => ?_
      refine .bind (.update fun r t h => h.attach c key) fun _ => ?_
      exact .pure (some (SceneNode.widget ⟨key, c.id, c.name, handle, c.style, c.classes⟩))

mutual
theorem mountNode_resuming (n : Node) :
    Resuming p (Option.map (SceneNode.moved p.offset)) (mountNode n) (mountNode n) := by
  cases n with
  | container frame children =>
    unfold mountNode
    refine .bind (mountAll_resuming children) fun children => ?_
    exact .pure (some (SceneNode.container (.ofFrame frame) children))
  | component c =>
    unfold mountNode
    exact mountComponent_resuming c
theorem mountAll_resuming (ns : List Node) :
    Resuming p (SceneNode.movedAll p.offset) (mountAll ns) (mountAll ns) := by
  cases ns with
  | nil =>
    unfold mountAll
    exact .pure []
  | cons n rest =>
    unfold mountAll
    refine .bind (mountNode_resuming n) fun shown => .bind (mountAll_resuming rest) fun more => ?_
    cases shown with
    | none => exact .pure more
    | some n => exact .pure (n :: more)
end

-- ---------------------------------------------------------------------------
-- Rendering
-- ---------------------------------------------------------------------------

omit [Widget W] in
theorem Resumes.presented {r t : Renderer W} (h : Resumes p r t) (scene : Scene) :
    Resumes p (Renderer.presented scene r) (Renderer.presented (scene.moved p.offset) t) := by
  have hs : summary t = summary r := by
    simp [summary, h.mounted, h.directory, h.sources, KeyMap.moved, Directory.moved,
      Fields.mapValues]
  have hr : Stage.Later p (Act.record (.summed (summary r)) r.stage).2
      (Act.record (.summed (summary t)) t.stage).2 := by
    rw [hs]
    exact h.stage.record (.summed (summary r))
  exact { h with tree := rfl, stage := hr }

omit [Widget W] in
theorem forM_warn_echoes (concerns : List Layout.Concern) :
    Echoes p id (concerns.forM fun c => Act.warn (.concern c) : Act W Unit)
      (concerns.forM fun c => Act.warn (.concern c)) := by
  induction concerns with
  | nil => exact .pure ()
  | cons c rest ih => exact .bind (.warn (.concern c)) fun _ => ih

theorem render_resuming {handlers handlers' : Handlers}
    (hh : Handlers.Alike p.offset handlers handlers') (tree : Node) :
    Resuming p (Except.map (Scene.moved p.offset)) (render tree handlers)
      (render tree handlers') := by
  unfold render
  cases Layout.check tree with
  | error rejection => exact .pure (Except.error rejection)
  | ok concerns =>
    refine .bind (f := id) ⟨fun r t h => ?_⟩ fun _ => .bind teardown_resuming fun _ => ?_
    · rw [forM_warn_run, forM_warn_run]
      exact ⟨rfl, { h with stage := ((forM_warn_echoes concerns).run _ _ h.stage).2 }⟩
    · refine .bind (.update fun r t h => { h with handlers := hh }) fun _ => ?_
      refine .bind (mountNode_resuming tree) fun shown => ⟨fun r t h => ?_⟩
      exact ⟨rfl, h.presented shown⟩

theorem perform_resuming {op op' : Operation} (ha : Operation.Alike p.offset op op') :
    Resuming p (Reply.moved p.offset) (perform op) (perform op') := by
  cases ha with
  | render hh =>
    refine (render_resuming hh _).map fun shown => ?_
    cases shown <;> rfl
  | plain hn =>
    cases op with
    | occupy handles => exact (onStage_resuming (.occupy handles)).map fun _ => rfl
    | render tree handlers => exact absurd rfl (hn tree handlers)
    | teardown => exact teardown_resuming.map fun _ => rfl
    | unmount target => exact (unmount_resuming target).map fun _ => rfl
    | unmountKey key => exact (unmountKey_resuming key).map fun _ => rfl
    | fire target event payload => exact (fire_resuming target event payload).map fun _ => rfl
    | fireKey key event payload => exact (fireKey_resuming key event payload).map fun _ => rfl
    | refresh target => exact (refresh_resuming target).map fun _ => rfl
    | refreshKey key => exact (refreshKey_resuming key).map fun _ => rfl
    | complete number response => exact (complete_resuming number response).map fun _ => rfl
    | pump => exact pump_resuming.map fun _ => rfl

end Renderer

end LiveLayout.Live
