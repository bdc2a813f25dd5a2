import LiveLayout.Proofs.Ageing
import LiveLayout.Proofs.Saying
import LiveLayout.Proofs.Turns

/-!
# What is done while a layout is shown

A renderer keeps texts to be evaluated, widgets to be given data, tickets to ask
with and handlers to be called. As long as the layout stays, whatever comes of
events, refreshes and completions is done with these, and afterwards the same is
kept.
-/

namespace LiveLayout

namespace Layout

/-- Texts that a component can have evaluated: those that are written, and the
selection of its parent, written or not. -/
inductive Component.Asks (c : Component) : String → Prop
  | written (hs : source ∈ c.expressions) : c.Asks source
  | selects {cascade : Cascade} (hc : c.cascade = some cascade) : c.Asks cascade.selectionText

end Layout

namespace Live

/-- Operations that leave the layout that is shown. -/
def Operation.isStaying : Operation → Bool
  | .render .. | .teardown | .unmount _ | .unmountKey _ => false
  | .occupy _ | .fire .. | .fireKey .. | .refresh _ | .refreshKey _ | .complete .. | .pump => true

namespace Renderer

section
variable {W : Type}

/-- Texts that are kept to be evaluated later. -/
inductive Holds (r : Renderer W) (source : String) : Prop
  | argument (hb : b ∈ r.bindings) (ha : a ∈ b.binding.args) (hs : a.2.expression? = some source)
  | request (hp : p ∈ r.sources) (hs : source ∈ p.2.texts)
  | selection (hp : p ∈ r.subscriptions) (hs : p.2.selectionText = source)

/-- What can be done with what a renderer keeps. -/
inductive Plays (r : Renderer W) : Effect → Prop
  | evaluates (he : Evaluates r.directory r.Holds e) : Plays r e
  | called (hb : b ∈ r.bindings) (hs : event.source = b.node) :
      Plays r (.called b.binding.handler event args)
  | pushed (hp : p ∈ r.sources) : Plays r (.pushed p.2.widget payload)
  | submitted (hp : p ∈ r.sources) (hj : job.ticket.node = p.2.key) :
      Plays r (.submitted number job)

theorem Plays.aside {r : Renderer W} (he : e.isAside = true) : r.Plays e := .evaluates (.aside he)

theorem Plays.works {r : Renderer W} (hp : p ∈ r.sources) (h : p.2.Works r.directory e) :
    r.Plays e := by
  cases h with
  | evaluates he => exact .evaluates (he.mono fun _ => .request hp)
  | pushed => exact .pushed hp
  | submitted hj => exact .submitted hp hj

theorem Plays.answers {r : Renderer W} (h : Answers r.bindings r.directory r.Holds node e) :
    r.Plays e := by
  cases h with
  | evaluates he => exact .evaluates he
  | called hb hn hs => exact .called hb (hs.trans hn.symm)

/-- An event is bound as before or as its component says. -/
theorem mem_foldl_bind {key : NodeKey} {events : Fields Layout.Binding} {bs : Bindings} {b : Bound}
    (h : b ∈ events.foldl (fun bs e => Bindings.bind bs key e.1 e.2) bs) :
    b ∈ bs ∨ ∃ e ∈ events, b.binding = e.2 := by
  induction events generalizing bs with
  | nil => exact .inl h
  | cons e rest ih =>
    rcases ih h with hb | ⟨e', he, hb⟩
    · rcases List.mem_append.mp hb with hb | hb
      · exact .inl (List.mem_filter.mp hb).1
      · exact .inr ⟨e, List.mem_cons_self, List.mem_singleton.mp hb ▸ rfl⟩
    · exact .inr ⟨e', List.mem_cons_of_mem _ he, hb⟩

/-- All texts that are kept are those of the components that are shown. -/
theorem Shows.holds {r : Renderer W} (h : Shows xs r) (hs : r.Holds source) :
    ∃ x ∈ xs, x.component.Asks source := by
  cases hs with
  | @argument b a hb ha hs =>
    rw [h.bindings] at hb
    obtain ⟨x, hx, hb⟩ := List.mem_flatMap.mp hb
    refine ⟨x, hx, .written (List.mem_append_left _ (List.mem_append_left _ ?_))⟩
    rcases mem_foldl_bind hb with hb | ⟨e, he, hbe⟩
    · cases hb
    · exact List.mem_flatMap.mpr ⟨e, he, List.mem_filterMap.mpr ⟨a, hbe ▸ ha, hs⟩⟩
  | @request p hp hs =>
    obtain ⟨x, hx, -, -, ho⟩ := h.exhibit_of_mem_source hp
    have ht : p.2.texts = x.newSource.texts := Source.texts_eq ho
    rw [ht] at hs
    exact ⟨x, hx, .written (List.mem_append_left _ (List.mem_append_right _ hs))⟩
  | selection hp hs =>
    rw [h.subscriptions] at hp
    obtain ⟨x, hx, hsub⟩ := List.mem_filterMap.mp hp
    obtain ⟨cascade, hc, rfl⟩ := Option.map_eq_some_iff.mp hsub
    exact ⟨x, hx, hs ▸ .selects hc⟩

end

variable {W : Type} [Widget W]

/-- One renderer goes on as another: the layout stays, and all that is done is
done with what is kept for it. -/
structure GoesOn (r r' : Renderer W) : Prop where
  layout : SameLayout r r'
  origins : ∀ p ∈ r'.sources, ∃ q ∈ r.sources, p.2.origin = q.2.origin
  said : Extends r.Plays r.stage r'.stage
  ages : r.stage.Ages 0 r'.stage

namespace GoesOn

variable {r r' r'' : Renderer W}

theorem refl (r : Renderer W) : GoesOn r r where
  layout := .refl r
  origins := fun p hp => ⟨p, hp, rfl⟩
  said := .refl _
  ages := .refl _

theorem holds (h : GoesOn r r') (hs : r'.Holds source) : r.Holds source := by
  obtain ⟨_, _, rfl⟩ := h.layout
  cases hs with
  | argument hb ha hs => exact .argument hb ha hs
  | request hp hs =>
    obtain ⟨q, hq, ho⟩ := h.origins _ hp
    exact .request hq (Source.texts_eq ho ▸ hs)
  | selection hp hs => exact .selection hp hs

/-- What can be done later could be done before. -/
theorem plays (h : GoesOn r r') (he : r'.Plays e) : r.Plays e := by
  cases he with
  | evaluates he => exact .evaluates (h.layout.directory_eq ▸ he.mono fun _ => h.holds)
  | called hm hs => exact .called (h.layout.bindings_eq ▸ hm) hs
  | pushed hp =>
    obtain ⟨q, hq, ho⟩ := h.origins _ hp
    exact (congrArg Source.widget ho :) ▸ .pushed hq
  | submitted hp hj =>
    obtain ⟨q, hq, ho⟩ := h.origins _ hp
    exact .submitted hq (hj.trans (congrArg Source.key ho :))

theorem trans (h : GoesOn r r') (h' : GoesOn r' r'') : GoesOn r r'' where
  layout := h.layout.trans h'.layout
  origins := fun p hp => by
    obtain ⟨q, hq, ho⟩ := h'.origins p hp
    obtain ⟨o, hm, ho'⟩ := h.origins q hq
    exact ⟨o, hm, ho.trans ho'⟩
  said := h.said.trans (h'.said.mono fun _ => h.plays)
  ages := h.ages.trans h'.ages

theorem stage {stage : Stage W} (hs : Extends r.Plays r.stage stage) (ha : r.stage.Ages 0 stage) :
    GoesOn r { r with stage } := ⟨⟨r.sources, stage, rfl⟩, fun p hp => ⟨p, hp, rfl⟩, hs, ha⟩

end GoesOn

variable {r : Renderer W}

theorem goesOn_act {act : Act W α} (hs : Says r.Plays act) (ht : Tends act) :
    GoesOn r (onStage act r).2 := .stage (hs r.stage) (ht r.stage)

theorem goesOn_warn {w : Warning} (hw : (Effect.warned w).isAside = true) :
    GoesOn r (warn w r).2 := goesOn_act (.warn (.aside hw)) (Talk.warn w).tends

-- ---------------------------------------------------------------------------
-- Work on sources
-- ---------------------------------------------------------------------------

theorem mem_insert {m : KeyMap α} {key : NodeKey} {v : α} {p : NodeKey × α}
    (h : p ∈ KeyMap.insert m key v) : p = (key, v) ∨ p ∈ m := by
  induction m with
  | nil => exact .inl (List.mem_singleton.mp h)
  | cons q rest ih =>
    unfold KeyMap.insert at h
    split at h
    · exact (List.mem_cons.mp h).imp_right (List.mem_cons_of_mem _)
    · split at h
      · exact List.mem_cons.mp h
      · rcases List.mem_cons.mp h with rfl | h
        · exact .inr List.mem_cons_self
        · exact (ih h).imp_right (List.mem_cons_of_mem _)

/-- Work on a source is done with what the source has, which it keeps. -/
theorem goesOn_withSource (key : NodeKey) {act : Source → Act W (α × Source)}
    (hs : ∀ src, Says (src.Works r.directory) (act src)) (ht : ∀ src, Tends (act src))
    (ho : ∀ src s, (act src s).1.2.origin = src.origin) :
    GoesOn r (withSource key act r).2 := by
  cases hg : KeyMap.get? r.sources key with
  | none =>
    rw [withSource_none _ hg]
    exact .refl r
  | some src =>
    have hm : (key, src) ∈ r.sources := KeyMap.mem_of_get? hg
    rw [withSource_some _ hg]
    refine ⟨sameLayout_putSource .., fun p hp => ?_, ?_, ht src r.stage⟩
    · rcases mem_insert hp with rfl | hp
      · exact ⟨_, hm, ho src r.stage⟩
      · exact ⟨p, hp, rfl⟩
    · exact (hs src r.stage).mono fun _ => .works hm

theorem goesOn_resetSource (key : NodeKey) (r : Renderer W) :
    GoesOn r (resetSource key r).2 :=
  goesOn_withSource key (fun src => .bind (Source.reset_reports _ src) fun _ => .pure _)
    (fun src => .bind src.reset_tends fun _ => .pure _) fun src s => by
      simp [run_bind, Source.reset_fst]

theorem goesOn_resetAll (keys : List NodeKey) (r : Renderer W) :
    GoesOn r (resetAll keys r).2 := by
  induction keys generalizing r with
  | nil => exact .refl r
  | cons key rest ih => exact (goesOn_resetSource key r).trans (ih _)

theorem goesOn_propagate (fresh pending : List NodeKey) (r : Renderer W) :
    GoesOn r (propagate fresh pending r).2 := by
  induction fresh, pending using propagate.induct (W := W) generalizing r with
  | case1 fresh =>
    rw [propagate_nil]
    exact .refl r
  | case2 fresh key rest hm ih =>
    rw [propagate_of_mem hm]
    exact (goesOn_resetAll (followers r key) r).trans (ih r _)
  | case3 fresh key rest hm ih =>
    rw [propagate_of_notMem hm]
    exact ih r

theorem goesOn_resetFollowers (key : NodeKey) (r : Renderer W) :
    GoesOn r (resetFollowers key r).2 := goesOn_propagate _ _ r

-- ---------------------------------------------------------------------------
-- Events
-- ---------------------------------------------------------------------------

theorem goesOn_applyAction (a : Action) (r : Renderer W) : GoesOn r (applyAction a r).2 := by
  cases a with
  | fetch key endpoint =>
    have hf : GoesOn r (withSource key (fun src => src.fetch r.context endpoint) r).2 :=
      goesOn_withSource key (fun src => src.fetch_reports r.context endpoint)
        (fun src => src.fetch_tends r.context endpoint) fun src s => by simp [Source.fetch_fst]
    exact hf.trans (goesOn_resetFollowers key _)
  | reset key => exact (goesOn_resetSource key r).trans (goesOn_resetFollowers key _)

theorem goesOn_applyActions (actions : List Action) (r : Renderer W) :
    GoesOn r (applyActions actions r).2 := by
  induction actions generalizing r with
  | nil => exact .refl r
  | cons a rest ih => exact (goesOn_applyAction a r).trans (ih _)

theorem goesOn_cascadeFrom (event : Event) (r : Renderer W) :
    GoesOn r (cascadeFrom event r).2 := by
  unfold cascadeFrom
  cases event.sourceId with
  | none => exact .refl r
  | some id =>
    have hs : ∀ p ∈ r.subscriptions, r.Holds p.2.selectionText := fun p hp => .selection hp rfl
    have ha := actions_asks (W := W) r.directory id event.name event.payload hs
    exact (goesOn_act (ha.reports.mono fun _ => .evaluates) ha.talk.tends).trans
      (goesOn_applyActions _ _)

theorem goesOn_fireKey (key : NodeKey) (name : String) (payload : Json) (r : Renderer W) :
    GoesOn r (fireKey key name payload r).2 := by
  cases hm : KeyMap.get? r.mounted key with
  | none =>
    simp only [fireKey, run_bind, run_get, hm]
    exact goesOn_warn rfl
  | some m =>
    rw [fireKey_some hm]
    have hb : ∀ b ∈ r.bindings, ∀ a ∈ b.binding.args, ∀ source,
        a.2.expression? = some source → r.Holds source :=
      fun b hb a ha source hs => .argument hb ha hs
    have hd := dispatch_reports (W := W) hb r.directory r.handlers ⟨name, key, m.id, payload⟩
    have ht := dispatch_talk (W := W) r.bindings r.directory r.handlers ⟨name, key, m.id, payload⟩
    exact (goesOn_act (hd.mono fun _ => .answers) ht.tends).trans (goesOn_cascadeFrom _ _)

theorem goesOn_fire (id name : String) (payload : Json) (r : Renderer W) :
    GoesOn r (fire id name payload r).2 := by
  simp only [fire, run_bind, run_get]
  cases Directory.keyOf? r.directory id with
  | none => exact goesOn_warn rfl
  | some key => exact goesOn_fireKey key name payload r

-- ---------------------------------------------------------------------------
-- Refreshes and completions
-- ---------------------------------------------------------------------------

theorem Source.origin_refreshed (src : Source) (ctx : Context) (s : Stage W) :
    (src.refresh ctx s).1.2.origin = src.origin := by
  rcases src.refresh_cases ctx s with ⟨endpoint, request, -, he, -⟩ | ⟨-, -, he, -⟩ | ⟨-, -, he⟩
  · rw [he, Source.origin_fetched]
  · rw [he]
  · rw [he]
    exact (src.mount_loads ctx s).origin

theorem goesOn_refreshKey (key : NodeKey) (r : Renderer W) : GoesOn r (refreshKey key r).2 := by
  have hw : GoesOn r (withSource key (fun src => src.refresh r.context) r).2 :=
    goesOn_withSource key (fun src => src.refresh_reports r.context)
      (fun src => src.refresh_tends r.context) fun src s => Source.origin_refreshed src _ s
  simp only [refreshKey, run_bind, run_get]
  cases (withSource key (fun src => src.refresh r.context) r).1 with
  | none => exact hw.trans (goesOn_warn rfl)
  | some refreshed =>
    cases refreshed with
    | true => exact hw.trans (goesOn_resetFollowers key _)
    | false => exact hw

theorem goesOn_refresh (id : String) (r : Renderer W) : GoesOn r (refresh id r).2 := by
  simp only [refresh, run_bind, run_get]
  cases Directory.keyOf? r.directory id with
  | none => exact goesOn_warn rfl
  | some key => exact goesOn_refreshKey key r

theorem goesOn_applyAll (cs : List Completion) (r : Renderer W) :
    GoesOn r (applyAll cs r).2 := by
  induction cs generalizing r with
  | nil => exact .refl r
  | cons c rest ih =>
    have hw : GoesOn r (withSource c.ticket.node (fun src => src.apply c) r).2 :=
      goesOn_withSource _ (fun src => Source.apply_reports _ src c) (fun src => src.apply_tends c)
        fun src s => by simp [Source.apply_fst, Source.origin_received]
    exact hw.trans (ih _)

-- ---------------------------------------------------------------------------
-- All operations
-- ---------------------------------------------------------------------------

theorem goesOn_after {op : Operation} (ho : op.isStaying = true) (r : Renderer W) :
    GoesOn r (r.after op) := by
  cases op with
  | render | teardown | unmount | unmountKey => cases ho
  | occupy handles => exact .stage (.of_eq rfl) (.of_eq rfl)
  | fire id event payload => exact goesOn_fire id event payload r
  | fireKey key event payload => exact goesOn_fireKey key event payload r
  | refresh id => exact goesOn_refresh id r
  | refreshKey key => exact goesOn_refreshKey key r
  | complete number response =>
    have hc : (Act.complete number response r.stage).2.journal = r.stage.journal ∧
        (Act.complete number response r.stage).2.widgets = r.stage.widgets := by
      rw [complete_run]
      cases r.stage.traffic.complete? number response <;> exact ⟨rfl, rfl⟩
    exact .stage (.of_eq hc.1) (.of_eq hc.2)
  | pump =>
    have hd : GoesOn r (drained r) := .stage (.of_eq rfl) (.of_eq rfl)
    exact hd.trans (goesOn_applyAll _ _)

/-- Runs in which the layout stays do what can be done with what is kept. -/
theorem goesOn_afterAll {ops : List Operation} (ho : ∀ op ∈ ops, op.isStaying = true)
    (r : Renderer W) : GoesOn r (r.afterAll ops) := by
  induction ops generalizing r with
  | nil => exact .refl r
  | cons op ops ih =>
    obtain ⟨h1, h2⟩ := List.forall_mem_cons.mp ho
    exact (goesOn_after h1 r).trans (ih h2 _)

end Renderer

end Live

end LiveLayout
