import LiveLayout.Proofs.Supplies

/-!
# What widgets show after a run

The state of a node is set when the node is shown, when an event or a refresh
reaches it, and when the completion of its latest request is pumped. If its
widget was free the last time, the widget shows the state.
-/

namespace LiveLayout.Live

open Layout (Node)

/-- What a widget was last given belongs to a state, and to no other. -/
structure FetchState.Shown (state : FetchState) (last : Option Payload) : Prop where
  given : last = some state.payload
  loading : last = some .loading ↔ state = .loading
  records : ∀ records, last = some (.records records) ↔ state = .success records
  nothing : last = some .noData ↔ state = .idle ∨ ∃ error, state = .failed error

theorem FetchState.shown_payload (state : FetchState) : state.Shown (some state.payload) := by
  cases state <;> constructor <;> simp [FetchState.payload]

variable {W : Type} [Widget W]

namespace Renderer

variable {r r' : Renderer W}

-- ---------------------------------------------------------------------------
-- Completions
-- ---------------------------------------------------------------------------

/-- Whoever gets the completion of the latest request is told. -/
theorem Shows.applyAll_told (h : Shows xs r) (hr : Roomed r) {cs : List Completion}
    (hs : KeyMap.get? r.sources key = some src) (hc : ∃ c ∈ cs, c.ticket = src.ticket)
    (hs' : KeyMap.get? (Renderer.applyAll cs r).2.sources key = some src') :
    Told src' r.stage (Renderer.applyAll cs r).2.stage := by
  induction cs generalizing r with
  | nil => simp at hc
  | cons c rest ih =>
    obtain ⟨-, h₁, -, hg⟩ := h.applyOne c rfl
    have hm : Moves (fun _ _ => True) r
        (withSource c.ticket.node (fun src => src.apply c) r).2 :=
      withSource_moves c.ticket.node (.take c) trivial fun _ => rfl
    have hsup := Moves.supplies hr hm
    have hrest := applyAll_supplies (hr.supplies hsup) rest
    have hg := hg key
    rw [hs, Option.map_some] at hg
    rcases Source.apply_serves (hr.placed key src hs) c with ⟨ht, hd⟩ | ⟨hn, -⟩
    · have hk : c.ticket.node = key := (congrArg Ticket.node ht).trans (h.source_key hs)
      have hst : (withSource c.ticket.node (fun src => src.apply c) r).2.stage =
          (src.apply c r.stage).2 := by
        rw [withSource_some _ (hk ▸ hs)]
        rfl
      exact Told.supplies (hst ▸ hd.told) hsup.busy hrest hg hs'
    · have hsame : src.received c = src := if_neg hn
      have hc : ∃ c ∈ rest, c.ticket = src.ticket := by simpa [hn] using hc
      obtain ⟨old, ho, hw, -⟩ := hrest.source key src' hs'
      cases hg.symm.trans ho
      rw [hsame] at hg hw
      exact hsup.told hg hw (ih h₁ (hr.supplies hsup) hg hc hs')

theorem foldl_received_of_none {cs : List Completion} {src : Source}
    (hn : ∀ c ∈ cs, c.ticket ≠ src.ticket) : cs.foldl Source.received src = src := by
  induction cs with
  | nil => rfl
  | cons c rest ih =>
    obtain ⟨hc, hr⟩ := List.forall_mem_cons.mp hn
    rw [List.foldl_cons, show src.received c = src from if_neg hc]
    exact ih hr

-- ---------------------------------------------------------------------------
-- New layouts
-- ---------------------------------------------------------------------------

/-- All instances are there, and those that are free show their states. -/
def Stocked (r : Renderer W) : Prop :=
  ∀ key src, KeyMap.get? r.sources key = some src → src.Placed r.stage ∧
    (src.widget ∉ r.stage.busy →
      lastGiven? src.widget r.stage.journal = some src.state.payload)

theorem Opening.stocked (ho : Opening r r') (h : Stocked r) :
    Stocked r' ∧ r'.stage.busy = r.stage.busy := by
  cases ho with
  | warns w =>
    have hl := (Talk.warn (W := W) w).leaves r.stage
    refine ⟨fun key src hs => ?_, rfl⟩
    obtain ⟨hp, hf⟩ := h key src hs
    exact ⟨hp, fun hb => (hl src.widget).given.trans (hf hb)⟩
  | @plain c make =>
    refine ⟨fun key src hs => ?_, rfl⟩
    obtain ⟨hp, hf⟩ := h key src hs
    refine ⟨Nat.lt_of_lt_of_le hp ?_, hf⟩
    exact (withWidget_ages r.stage (make c.propsJson)).count ▸ Nat.le_succ _
  | @loading c make =>
    have hcount := (withWidget_ages r.stage (make c.propsJson)).count
    have hnew : (r.introduced c make).newSource.Placed
        (r.stage.withWidget (make c.propsJson)) := by
      unfold Source.Placed
      rw [hcount]
      exact Nat.lt_succ_self _
    have hd := Source.mount_serves hnew
      ⟨r.directory ++ (r.introduced c make).registered?.toList, r.options⟩
    have hw : (r.firstLoad c make).1.widget = ⟨r.stage.widgets.length⟩ :=
      (congrArg Source.widget (Source.mount_loads (r.introduced c make).newSource
        ⟨r.directory ++ (r.introduced c make).registered?.toList, r.options⟩
        (r.stage.withWidget (make c.propsJson))).origin :)
    refine ⟨fun key src hs => ?_, hd.busy⟩
    change KeyMap.get? (KeyMap.insert r.sources ⟨r.nextKey⟩ (r.firstLoad c make).1) key = _ at hs
    rw [KeyMap.get?_insert] at hs
    split at hs
    · cases hs
      refine ⟨hnew.of_count hw hd.count, fun hb => hd.told.free ?_⟩
      exact fun hm => hb (hd.busy.symm ▸ hm)
    · obtain ⟨hp, hf⟩ := h key src hs
      have hne : src.widget ≠ (r.firstLoad c make).1.widget := by
        rw [hw]
        rintro he
        unfold Source.Placed at hp
        rw [he] at hp
        exact Nat.lt_irrefl _ hp
      refine ⟨?_, fun hb => (hd.others _ hne).trans (hf fun hm => hb (hd.busy.symm ▸ hm))⟩
      refine Nat.lt_of_lt_of_le hp ?_
      exact (hd.count.trans hcount).symm ▸ Nat.le_succ _

theorem Openings.stocked (ho : Openings r r') (h : Stocked r) :
    Stocked r' ∧ r'.stage.busy = r.stage.busy := by
  induction ho with
  | refl => exact ⟨h, rfl⟩
  | tail _ ho ih =>
    obtain ⟨hs, hb⟩ := ih
    obtain ⟨hs', hb'⟩ := ho.stocked hs
    exact ⟨hs', hb'.trans hb⟩

theorem Shows.render_stocked (h : Shows xs r) {tree : Node} (handlers : Handlers)
    (hc : Layout.check tree = .ok concerns) :
    Stocked (r.after (.render tree handlers)) ∧
      (r.after (.render tree handlers)).stage.busy = r.stage.busy := by
  obtain ⟨r', scene, ho, he⟩ := h.render_openings handlers hc
  obtain ⟨hs, hb⟩ := Openings.stocked ho fun _ _ hs => (nomatch hs)
  rw [he]
  refine ⟨fun key src hg => ?_, hb.trans ((toldConcerns_talk concerns).busy r.stage)⟩
  obtain ⟨hp, hf⟩ := hs key src hg
  refine ⟨hp, fun hb => ?_⟩
  show lastGiven? _ (r'.stage.journal ++ [_]) = _
  rw [lastGiven?_append]
  exact hf hb

-- ---------------------------------------------------------------------------
-- Operations
-- ---------------------------------------------------------------------------

/-- An operation sets the state of a node: it shows the node, it is an event or
a refresh that reaches it, or it pumps the completion of its latest request. -/
inductive Sets (r : Renderer W) (key : NodeKey) : Operation → Prop
  | shown {tree : Node} {handlers : Handlers} (hk : r.nextKey ≤ key.ordinal) :
      Sets r key (.render tree handlers)
  | reached (t : Trigger) (ht : Targeted r t key ∨ Downstream r t key) : Sets r key t.operation
  | received (hs : KeyMap.get? r.sources key = some src) (hc : c ∈ r.stage.traffic.queue)
      (ht : c.ticket = src.ticket) : Sets r key .pump

omit [Widget W] in
theorem supplies_drained (r : Renderer W) : Supplies r (drained r) :=
  supplies_stage fun _ => ⟨rfl, rfl, rfl⟩

/-- A node whose state was set shows it, unless its widget was busy. -/
theorem Housed.sets (h : Housed xs r) (ho : Sets r key op)
    (hs : KeyMap.get? (r.after op).sources key = some src) (hf : src.widget ∉ r.stage.busy) :
    lastGiven? src.widget (r.after op).stage.journal = some src.state.payload := by
  cases ho with
  | @shown tree handlers hk =>
    cases hc : Layout.check tree with
    | error rejection =>
      have he : r.after (.render tree handlers) = r :=
        congrArg Prod.snd (render_rejected handlers hc)
      rw [he] at hs
      exact absurd (h.shows.key_lt hs) (Nat.not_lt_of_le hk)
    | ok concerns =>
      obtain ⟨hst, hb⟩ := h.shows.render_stocked handlers hc
      exact (hst key src hs).2 (hb.symm ▸ hf)
  | reached t ht => exact (h.shows.trigger_told h.roomed ht hs).free hf
  | received hso hc ht =>
    have hd : Shows xs (drained r) := h.shows.of_fixedPart rfl _
    exact (hd.applyAll_told (h.roomed.supplies (supplies_drained r)) hso ⟨_, hc, ht⟩ hs).free hf

/-- A node whose state was not set goes on showing it. -/
theorem Housed.keeps (h : Housed xs r) (ho : ¬Sets r key op)
    (hs : KeyMap.get? (r.after op).sources key = some src) :
    KeyMap.get? r.sources key = some src ∧
      (lastGiven? src.widget r.stage.journal = some src.state.payload →
        lastGiven? src.widget (r.after op).stage.journal = some src.state.payload) := by
  have htrigger (t : Trigger) (ho : ¬Sets r key t.operation)
      (hs : KeyMap.get? (r.after t.operation).sources key = some src) :
      KeyMap.get? r.sources key = some src ∧
        (lastGiven? src.widget r.stage.journal = some src.state.payload →
          lastGiven? src.widget (r.after t.operation).stage.journal = some src.state.payload) := by
    obtain ⟨ht, hd⟩ := not_or.mp fun ht => ho (.reached t ht)
    have he := (h.shows.cascaded t).elsewhere key ht hd
    exact ⟨he ▸ hs, (trigger_supplies h.roomed t).shown (he ▸ hs) hs⟩
  have hjournal : ∀ node, (unmountKey node r).2.stage = r.stage := fun node => unmountKey_stage ..
  cases op with
  | fire id event payload => exact htrigger (.fire id event payload) ho hs
  | fireKey key event payload => exact htrigger (.fireKey key event payload) ho hs
  | refresh id => exact htrigger (.refresh id) ho hs
  | refreshKey key => exact htrigger (.refreshKey key) ho hs
  | occupy => exact ⟨hs, id⟩
  | complete number response =>
    refine ⟨hs, fun hg => ?_⟩
    show lastGiven? _ (Act.complete number response r.stage).2.journal = _
    rw [complete_run]
    cases r.stage.traffic.complete? number response <;> exact hg
  | pump =>
    have hd : Shows xs (drained r) := h.shows.of_fixedPart rfl _
    have hr : Roomed (drained r) := h.roomed.supplies (supplies_drained r)
    have hq := (hd.applyAll r.stage.traffic.queue).2.2.2 key
    change KeyMap.get? (applyAll r.stage.traffic.queue (drained r)).2.sources key = _ at hs
    obtain ⟨old, hold, he⟩ := Option.map_eq_some_iff.mp (hq.symm.trans hs)
    rw [foldl_received_of_none fun c hc ht => ho (.received hold hc ht)] at he
    subst he
    exact ⟨hold, (applyAll_supplies hr r.stage.traffic.queue).shown hold hs⟩
  | teardown =>
    change KeyMap.get? (teardown r).2.sources key = _ at hs
    rw [h.shows.teardown_run] at hs
    cases hs
  | unmountKey node =>
    refine ⟨source_of_unmountKey hs, fun hg => ?_⟩
    show lastGiven? _ (Renderer.unmountKey node r).2.stage.journal = _
    rw [hjournal]
    exact hg
  | unmount id =>
    show _ ∧ (_ → lastGiven? _ (Renderer.unmount id r).2.stage.journal = _)
    change KeyMap.get? (Renderer.unmount id r).2.sources key = _ at hs
    cases hk : Directory.keyOf? r.directory id with
    | none =>
      simp only [Renderer.unmount, run_bind, run_get, hk] at hs ⊢
      exact ⟨hs, fun hg => hg⟩
    | some node =>
      rw [unmount_found hk] at hs ⊢
      rw [hjournal]
      exact ⟨source_of_unmountKey hs, fun hg => hg⟩
  | render tree handlers =>
    cases hc : Layout.check tree with
    | error rejection =>
      have he : r.after (.render tree handlers) = r :=
        congrArg Prod.snd (render_rejected handlers hc)
      rw [he] at hs ⊢
      exact ⟨hs, fun hg => hg⟩
    | ok concerns =>
      obtain ⟨r', scene, hopen, he⟩ := h.shows.render_openings handlers hc
      rw [he] at hs
      exact absurd (.shown (hopen.started rfl hs).1) ho

-- ---------------------------------------------------------------------------
-- Runs
-- ---------------------------------------------------------------------------

/-- When the state of a node was last set in the course of a run, this instance
was free. -/
inductive Informed (r : Renderer W) (h : Handle) (key : NodeKey) : List Operation → Prop
  | set (hs : Sets (r.afterAll ops) key op) (hf : h ∉ (r.afterAll ops).stage.busy) :
      Informed r h key (ops ++ [op])
  | kept (hi : Informed r h key ops) (hn : ¬Sets (r.afterAll ops) key op) :
      Informed r h key (ops ++ [op])

theorem not_informed_nil {r : Renderer W} : ¬Informed r h key [] := by
  intro hi
  generalize ho : ([] : List Operation) = ops at hi
  cases hi <;> simp at ho

theorem informed_concat {r : Renderer W} (hi : Informed r h key (ops ++ [op])) :
    Sets (r.afterAll ops) key op ∧ h ∉ (r.afterAll ops).stage.busy ∨
      Informed r h key ops ∧ ¬Sets (r.afterAll ops) key op := by
  generalize ho : ops ++ [op] = all at hi
  cases hi with
  | set hs hf =>
    obtain ⟨rfl, he⟩ := List.append_inj' ho rfl
    cases he
    exact .inl ⟨hs, hf⟩
  | kept hi hn =>
    obtain ⟨rfl, he⟩ := List.append_inj' ho rfl
    cases he
    exact .inr ⟨hi, hn⟩

theorem housed_afterAll (library : Library W) (options : Options) (ops : List Operation) :
    ∃ xs, Housed xs ((new library options).afterAll ops) := by
  have hr : Reachable library options ((new library options).afterAll ops) :=
    reachable_afterAll .new ops
  exact hr.housed

theorem Informed.shown {library : Library W} {options : Options} {ops : List Operation}
    (hs : KeyMap.get? ((new library options).afterAll ops).sources key = some src)
    (hi : Informed (new library options) src.widget key ops) :
    lastGiven? src.widget ((new library options).afterAll ops).stage.journal =
      some src.state.payload := by
  induction ops using List.reverseRecOn generalizing src with
  | nil => exact absurd hi not_informed_nil
  | append_singleton ops op ih =>
    obtain ⟨xs, h⟩ := housed_afterAll library options ops
    rw [afterAll_concat] at hs ⊢
    rcases informed_concat hi with ⟨ho, hf⟩ | ⟨hi, ho⟩
    · exact h.sets ho hs hf
    · obtain ⟨hold, hkeep⟩ := h.keeps ho hs
      exact hkeep (ih hold hi)

/-- Only by being occupied does an instance become busy. -/
theorem Housed.busy_after (h : Housed xs r) (ho : ∀ handles, op ≠ .occupy handles) :
    (r.after op).stage.busy = r.stage.busy := by
  cases op with
  | occupy handles => exact absurd rfl (ho handles)
  | fire id event payload => exact (trigger_supplies h.roomed (.fire id event payload)).busy
  | fireKey key event payload =>
    exact (trigger_supplies h.roomed (.fireKey key event payload)).busy
  | refresh id => exact (trigger_supplies h.roomed (.refresh id)).busy
  | refreshKey key => exact (trigger_supplies h.roomed (.refreshKey key)).busy
  | complete number response =>
    show (Act.complete number response r.stage).2.busy = _
    rw [complete_run]
    cases r.stage.traffic.complete? number response <;> rfl
  | pump =>
    exact (applyAll_supplies (h.roomed.supplies (supplies_drained r)) r.stage.traffic.queue).busy
  | teardown =>
    show (teardown r).2.stage.busy = _
    rw [h.shows.teardown_run]
    rfl
  | unmountKey node =>
    show (Renderer.unmountKey node r).2.stage.busy = _
    rw [unmountKey_stage]
  | unmount id =>
    show (Renderer.unmount id r).2.stage.busy = _
    cases hk : Directory.keyOf? r.directory id with
    | none =>
      simp only [Renderer.unmount, run_bind, run_get, hk]
      rfl
    | some node => rw [unmount_found hk, unmountKey_stage]
  | render tree handlers =>
    cases hc : Layout.check tree with
    | error rejection =>
      have he : r.after (.render tree handlers) = r :=
        congrArg Prod.snd (render_rejected handlers hc)
      rw [he]
    | ok concerns => exact (h.shows.render_stocked handlers hc).2

/-- An instance that no operation occupies is never busy. -/
theorem free_afterAll {library : Library W} {options : Options} {ops : List Operation}
    (hn : ∀ handles, .occupy handles ∈ ops → h ∉ handles) :
    h ∉ ((new library options).afterAll ops).stage.busy := by
  induction ops using List.reverseRecOn with
  | nil => exact List.not_mem_nil
  | append_singleton ops op ih =>
    obtain ⟨xs, hx⟩ := housed_afterAll library options ops
    rw [afterAll_concat]
    by_cases ho : ∃ handles, op = .occupy handles
    · obtain ⟨handles, rfl⟩ := ho
      exact hn handles (by simp)
    · rw [hx.busy_after fun handles he => ho ⟨handles, he⟩]
      exact ih fun handles hm => hn handles (List.mem_append_left _ hm)

/-- Nodes whose instances are never occupied are informed from the beginning. -/
theorem informed_of_free {library : Library W} {options : Options} {ops : List Operation}
    (hs : KeyMap.get? ((new library options).afterAll ops).sources key = some src)
    (hn : ∀ handles, .occupy handles ∈ ops → src.widget ∉ handles) :
    Informed (new library options) src.widget key ops := by
  induction ops using List.reverseRecOn with
  | nil => cases hs
  | append_singleton ops op ih =>
    obtain ⟨xs, h⟩ := housed_afterAll library options ops
    have hn' : ∀ handles, .occupy handles ∈ ops → src.widget ∉ handles :=
      fun handles hm => hn handles (List.mem_append_left _ hm)
    rw [afterAll_concat] at hs
    by_cases ho : Sets ((new library options).afterAll ops) key op
    · exact .set ho (free_afterAll hn')
    · exact .kept (ih (h.keeps ho hs).1 hn') ho

/-- After any run each node whose instance was free when its state was last set
shows its state: the instance was last given what belongs to it and to no other,
so records are shown just as long as the node has them. An instance that nobody
occupies in the run always shows the state of its node. An instance is busy, or
occupied, as long as it is borrowed at all, to be read as well as to be changed,
since no data can be set in either case. -/
theorem shown_afterAll (library : Library W) (options : Options) (ops : List Operation) :
    (∀ key src, KeyMap.get? ((new library options).afterAll ops).sources key = some src →
      Informed (new library options) src.widget key ops →
        src.state.Shown
          (lastGiven? src.widget ((new library options).afterAll ops).stage.journal)) ∧
      ∀ key src, KeyMap.get? ((new library options).afterAll ops).sources key = some src →
        (∀ handles, .occupy handles ∈ ops → src.widget ∉ handles) →
          src.state.Shown
            (lastGiven? src.widget ((new library options).afterAll ops).stage.journal) := by
  have hshown : ∀ key src, KeyMap.get? ((new library options).afterAll ops).sources key = some src →
      Informed (new library options) src.widget key ops → src.state.Shown
        (lastGiven? src.widget ((new library options).afterAll ops).stage.journal) := by
    intro key src hs hi
    rw [hi.shown hs]
    exact src.state.shown_payload
  refine ⟨hshown, fun key src hs hn => ?_⟩
  exact hshown key src hs (informed_of_free hs hn)

end Renderer

end LiveLayout.Live
