import LiveLayout.Proofs.Orders

/-!
# Every request goes where it should

Whatever submits a job leaves its source with the endpoint that the job went to.
So after any run, however often a node was refreshed, each job of the run is
accounted for by the feed of its node or by the order that stood for it.
-/

namespace LiveLayout.Live

open Layout (Component Cascade Remote)
open Traffic (Adds)

variable {W : Type} [Widget W]

namespace Renderer

variable {r r' : Renderer W}

-- ---------------------------------------------------------------------------
-- Jobs of moves
-- ---------------------------------------------------------------------------

/-- Moves submit what their deeds submit. -/
theorem Shows.moves_adds {J : Job → Prop} (h : Shows xs r) (hm : Moves P r r')
    (hj : ∀ key deed (src : Source) (s : Stage W), P key deed → src.key = key →
      s.traffic.Adds J (deed.act r.context src s).2.traffic) :
    r.stage.traffic.Adds J r'.stage.traffic := by
  induction hm with
  | refl => exact .refl _
  | @tail b c hb hm ih =>
    refine ih.trans ?_
    have hs := h.moves hb
    have hc : b.context = r.context := (Moves.sameLayout hb).context_eq
    cases hm with
    | warns w => exact .of_eq rfl
    | dispatches event => exact .of_eq (congrArg Traffic.jobs ((dispatch_talk ..).traffic _))
    | decides id name payload => exact .of_eq (congrArg Traffic.jobs ((actions_talk ..).traffic _))
    | does hsrc hp =>
      have hd := hj _ _ _ b.stage hp (hs.source_key hsrc)
      rwa [← hc] at hd

theorem Deed.reset_adds {J : Job → Prop} (ctx : Context) (src : Source) (s : Stage W) :
    s.traffic.Adds J (Deed.reset.act ctx src s).2.traffic :=
  .of_eq (congrArg Traffic.jobs (src.reset_traffic s))

theorem Shows.resetFollowers_adds {J : Job → Prop} (h : Shows xs r) (key : NodeKey) :
    r.stage.traffic.Adds J (resetFollowers key r).2.stage.traffic := by
  have hm := resetFollowers_moves (P := fun _ deed => deed = .reset) (fun _ => rfl) key r
  refine h.moves_adds hm fun key deed src s hd _ => ?_
  subst hd
  exact Deed.reset_adds _ src s

/-- A job that its source would submit again. -/
def Wanted (r : Renderer W) (job : Job) : Prop :=
  ∃ src, KeyMap.get? r.sources job.ticket.node = some src ∧ src.Wants r.options job

theorem Shows.fireKey_wanted (h : Shows xs r) (key : NodeKey) (name : String) (payload : Json) :
    r.stage.traffic.Adds (Wanted (fireKey key name payload r).2)
      (fireKey key name payload r).2.stage.traffic := by
  have hm : Moves (fun node deed => deed = .reset ∨ ∃ endpoint, deed = .fetch endpoint ∧
      Action.fetch node endpoint ∈ reactions r key name payload) r
      (fireKey key name payload r).2 := by
    refine fireKey_moves (fun _ => .inl rfl) key name payload r fun a ha => ?_
    cases a with
    | fetch node endpoint => exact .inr ⟨endpoint, rfl, ha⟩
    | reset node => exact .inl rfl
  have hl : SameLayout r (fireKey key name payload r).2 := Moves.sameLayout hm
  refine h.moves_adds hm fun node deed src s hd hk => ?_
  rcases hd with rfl | ⟨endpoint, rfl, ha⟩
  · exact Deed.reset_adds _ src s
  · refine (src.fetch_adds r.context endpoint s).mono fun job hj => ?_
    obtain ⟨hn, _, ⟨⟩, he⟩ := hj
    have hn : job.ticket.node = node := hn.trans hk
    obtain ⟨old, hs⟩ := h.source_of_subscribes
      ((h.mem_reactions payload).mp (List.mem_map_of_mem ha))
    have hd := (h.fireKey_answered key name payload).direct node _ ⟨_, ha, rfl, rfl⟩
    change KeyMap.get? r.sources node = some old at hs
    rw [hs] at hd
    refine ⟨old.fetched endpoint, hn ▸ hd, hn.trans (h.source_key hs).symm, endpoint, rfl, ?_⟩
    exact he.trans (congrArg (·.fullEndpoint endpoint) hl.carries.options.symm)

theorem Shows.refreshKey_wanted (h : Shows xs r) (key : NodeKey) :
    r.stage.traffic.Adds (Wanted (refreshKey key r).2) (refreshKey key r).2.stage.traffic := by
  cases hs : KeyMap.get? r.sources key with
  | none =>
    simp only [refreshKey, run_bind, run_get, withSource_none _ hs]
    exact .of_eq rfl
  | some src =>
    rw [refreshKey_some hs]
    generalize hr : r.putSource key (src.refresh r.context r.stage).1.2
      (src.refresh r.context r.stage).2 = r₁
    have h₁ : Shows xs r₁ := hr ▸ h.putSource hs (Source.origin_refreshed ..) _
    have hl : SameLayout r r₁ := hr ▸ sameLayout_putSource ..
    have hg : KeyMap.get? r₁.sources key = some (src.refresh r.context r.stage).1.2 := by
      rw [← hr, get?_putSource, if_pos rfl]
    have hw : ∀ {r₂ : Renderer W}, SameLayout r₁ r₂ →
        KeyMap.get? r₂.sources key = KeyMap.get? r₁.sources key →
        r.stage.traffic.Adds (Wanted r₂) r₁.stage.traffic := by
      intro r₂ hl₂ hg₂
      rw [← hr]
      refine (src.refresh_adds r.context r.stage).mono fun job hj => ?_
      have hk : (src.refresh r.context r.stage).1.2.key = src.key :=
        (congrArg Source.key (Source.origin_refreshed src r.context r.stage) :)
      have hn : job.ticket.node = key := hj.node.trans (hk.trans (h.source_key hs))
      refine ⟨_, hn ▸ hg₂.trans hg, hj.node, ?_⟩
      rw [(hl.trans hl₂).carries.options]
      exact hj.endpoint
    split
    · have hc := h₁.resetFollowers_clears key
      exact (hw hc.layout (hc.outside key (h₁.forest.acyclic key))).trans
        (h₁.resetFollowers_adds key)
    · exact hw (.refl _) rfl

-- ---------------------------------------------------------------------------
-- Jobs of openings
-- ---------------------------------------------------------------------------

/-- A job of a source that was mounted, and that follows nobody. -/
structure Opens (r : Renderer W) (src : Source) (job : Job) : Prop where
  source : KeyMap.get? r.sources job.ticket.node = some src
  given : job.ticket.node.ordinal < r.nextKey
  wants : src.Wants r.options job
  alone : src.cascaded = false

theorem Opens.opening (h : Opens r src job) (ho : Opening r r') : Opens r' src job := by
  refine ⟨?_, Nat.lt_of_lt_of_le h.given ho.nextKey, ho.options ▸ h.wants, h.alone⟩
  rcases ho.get?_sources job.ticket.node with he | ⟨hk, -⟩
  · exact he.trans h.source
  · have hlt := h.given
    rw [hk] at hlt
    exact absurd hlt (Nat.lt_irrefl _)

theorem Opening.adds (h : Opening r r') :
    r.stage.traffic.Adds (fun job => ∃ src, Opens r' src job) r'.stage.traffic := by
  cases h with
  | warns | plain => exact .of_eq rfl
  | @loading c make hm hs =>
    refine ((r.introduced c make).newSource.mount_adds _ _).mono fun job hj => ?_
    have ho := (Source.mount_loads (r.introduced c make).newSource
      ⟨r.directory ++ (r.introduced c make).registered?.toList, r.options⟩
      (r.stage.withWidget (make c.propsJson))).origin
    have hn : job.ticket.node = ⟨r.nextKey⟩ := hj.1.node.trans (congrArg Source.key ho)
    refine ⟨(r.firstLoad c make).1, ?_, ?_, hj.1, (congrArg Source.cascaded ho :).trans hj.2⟩
    · rw [hn]
      exact (KeyMap.get?_insert ..).trans (if_pos rfl)
    · rw [hn]
      exact Nat.lt_succ_self _

theorem Openings.adds (h : Openings r r') :
    r.stage.traffic.Adds (fun job => ∃ src, Opens r' src job) r'.stage.traffic := by
  induction h with
  | refl => exact .refl _
  | tail _ ho ih =>
    refine (ih.mono fun job => ?_).trans ho.adds
    rintro ⟨src, hj⟩
    exact ⟨src, hj.opening ho⟩

/-- A render submits only for nodes that follow nobody. -/
theorem Shows.render_adds (h : Shows xs r) (tree : Layout.Node) (handlers : Handlers) :
    r.stage.traffic.Adds (fun job => ∃ src, Opens (r.after (.render tree handlers)) src job)
      (r.after (.render tree handlers)).stage.traffic := by
  cases hc : Layout.check tree with
  | error rejection =>
    have he : r.after (.render tree handlers) = r :=
      congrArg Prod.snd (render_rejected handlers hc)
    rw [he]
    exact .refl _
  | ok concerns =>
    obtain ⟨r', scene, ho, he⟩ := h.render_openings handlers hc
    have hg : (ground handlers concerns r).stage.traffic = r.stage.traffic :=
      toldConcerns_traffic ..
    rw [he]
    refine hg ▸ ho.adds.mono fun job => ?_
    rintro ⟨src, hj⟩
    exact ⟨src, hj.source, hj.given, hj.wants, hj.alone⟩

-- ---------------------------------------------------------------------------
-- Jobs of operations
-- ---------------------------------------------------------------------------

/-- Whatever is submitted would be submitted again. -/
theorem Shows.wanted (h : Shows xs r) (op : Operation) :
    r.stage.traffic.Adds (Wanted (r.after op)) (r.after op).stage.traffic := by
  cases op with
  | occupy => exact .of_eq rfl
  | render tree handlers =>
    refine (h.render_adds tree handlers).mono fun job => ?_
    rintro ⟨src, hj⟩
    exact ⟨src, hj.source, hj.wants⟩
  | teardown =>
    show Adds _ _ (teardown r).2.stage.traffic
    rw [h.teardown_run]
    exact .of_eq rfl
  | unmountKey key =>
    show Adds _ _ (Renderer.unmountKey key r).2.stage.traffic
    rw [unmountKey_stage]
    exact .of_eq rfl
  | unmount id =>
    show Adds _ _ (unmount id r).2.stage.traffic
    cases hk : Directory.keyOf? r.directory id with
    | none =>
      simp only [unmount, run_bind, run_get, hk]
      exact .of_eq rfl
    | some key =>
      rw [unmount_found hk, unmountKey_stage]
      exact .of_eq rfl
  | fireKey key event payload => exact h.fireKey_wanted key event payload
  | fire id event payload =>
    show Adds (Wanted (fire id event payload r).2) _ (fire id event payload r).2.stage.traffic
    cases hk : Directory.keyOf? r.directory id with
    | none =>
      simp only [fire, run_bind, run_get, hk]
      exact .of_eq rfl
    | some key =>
      rw [fire_found hk]
      exact h.fireKey_wanted key event payload
  | refreshKey key => exact h.refreshKey_wanted key
  | refresh id =>
    show Adds (Wanted (refresh id r).2) _ (refresh id r).2.stage.traffic
    cases hk : Directory.keyOf? r.directory id with
    | none =>
      simp only [refresh, run_bind, run_get, hk]
      exact .of_eq rfl
    | some key =>
      rw [refresh_found hk]
      exact h.refreshKey_wanted key
  | complete number response =>
    refine .of_eq ?_
    show (Act.complete number response r.stage).2.traffic.jobs = _
    rw [complete_run]
    cases hc : r.stage.traffic.complete? number response with
    | none => rfl
    | some u =>
      obtain ⟨job, -, rfl⟩ := Traffic.complete?_eq_some hc
      rfl
  | pump =>
    have hd : Shows xs (drained r) := h.of_fixedPart rfl _
    have ht : (r.after .pump).stage.traffic = (drained r).stage.traffic :=
      (hd.applyAll r.stage.traffic.queue).2.2.1
    exact .of_eq (by rw [ht]; rfl)

-- ---------------------------------------------------------------------------
-- Jobs of runs
-- ---------------------------------------------------------------------------

/-- The operation submits the job of this number. -/
def Submits (r : Renderer W) (op : Operation) (number : Nat) : Prop :=
  r.stage.traffic.jobs.length ≤ number ∧ number < (r.after op).stage.traffic.jobs.length

/-- A job that an operation submits after others goes where it should, by what
the layout says about its node: to the endpoint of its feed, or where it was
last told to fetch. A render only submits for nodes that follow nobody. -/
inductive Addressed (library : Library W) (options : Options) (first : List Operation)
    (op : Operation) (job : Job) : Prop
  | own {c : Component} {remote : Remote}
      (hc : KeyMap.get? (declaredBy (new library options) [] (first ++ [op]))
        job.ticket.node = some c)
      (hn : c.cascade = none) (hf : c.feed = some (.remote remote))
      (he : job.request.endpoint = options.fullEndpoint remote.endpoint)
  | ordered {c : Component} {cascade : Cascade} {endpoint : String}
      (hc : KeyMap.get? (declaredBy (new library options) [] (first ++ [op]))
        job.ticket.node = some c)
      (hn : c.cascade = some cascade) (hr : ∀ tree handlers, op ≠ .render tree handlers)
      (hs : Standing (new library options) job.ticket.node (first ++ [op]) endpoint)
      (he : job.request.endpoint = options.fullEndpoint endpoint)

omit [Widget W] in
/-- The component of a node that has a source. -/
theorem Accounts.component_of_source {given : KeyMap Component} (h : Accounts given xs r)
    (hs : KeyMap.get? r.sources key = some src) :
    ∃ c, KeyMap.get? given key = some c ∧ src.feed = c.feed ∧
      src.cascaded = c.cascade.isSome := by
  obtain ⟨x, hx, rfl, -, ho⟩ := h.shows.exhibit_of_source hs
  exact ⟨x.component, h.get?_given hx, congrArg Source.feed ho, congrArg Source.cascaded ho⟩

theorem addressed {library : Library W} {options : Options} {first : List Operation}
    {op : Operation} (hs : Submits ((new library options).afterAll first) op number)
    (hj : (((new library options).afterAll first).after op).stage.traffic.jobs[number]? =
      some job) : Addressed library options first op job := by
  obtain ⟨⟨xs, h⟩, -⟩ := (sane_new library options).afterAll first
  obtain ⟨ys, hy⟩ := (accounts_new library options).afterAll (first ++ [op])
  have hd := directed_afterAll library options (first ++ [op])
  have hr : Reachable library options ((new library options).afterAll (first ++ [op])) :=
    reachable_afterAll .new _
  have ho := hr.carries.options
  obtain ⟨src, hsrc, -, endpoint, hl, he⟩ := (h.wanted op).of_new hs.1 hj
  rw [← afterAll_concat] at hsrc he
  obtain ⟨c, hc, hf, hcas⟩ := hy.component_of_source hsrc
  rw [ho] at he
  cases hcc : c.cascade with
  | none =>
    rw [hcc] at hcas
    obtain ⟨remote, hr, rfl⟩ := hd.own _ _ _ hsrc hcas hl
    exact .own hc hcc (hf ▸ hr) he
  | some cascade =>
    rw [hcc] at hcas
    refine .ordered hc hcc ?_ ((hd.standing _ _ _ hsrc hcas).mp hl) he
    rintro tree handlers rfl
    obtain ⟨other, hother⟩ := (h.render_adds tree handlers).of_new hs.1 hj
    rw [← afterAll_concat] at hother
    cases hsrc.symm.trans hother.source
    cases hcas.symm.trans hother.alone

/-- Each job of a run was submitted by one of its operations. -/
theorem exists_submits (library : Library W) (options : Options) (ops : List Operation)
    (hj : ((new library options).afterAll ops).stage.traffic.jobs[number]? = some job) :
    ∃ first op last, ops = first ++ op :: last ∧
      Submits ((new library options).afterAll first) op number ∧
      (((new library options).afterAll first).after op).stage.traffic.jobs[number]? =
        some job := by
  induction ops using List.reverseRecOn with
  | nil => cases hj
  | append_singleton ops op ih =>
    obtain ⟨⟨xs, h⟩, -⟩ := (sane_new library options).afterAll ops
    rw [afterAll_concat] at hj
    by_cases hn : number < ((new library options).afterAll ops).stage.traffic.jobs.length
    · rw [(h.wanted op).of_old hn] at hj
      obtain ⟨first, o, last, rfl, hs⟩ := ih hj
      exact ⟨first, o, last ++ [op], by simp, hs⟩
    · exact ⟨ops, op, [], rfl, ⟨Nat.le_of_not_lt hn, (List.getElem?_eq_some_iff.mp hj).1⟩, hj⟩

-- ---------------------------------------------------------------------------
-- Refreshes
-- ---------------------------------------------------------------------------

/-- Refreshes a node, by its key or by its id. -/
inductive Refreshes (r : Renderer W) (key : NodeKey) : Operation → Prop
  | byKey : Refreshes r key (.refreshKey key)
  | byId {id : String} (hk : Directory.keyOf? r.directory id = some key) :
      Refreshes r key (.refresh id)

theorem Refreshes.perform (h : Refreshes r key op) :
    perform op r = (.said (refreshKey key r).1, (refreshKey key r).2) := by
  cases h with
  | byKey => rfl
  | byId hk => exact congrArg (fun p => (Reply.said p.1, p.2)) (refresh_found hk)

theorem refreshKey_again (hs : KeyMap.get? r.sources key = some src)
    (hl : src.lastEndpoint = some endpoint) : (refreshKey key r).1 = true := by
  rw [refreshKey_some hs, Source.refresh_again src r.context hl]
  rfl

/-- A node that follows a parent is refreshed just if an order stands for it. If
there is none, that is said, and nothing else happens. -/
theorem refreshes_standing (library : Library W) (options : Options) (ops : List Operation)
    (hc : KeyMap.get? ((new library options).afterAll ops).subscriptions key = some cascade)
    (hr : Refreshes ((new library options).afterAll ops) key op) :
    ((perform op ((new library options).afterAll ops)).1 = .said true ↔
        ∃ endpoint, Standing (new library options) key ops endpoint) ∧
      ((∀ endpoint, ¬Standing (new library options) key ops endpoint) →
        ∃ component, perform op ((new library options).afterAll ops) = (.said false,
          (warn (.nothingToRefresh component) ((new library options).afterAll ops)).2)) := by
  obtain ⟨⟨xs, h⟩, -⟩ := (sane_new library options).afterAll ops
  obtain ⟨src, hs, hcas⟩ := h.source_of_subscription hc
  have hd := (directed_afterAll library options ops).standing key src
  rw [hr.perform]
  cases hl : src.lastEndpoint with
  | some endpoint =>
    have hst := (hd endpoint hs hcas).mp hl
    refine ⟨iff_of_true ?_ ⟨endpoint, hst⟩, fun hn => absurd hst (hn endpoint)⟩
    rw [refreshKey_again hs hl]
  | none =>
    have hn : ∀ endpoint, ¬Standing (new library options) key ops endpoint := by
      intro endpoint hst
      cases hl.symm.trans ((hd endpoint hs hcas).mpr hst)
    rw [h.refreshKey_nothing hs hl hcas]
    exact ⟨iff_of_false (by simp) (not_exists.mpr hn), fun _ => ⟨_, rfl⟩⟩

/-- However often nodes are refreshed, each job of a run goes to the endpoint of
its node's own feed, or where its parent last had the node fetch, which no reset
has taken back since; the base is put in front once. A node that follows a
parent submits nothing when it is mounted, and can be refreshed just if such an
order stands: otherwise nothing happens at all. -/
theorem addressed_afterAll (library : Library W) (options : Options) (ops : List Operation) :
    (∀ number job,
      ((new library options).afterAll ops).stage.traffic.jobs[number]? = some job →
        ∃ first op last, ops = first ++ op :: last ∧
          Submits ((new library options).afterAll first) op number ∧
          Addressed library options first op job) ∧
      ∀ key cascade op,
        KeyMap.get? ((new library options).afterAll ops).subscriptions key = some cascade →
        Refreshes ((new library options).afterAll ops) key op →
          ((perform op ((new library options).afterAll ops)).1 = .said true ↔
            ∃ endpoint, Standing (new library options) key ops endpoint) ∧
          ((∀ endpoint, ¬Standing (new library options) key ops endpoint) →
            ∃ component, perform op ((new library options).afterAll ops) = (.said false,
              (warn (.nothingToRefresh component) ((new library options).afterAll ops)).2)) := by
  refine ⟨fun number job hj => ?_, fun key cascade op hc hr => ?_⟩
  · obtain ⟨first, op, last, he, hs, hg⟩ := exists_submits library options ops hj
    exact ⟨first, op, last, he, hs, addressed hs hg⟩
  · exact refreshes_standing library options ops hc hr

end Renderer

end LiveLayout.Live
