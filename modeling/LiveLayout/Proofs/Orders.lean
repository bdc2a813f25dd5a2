import Mathlib.Data.List.Induction
import LiveLayout.Proofs.Consistency
import LiveLayout.Proofs.Moves
import LiveLayout.Proofs.Opening
import LiveLayout.Proofs.Passing

/-!
# Where requests go

A node that follows nobody asks at the endpoint of its own feed. One that
follows a parent asks where the latest event of the parent had it fetch, as
long as that order stands: being reset, by an event without a key or because of
a change further up, takes it back, and without an order there is nothing to
ask for. The base of all endpoints is put in front of such an endpoint each
time, and never of what was put together before.
-/

namespace LiveLayout.Live

open Layout (Component Remote)

-- ---------------------------------------------------------------------------
-- Jobs that are added
-- ---------------------------------------------------------------------------

namespace Traffic

/-- More jobs, all of a kind. -/
def Adds (J : Job → Prop) (t u : Traffic) : Prop :=
  ∃ more, u.jobs = t.jobs ++ more ∧ ∀ job ∈ more, J job

variable {J K : Job → Prop} {t u v : Traffic}

theorem Adds.of_eq (h : u.jobs = t.jobs) : t.Adds J u := ⟨[], by simp [h]⟩

theorem Adds.refl (t : Traffic) : t.Adds J t := .of_eq rfl

theorem Adds.submit {job : Job} (hj : J job) : t.Adds J (t.submit job) :=
  ⟨[job], rfl, by simpa using hj⟩

theorem Adds.trans (h : t.Adds J u) (h' : u.Adds J v) : t.Adds J v := by
  obtain ⟨first, hf, hfj⟩ := h
  obtain ⟨second, hs, hsj⟩ := h'
  refine ⟨first ++ second, by rw [hs, hf, List.append_assoc], fun job hj => ?_⟩
  exact (List.mem_append.mp hj).elim (hfj job) (hsj job)

theorem Adds.mono (h : t.Adds J u) (hjk : ∀ job, J job → K job) : t.Adds K u := by
  obtain ⟨more, hm, hj⟩ := h
  exact ⟨more, hm, fun job hm => hjk job (hj job hm)⟩

/-- A job with a number that there was not before is of the kind. -/
theorem Adds.of_new (h : t.Adds J u) (hn : t.jobs.length ≤ number)
    (hj : u.jobs[number]? = some job) : J job := by
  obtain ⟨more, hm, hall⟩ := h
  rw [hm, List.getElem?_append_right hn] at hj
  exact hall job (List.mem_of_getElem? hj)

/-- Jobs that there were keep their numbers. -/
theorem Adds.of_old (h : t.Adds J u) (hn : number < t.jobs.length) :
    u.jobs[number]? = t.jobs[number]? := by
  obtain ⟨more, hm, -⟩ := h
  rw [hm, List.getElem?_append_left hn]

end Traffic

open Traffic (Adds)

variable {W : Type} [Widget W]

namespace Source

/-- A job of a source, for the endpoint that it would load again. -/
structure Wants (options : Options) (src : Source) (job : Job) : Prop where
  node : job.ticket.node = src.key
  endpoint : ∃ endpoint, src.lastEndpoint = some endpoint ∧
    job.request.endpoint = options.fullEndpoint endpoint

theorem compose_endpoint (ctx : Context) (remote : Remote) (endpoint : String) (s : Stage W) :
    (compose ctx remote endpoint s).1.endpoint = ctx.options.fullEndpoint endpoint := by
  simp only [compose, run_bind, run_pure]

theorem fetch_adds (src : Source) (ctx : Context) (endpoint : String) (s : Stage W) :
    s.traffic.Adds (Wants ctx.options (src.fetched endpoint)) (src.fetch ctx endpoint s).2.traffic := by
  rw [fetch_traffic]
  exact .submit ⟨rfl, endpoint, rfl, compose_endpoint ..⟩

theorem mount_adds (src : Source) (ctx : Context) (s : Stage W) :
    s.traffic.Adds (fun job => Wants ctx.options (src.mount ctx s).1 job ∧ src.cascaded = false)
      (src.mount ctx s).2.traffic := by
  by_cases hw : src.cascaded = true ∨ src.feed = none
  · rw [mount_waiting src ctx hw, setState_traffic]
    exact .refl _
  · obtain ⟨hc, hf⟩ := not_or.mp hw
    have hc : src.cascaded = false := by simpa using hc
    obtain ⟨feed, hf⟩ := Option.ne_none_iff_exists'.mp hf
    cases feed with
    | inline records =>
      have ho : src.ownRecords? = some records := by simp [ownRecords?, hc, hf]
      rw [mount_own src ctx ho, setState_traffic]
      exact .refl _
    | remote remote =>
      rw [mount_remote src ctx hc hf, run_map, fetch_fst]
      exact (src.fetch_adds ctx remote.endpoint s).mono fun job hj => ⟨hj, hc⟩

theorem refresh_adds (src : Source) (ctx : Context) (s : Stage W) :
    s.traffic.Adds (Wants ctx.options (src.refresh ctx s).1.2) (src.refresh ctx s).2.traffic := by
  cases hl : src.lastEndpoint with
  | some endpoint =>
    rw [refresh_again src ctx hl, run_map, fetch_fst]
    exact src.fetch_adds ctx endpoint s
  | none =>
    cases hc : src.cascaded with
    | true =>
      rw [refresh_nothing src ctx hl hc]
      exact .refl _
    | false =>
      rw [refresh_first src ctx hl hc, run_map]
      exact (src.mount_adds ctx s).mono fun job hj => hj.1

theorem foldl_received_kept (cs : List Completion) (src : Source) :
    (cs.foldl received src).origin = src.origin ∧
      (cs.foldl received src).lastEndpoint = src.lastEndpoint := by
  induction cs generalizing src with
  | nil => exact ⟨rfl, rfl⟩
  | cons c rest ih =>
    obtain ⟨ho, hl⟩ := ih (src.received c)
    refine ⟨ho.trans (src.origin_received c), hl.trans ?_⟩
    unfold received
    split <;> rfl

theorem Loads.own {src : Source} (h : src.Loads t src' u) (hn : src.lastEndpoint = none)
    (hl : src'.lastEndpoint = some endpoint) : src'.cascaded = false ∧
      ∃ remote : Remote, src'.feed = some (.remote remote) ∧ remote.endpoint = endpoint := by
  cases h with
  | waits | supplies => cases hn.symm.trans hl
  | @fetches remote request hc hf => exact ⟨hc, remote, hf, Option.some.inj hl⟩

end Source

namespace Renderer

variable {r r' : Renderer W}

-- ---------------------------------------------------------------------------
-- Orders
-- ---------------------------------------------------------------------------

/-- An operation is an event that has a child do something. -/
inductive Reacts (r : Renderer W) : Operation → Action → Prop
  | fire {id event : String} {payload : Json} (hk : Directory.keyOf? r.directory id = some key)
      (ha : a ∈ reactions r key event payload) : Reacts r (.fire id event payload) a
  | fireKey {event : String} {payload : Json} (ha : a ∈ reactions r key event payload) :
      Reacts r (.fireKey key event payload) a

/-- An operation takes back what a node was told to fetch: an event without a
key for it resets the node, or something changes above it. -/
def Revokes (r : Renderer W) (op : Operation) (key : NodeKey) : Prop :=
  Reacts r op (.reset key) ∨ ∃ t : Trigger, op = t.operation ∧ Downstream r t key

/-- What a node was last told to fetch in the course of a run, and not reset
since. -/
inductive Standing (r : Renderer W) (key : NodeKey) : List Operation → String → Prop
  | ordered (ho : Reacts (r.afterAll ops) op (.fetch key endpoint)) :
      Standing r key (ops ++ [op]) endpoint
  | stands (hs : Standing r key ops endpoint)
      (hn : ∀ other, ¬Reacts (r.afterAll ops) op (.fetch key other))
      (hr : ¬Revokes (r.afterAll ops) op key) : Standing r key (ops ++ [op]) endpoint

theorem Reacts.subscribes (h : Shows xs r) (hr : Reacts r op a) :
    ∃ key event, Subscribes r key event a.node := by
  cases hr with
  | fire _ ha | fireKey ha => exact ⟨_, _, (h.mem_reactions _).mp (List.mem_map_of_mem ha)⟩

theorem Reacts.source (h : Shows xs r) (hr : Reacts r op a) :
    ∃ src, KeyMap.get? r.sources a.node = some src ∧ src.cascaded = true := by
  obtain ⟨key, event, _, _, c, _, _, hc, -⟩ := hr.subscribes h
  exact h.source_of_subscription hc

/-- Each child that reacts does just what it is told. -/
theorem Shows.reacted (h : Shows xs r) (hr : Reacts r op a) :
    ∃ src, src.cascaded = true ∧ KeyMap.get? r.sources a.node = some src ∧
      KeyMap.get? (r.after op).sources a.node = some (a.effect src) := by
  obtain ⟨src, hs, hc⟩ := hr.source h
  refine ⟨src, hc, hs, ?_⟩
  cases hr with
  | @fire key a id event payload hk ha =>
    show KeyMap.get? (Renderer.fire id event payload r).2.sources _ = _
    rw [fire_found hk, (h.fireKey_answered key event payload).direct _ _ ⟨_, ha, rfl, rfl⟩, hs]
    rfl
  | @fireKey key a event payload ha =>
    show KeyMap.get? (Renderer.fireKey key event payload r).2.sources _ = _
    rw [(h.fireKey_answered key event payload).direct _ _ ⟨_, ha, rfl, rfl⟩, hs]
    rfl

theorem Shows.ordered (h : Shows xs r) (hr : Reacts r op (.fetch key endpoint))
    (hs : KeyMap.get? (r.after op).sources key = some src) : src.lastEndpoint = some endpoint := by
  obtain ⟨old, -, -, he⟩ := h.reacted hr
  cases hs.symm.trans he
  rfl

theorem Shows.revoked (h : Shows xs r) (hr : Revokes r op key)
    (hs : KeyMap.get? (r.after op).sources key = some src) : src.lastEndpoint = none := by
  rcases hr with hr | ⟨t, rfl, hd⟩
  · obtain ⟨old, -, -, he⟩ := h.reacted hr
    cases hs.symm.trans he
    rfl
  · obtain ⟨old, -, he⟩ := (h.cascaded t).below key hd
    cases hs.symm.trans he
    rfl

-- ---------------------------------------------------------------------------
-- What a source would load again
-- ---------------------------------------------------------------------------

/-- Without an order there is nothing to refresh: this is said, and that is all. -/
theorem Shows.refreshKey_nothing (h : Shows xs r) (hs : KeyMap.get? r.sources key = some src)
    (hl : src.lastEndpoint = none) (hc : src.cascaded = true) :
    refreshKey key r = (false, (warn (.nothingToRefresh src.component) r).2) := by
  rw [refreshKey_some hs, Source.refresh_nothing src r.context hl hc]
  rw [run_map, if_neg (by simp), run_pure, Renderer.putSource, h.rising_sources.insert_self hs]
  rfl

/-- How a source comes by the endpoint that it would load again after an
operation, if it has one. -/
inductive Recalls (r : Renderer W) (op : Operation) (key : NodeKey) (src : Source) : Prop
  | started (hk : r.nextKey ≤ key.ordinal) (hs : Started (W := W) src)
  | ordered (hr : Reacts r op (.fetch key endpoint)) (hl : src.lastEndpoint = some endpoint)
  | revoked (hr : Revokes r op key) (hl : src.lastEndpoint = none)
  | loaded {remote : Remote} (hc : src.cascaded = false) (hf : src.feed = some (.remote remote))
      (hl : src.lastEndpoint = some remote.endpoint)
  | kept (hs : KeyMap.get? r.sources key = some old) (ho : src.origin = old.origin)
      (hl : src.lastEndpoint = old.lastEndpoint)

/-- A refresh recalls what was ordered, or loads the feed of a source that
follows nobody. -/
theorem Shows.recalls_reloaded (h : Shows xs r) (hs : KeyMap.get? r.sources key = some src)
    (hr : (refreshKey key r).1 = true) (op : Operation) : Recalls r op key src.reloaded := by
  cases hl : src.lastEndpoint with
  | some endpoint =>
    have he : src.reloaded = src.fetched endpoint := by simp only [Source.reloaded, hl]
    exact he ▸ .kept hs rfl hl.symm
  | none =>
    have hc : src.cascaded = false := by
      refine Bool.eq_false_iff.mpr fun hc => ?_
      rw [h.refreshKey_nothing hs hl hc] at hr
      cases hr
    obtain ⟨feed, hf⟩ := Option.ne_none_iff_exists'.mp (h.feed_of_source hs hc)
    cases feed with
    | inline records =>
      have he : src.reloaded = src.supplied records := by simp only [Source.reloaded, hl, hf]
      exact he ▸ .kept hs rfl rfl
    | remote remote =>
      have he : src.reloaded = src.fetched remote.endpoint := by
        simp only [Source.reloaded, hl, hf]
      exact he ▸ .loaded hc hf rfl

theorem Shows.recalls_trigger (h : Shows xs r) (t : Trigger)
    (hs : KeyMap.get? (r.after t.operation).sources key = some src) :
    Recalls r t.operation key src := by
  have hc := h.cascaded t
  by_cases hd : Downstream r t key
  · exact .revoked (.inr ⟨t, rfl, hd⟩) (h.revoked (.inr ⟨t, rfl, hd⟩) hs)
  by_cases ht : Targeted r t key
  · obtain ⟨old, f, ho, hf, he⟩ := hc.direct key ht
    cases hs.symm.trans he
    have hreact {a : Action} (ha : Reacts r t.operation a) :
        Recalls r t.operation a.node (a.effect old) := by
      cases a with
      | fetch node endpoint => exact .ordered ha rfl
      | reset node => exact .revoked (.inl ha) rfl
    cases hf with
    | fire hk ha => exact hreact (.fire hk ha)
    | fireKey ha => exact hreact (.fireKey ha)
    | refresh hk hr | refreshKey hr => exact h.recalls_reloaded ho hr _
  · exact .kept (hc.elsewhere key ht hd ▸ hs) rfl rfl

theorem Shows.recalls (h : Shows xs r) (op : Operation)
    (hs : KeyMap.get? (r.after op).sources key = some src) : Recalls r op key src := by
  cases op with
  | fire id event payload => exact h.recalls_trigger (.fire id event payload) hs
  | fireKey key event payload => exact h.recalls_trigger (.fireKey key event payload) hs
  | refresh id => exact h.recalls_trigger (.refresh id) hs
  | refreshKey key => exact h.recalls_trigger (.refreshKey key) hs
  | occupy | complete => exact .kept hs rfl rfl
  | pump =>
    have hd : Shows xs (drained r) := h.of_fixedPart rfl _
    change KeyMap.get? (Renderer.applyAll r.stage.traffic.queue (drained r)).2.sources key = _ at hs
    rw [(hd.applyAll _).2.2.2] at hs
    obtain ⟨old, ho, rfl⟩ := Option.map_eq_some_iff.mp hs
    obtain ⟨h1, h2⟩ := Source.foldl_received_kept r.stage.traffic.queue old
    exact .kept ho h1 h2
  | teardown =>
    change KeyMap.get? (teardown r).2.sources key = _ at hs
    rw [h.teardown_run] at hs
    cases hs
  | unmountKey node => exact .kept (source_of_unmountKey hs) rfl rfl
  | unmount id =>
    change KeyMap.get? (Renderer.unmount id r).2.sources key = _ at hs
    cases hk : Directory.keyOf? r.directory id with
    | none =>
      simp only [Renderer.unmount, run_bind, run_get, hk] at hs
      exact .kept hs rfl rfl
    | some node =>
      rw [unmount_found hk] at hs
      exact .kept (source_of_unmountKey hs) rfl rfl
  | render tree handlers =>
    cases hc : Layout.check tree with
    | error rejection =>
      change KeyMap.get? (Renderer.render tree handlers r).2.sources key = _ at hs
      rw [render_rejected handlers hc] at hs
      exact .kept hs rfl rfl
    | ok concerns =>
      obtain ⟨r', scene, ho, he⟩ := h.render_openings handlers hc
      rw [he] at hs
      obtain ⟨hk, -, hst⟩ := ho.started rfl hs
      exact .started hk hst

-- ---------------------------------------------------------------------------
-- Along a run
-- ---------------------------------------------------------------------------

/-- A source that has just been started asked for nothing, or for its own feed. -/
theorem Started.own {src : Source} (h : Started (W := W) src)
    (hl : src.lastEndpoint = some endpoint) : src.cascaded = false ∧
      ∃ remote : Remote, src.feed = some (.remote remote) ∧ remote.endpoint = endpoint := by
  obtain ⟨x, ctx, s, rfl⟩ := h
  exact (x.newSource.mount_loads ctx s).own rfl hl

theorem not_standing_nil {r : Renderer W} : ¬Standing r key [] endpoint := by
  intro hs
  generalize ho : ([] : List Operation) = ops at hs
  cases hs <;> simp at ho

/-- An order stands if it was just given, or stood before and was neither
replaced nor taken back. -/
theorem standing_concat {r : Renderer W} : Standing r key (ops ++ [op]) endpoint ↔
    Reacts (r.afterAll ops) op (.fetch key endpoint) ∨ Standing r key ops endpoint ∧
      (∀ other, ¬Reacts (r.afterAll ops) op (.fetch key other)) ∧
      ¬Revokes (r.afterAll ops) op key := by
  constructor
  · intro hs
    generalize ho : ops ++ [op] = all at hs
    cases hs with
    | ordered hr =>
      obtain ⟨rfl, he⟩ := List.append_inj' ho rfl
      cases he
      exact .inl hr
    | stands hs hn hr =>
      obtain ⟨rfl, he⟩ := List.append_inj' ho rfl
      cases he
      exact .inr ⟨hs, hn, hr⟩
  · rintro (hr | ⟨hs, hn, hr⟩)
    · exact .ordered hr
    · exact .stands hs hn hr

/-- Sources would load again what they were told to, if that order stands, or
what is their own if they follow nobody. -/
structure Directed (r : Renderer W) (ops : List Operation) : Prop where
  own : ∀ key src endpoint, KeyMap.get? (r.afterAll ops).sources key = some src →
    src.cascaded = false → src.lastEndpoint = some endpoint →
    ∃ remote : Remote, src.feed = some (.remote remote) ∧ remote.endpoint = endpoint
  standing : ∀ key src endpoint, KeyMap.get? (r.afterAll ops).sources key = some src →
    src.cascaded = true → (src.lastEndpoint = some endpoint ↔ Standing r key ops endpoint)
  given : ∀ key endpoint, Standing r key ops endpoint → key.ordinal < (r.afterAll ops).nextKey

theorem directed_new (library : Library W) (options : Options) :
    Directed (new library options) [] where
  own := fun _ _ _ hs => (nomatch hs)
  standing := fun _ _ _ hs => (nomatch hs)
  given := fun _ _ hs => absurd hs not_standing_nil

namespace Directed

variable {r : Renderer W} {ops : List Operation} {op : Operation}

theorem own_after (hd : Directed r ops) (h : Shows xs (r.afterAll ops))
    (hs : KeyMap.get? ((r.afterAll ops).after op).sources key = some src)
    (hc : src.cascaded = false) (hl : src.lastEndpoint = some endpoint) :
    ∃ remote : Remote, src.feed = some (.remote remote) ∧ remote.endpoint = endpoint := by
  cases h.recalls op hs with
  | started _ hst => exact (hst.own hl).2
  | ordered hr =>
    obtain ⟨old, hco, -, he⟩ := h.reacted hr
    cases hs.symm.trans he
    cases hc.symm.trans hco
  | revoked _ hn => cases hn.symm.trans hl
  | @loaded remote _ hf he => exact ⟨remote, hf, Option.some.inj (he.symm.trans hl)⟩
  | @kept old ho hor he =>
    have hf : src.feed = old.feed := (congrArg Source.feed hor :)
    have hco : old.cascaded = false := (congrArg Source.cascaded hor :).symm.trans hc
    exact hf ▸ hd.own key old endpoint ho hco (he.symm.trans hl)

/-- An order that stands is kept in mind. -/
theorem recalled (hd : Directed r ops) (h : Shows xs (r.afterAll ops))
    (hs : KeyMap.get? ((r.afterAll ops).after op).sources key = some src)
    (hc : src.cascaded = true) (hst : Standing r key (ops ++ [op]) endpoint) :
    src.lastEndpoint = some endpoint := by
  rcases standing_concat.mp hst with hr | ⟨hst, hn, hr⟩
  · exact h.ordered hr hs
  · cases h.recalls op hs with
    | started hlt => exact absurd (hd.given key endpoint hst) (Nat.not_lt_of_le hlt)
    | ordered ho => exact absurd ho (hn _)
    | revoked ho => exact absurd ho hr
    | loaded hnc => cases hc.symm.trans hnc
    | @kept old ho hor he =>
      have hco : old.cascaded = true := (congrArg Source.cascaded hor :).symm.trans hc
      exact he.trans ((hd.standing key old endpoint ho hco).mpr hst)

/-- What is kept in mind is an order that stands. -/
theorem stands (hd : Directed r ops) (h : Shows xs (r.afterAll ops))
    (hs : KeyMap.get? ((r.afterAll ops).after op).sources key = some src)
    (hc : src.cascaded = true) (hl : src.lastEndpoint = some endpoint) :
    Standing r key (ops ++ [op]) endpoint := by
  by_cases hr : ∃ other, Reacts (r.afterAll ops) op (.fetch key other)
  · obtain ⟨other, hr⟩ := hr
    cases (h.ordered hr hs).symm.trans hl
    exact .ordered hr
  by_cases hv : Revokes (r.afterAll ops) op key
  · cases (h.revoked hv hs).symm.trans hl
  cases h.recalls op hs with
  | started _ hst => cases hc.symm.trans (hst.own hl).1
  | ordered ho => exact absurd ⟨_, ho⟩ hr
  | revoked ho => exact absurd ho hv
  | loaded hn => cases hc.symm.trans hn
  | @kept old ho hor he =>
    have hco : old.cascaded = true := (congrArg Source.cascaded hor :).symm.trans hc
    have hst := (hd.standing key old endpoint ho hco).mp (he.symm.trans hl)
    exact .stands hst (not_exists.mp hr) hv

theorem concat (hd : Directed r ops) (h : Shows xs (r.afterAll ops)) (op : Operation) :
    Directed r (ops ++ [op]) := by
  obtain ⟨ys, ht, -⟩ := h.turn op
  have hk := (ht.carries h).nextKey
  have ha := afterAll_concat r ops op
  refine ⟨?_, ?_, ?_⟩
  · intro key src endpoint hs
    exact hd.own_after h (ha ▸ hs)
  · intro key src endpoint hs hc
    exact ⟨hd.stands h (ha ▸ hs) hc, hd.recalled h (ha ▸ hs) hc⟩
  · intro key endpoint hst
    rw [ha]
    rcases standing_concat.mp hst with hr | ⟨hst, -⟩
    · obtain ⟨src, hs, -⟩ := hr.source h
      exact Nat.lt_of_lt_of_le (h.key_lt hs) hk
    · exact Nat.lt_of_lt_of_le (hd.given key endpoint hst) hk

end Directed

theorem directed_afterAll (library : Library W) (options : Options) (ops : List Operation) :
    Directed (new library options) ops := by
  induction ops using List.reverseRecOn with
  | nil => exact directed_new library options
  | append_singleton ops op ih =>
    obtain ⟨⟨xs, h⟩, -⟩ := (sane_new library options).afterAll ops
    exact ih.concat h op

end Renderer

end LiveLayout.Live
