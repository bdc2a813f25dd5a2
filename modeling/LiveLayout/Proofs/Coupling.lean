import LiveLayout.Proofs.Turns

/-!
# Runs that differ in their data only

Where widgets do not let on what data they were given, nothing that is shown,
asked or answered depends on these data. Two stages are alike if their instances
are, and two renderers are coupled if they differ in the states of their sources
and on stages that are alike. Operations that set data moving keep renderers
coupled; those that only deal with completions do not even uncouple one from
itself.
-/

namespace LiveLayout.Live

variable {W : Type} [Widget W]

/-- Instances that are alike answer alike and stay so, and data make no
difference to what an instance is like. -/
structure Blind (alike : W → W → Prop) : Prop where
  equivalence : Equivalence alike
  setData : ∀ w payload, alike w (Widget.setData w payload)
  invoke : ∀ w v method args, alike w v →
    (Widget.invoke w method args).1 = (Widget.invoke v method args).1 ∧
      alike (Widget.invoke w method args).2 (Widget.invoke v method args).2

-- ---------------------------------------------------------------------------
-- Stages
-- ---------------------------------------------------------------------------

section
omit [Widget W]

structure Stage.Like (alike : W → W → Prop) (s t : Stage W) : Prop where
  count : s.widgets.length = t.widgets.length
  widgets : ∀ (i : Nat) w v, s.widgets[i]? = some w → t.widgets[i]? = some v → alike w v
  busy : s.busy = t.busy
  jobs : s.traffic.jobs = t.traffic.jobs

/-- Acts that answer the same on stages that are alike, and leave them so. -/
def Steady (alike : W → W → Prop) (act : Act W α) : Prop :=
  ∀ s t, Stage.Like alike s t → (act s).1 = (act t).1 ∧ Stage.Like alike (act s).2 (act t).2

theorem Stage.widget?_of_free? {s : Stage W} (h : s.free? handle = some w) :
    s.widget? handle = some w := by
  unfold Stage.free? at h
  split at h
  · cases h
  · exact h

theorem Stage.setWidget_self {s : Stage W} (h : s.widget? handle = some w) :
    s.setWidget handle w = s := by
  have hw : s.widgets.set handle.index w = s.widgets := by
    refine List.ext_getElem? fun i => ?_
    rw [List.getElem?_set]
    split
    · next he =>
      subst he
      split
      · exact h.symm
      · next hlt => exact (List.getElem?_eq_none (Nat.not_lt.mp hlt)).symm
    · rfl
  rw [Stage.setWidget, hw]

section
variable {alike : W → W → Prop}

theorem Steady.pure (a : α) : Steady alike (pure a : Act W α) := fun _ _ h => ⟨rfl, h⟩

theorem Steady.bind {m : Act W α} {f : α → Act W β} (hm : Steady alike m)
    (hf : ∀ a, Steady alike (f a)) : Steady alike (m >>= f) := by
  intro s t h
  obtain ⟨h1, h2⟩ := hm s t h
  rw [run_bind, run_bind, h1]
  exact hf _ _ _ h2

end

end

section
variable {alike : W → W → Prop} {s t u : Stage W}

namespace Stage.Like

theorem refl (hb : Blind alike) (s : Stage W) : Like alike s s where
  count := rfl
  widgets := by
    intro i w v hw hv
    obtain rfl : w = v := Option.some.inj (hw.symm.trans hv)
    exact hb.equivalence.refl w
  busy := rfl
  jobs := rfl

theorem symm (hb : Blind alike) (h : Like alike s t) : Like alike t s :=
  ⟨h.count.symm, fun i w v hw hv => hb.equivalence.symm (h.widgets i v w hv hw), h.busy.symm,
    h.jobs.symm⟩

theorem trans (hb : Blind alike) (h : Like alike s t) (h' : Like alike t u) : Like alike s u where
  count := h.count.trans h'.count
  widgets := by
    intro i w v hw hv
    have hlt : i < t.widgets.length := h.count ▸ (List.getElem?_eq_some_iff.mp hw).1
    have ht : t.widgets[i]? = some t.widgets[i] := List.getElem?_eq_getElem hlt
    exact hb.equivalence.trans (h.widgets i w _ hw ht) (h'.widgets i _ v ht hv)
  busy := h.busy.trans h'.busy
  jobs := h.jobs.trans h'.jobs

omit [Widget W] in
theorem free? (h : Like alike s t) (handle : Handle) :
    (s.free? handle = none ∧ t.free? handle = none) ∨
      ∃ w v, s.free? handle = some w ∧ t.free? handle = some v ∧ alike w v := by
  unfold Stage.free? Stage.widget?
  rw [h.busy]
  by_cases hm : handle ∈ t.busy
  · exact .inl ⟨if_pos hm, if_pos hm⟩
  · rw [if_neg hm, if_neg hm]
    cases hs : s.widgets[handle.index]? with
    | none =>
      refine .inl ⟨rfl, List.getElem?_eq_none_iff.mpr ?_⟩
      exact h.count ▸ List.getElem?_eq_none_iff.mp hs
    | some w =>
      have hlt : handle.index < t.widgets.length :=
        h.count ▸ (List.getElem?_eq_some_iff.mp hs).1
      have ht := List.getElem?_eq_getElem hlt
      exact .inr ⟨w, _, rfl, ht, h.widgets _ w _ hs ht⟩

omit [Widget W] in
theorem setWidget (h : Like alike s t) (handle : Handle) (ha : alike w v) :
    Like alike (s.setWidget handle w) (t.setWidget handle v) where
  count := by simpa [Stage.setWidget] using h.count
  widgets := by
    intro i w' v' hw hv
    simp only [Stage.setWidget, List.getElem?_set] at hw hv
    by_cases he : handle.index = i
    · rw [if_pos he] at hw hv
      split at hw
      · split at hv
        · cases hw; cases hv; exact ha
        · cases hv
      · cases hw
    · rw [if_neg he] at hw hv
      exact h.widgets i w' v' hw hv
  busy := h.busy
  jobs := h.jobs

omit [Widget W] in
/-- What was noted makes no difference. -/
theorem record (h : Like alike s t) (e e' : Effect) :
    Like alike (Act.record e s).2 (Act.record e' t).2 :=
  ⟨h.count, h.widgets, h.busy, h.jobs⟩

omit [Widget W] in
theorem submit (h : Like alike s t) (job : Job) :
    Like alike (Act.submit job s).2 (Act.submit job t).2 :=
  ⟨h.count, h.widgets, h.busy, congrArg (· ++ [job]) h.jobs⟩

/-- Data may be given on one stage and others on the other. -/
theorem push (hb : Blind alike) (h : Like alike s t) (handle : Handle) (p q : Payload) :
    (Act.push handle p s).1 = (Act.push handle q t).1 ∧
      Like alike (Act.push handle p s).2 (Act.push handle q t).2 := by
  simp only [Act.push, run_bind, run_get]
  rcases h.free? handle with ⟨hs, ht⟩ | ⟨w, v, hs, ht, ha⟩
  · rw [hs, ht]
    exact ⟨rfl, h⟩
  · rw [hs, ht]
    have hd : alike (Widget.setData w p) (Widget.setData v q) :=
      hb.equivalence.trans (hb.equivalence.symm (hb.setData w p))
        (hb.equivalence.trans ha (hb.setData v q))
    exact ⟨rfl, (h.record _ _).setWidget handle hd⟩

end Stage.Like

theorem Talk.steady (hb : Blind alike) {act : Act W α} (h : Talk act) : Steady alike act := by
  induction h with
  | pure a => exact .pure a
  | remark e _ _ ih => exact .bind (fun s t h => ⟨rfl, h.record e e⟩) fun _ => ih
  | call caller handle method args _ ih =>
    refine .bind (fun s t h => ?_) ih
    rw [invoke_run, invoke_run]
    rcases h.free? handle with ⟨hs, ht⟩ | ⟨w, v, hs, ht, ha⟩
    · rw [hs, ht]
      exact ⟨rfl, h⟩
    · rw [hs, ht]
      obtain ⟨h1, h2⟩ := hb.invoke w v method args ha
      exact ⟨congrArg some h1, (h.record _ _).setWidget handle h2⟩

theorem Steady.add (hb : Blind alike) (w : W) : Steady alike (Act.add w) := by
  intro s t h
  refine ⟨congrArg Handle.mk h.count, ⟨?_, ?_, h.busy, h.jobs⟩⟩
  · show (s.widgets ++ [w]).length = (t.widgets ++ [w]).length
    rw [List.length_append, List.length_append, h.count]
  · intro i w' v' hw hv
    change (s.widgets ++ [w])[i]? = some w' at hw
    change (t.widgets ++ [w])[i]? = some v' at hv
    rw [List.getElem?_append] at hw hv
    rw [h.count] at hw
    split at hw
    · next hlt =>
      rw [if_pos hlt] at hv
      exact h.widgets i w' v' hw hv
    · next hlt =>
      rw [if_neg hlt] at hv
      obtain rfl : w' = v' := Option.some.inj (hw.symm.trans hv)
      exact hb.equivalence.refl w'

end

-- ---------------------------------------------------------------------------
-- Sources
-- ---------------------------------------------------------------------------

namespace Source

/-- A source without its state. -/
def stateless (src : Source) : Source := { src with state := .idle }

theorem stateless_eq {a b : Source} :
    a.stateless = b.stateless ↔ ∃ state, b = { a with state } := by
  constructor
  · intro h
    refine ⟨b.state, ?_⟩
    cases a
    cases b
    simpa [stateless, eq_comm] using h
  · rintro ⟨state, rfl⟩
    rfl

theorem stateless_received (src : Source) (c : Completion) :
    (src.received c).stateless = src.stateless := by
  unfold received
  split <;> rfl

section
variable {alike : W → W → Prop} {s t : Stage W}

theorem setState_like (hb : Blind alike) (h : Stage.Like alike s t) {src src' : Source}
    (hw : src.widget = src'.widget) (state state' : FetchState) :
    Stage.Like alike (src.setState state s).2 (src'.setState state' t).2 := by
  obtain ⟨h1, h2⟩ := h.push hb src.widget state.payload state'.payload
  simp only [setState, run_bind, ← hw, h1]
  cases (Act.push src.widget state'.payload t).1 with
  | true => exact h2
  | false => exact h2.record _ _

/-- Acts on a source that come to the same whatever its state is. -/
def Steady (alike : W → W → Prop) (act : Source → Act W (α × Source)) : Prop :=
  ∀ src state s t, Stage.Like alike s t →
    (act src s).1.1 = (act { src with state } t).1.1 ∧
      (act src s).1.2.stateless = (act { src with state } t).1.2.stateless ∧
      Stage.Like alike (act src s).2 (act { src with state } t).2

theorem fetch_steady (hb : Blind alike) (ctx : Context) (endpoint : String) :
    Steady alike fun src => src.fetch ctx endpoint := by
  intro src state s t h
  obtain ⟨h1, h2⟩ := (compose_talk ctx (src.remote endpoint) endpoint).steady hb s t h
  refine ⟨by rw [fetch_fst, fetch_fst]; rfl, by rw [fetch_fst, fetch_fst]; rfl, ?_⟩
  simp only [fetch, run_bind, run_pure]
  have hr : ({ src with state } : Source).remote endpoint = src.remote endpoint := rfl
  rw [hr, ← h1]
  exact (setState_like hb h2 rfl _ _).submit _

theorem reset_steady (hb : Blind alike) :
    Steady alike fun src => (do let src ← src.reset; pure ((), src) : Act W (Unit × Source)) := by
  intro src state s t h
  refine ⟨rfl, ?_, setState_like hb h rfl _ _⟩
  simp only [run_bind, run_pure, reset_fst]
  rfl

/-- A first load comes to the same whatever the state was. -/
theorem mount_like (hb : Blind alike) (ctx : Context) (src : Source) (state : FetchState)
    (h : Stage.Like alike s t) :
    (src.mount ctx s).1 = (({ src with state } : Source).mount ctx t).1 ∧
      Stage.Like alike (src.mount ctx s).2 (({ src with state } : Source).mount ctx t).2 := by
  by_cases hw : src.cascaded = true ∨ src.feed = none
  · rw [mount_waiting src ctx hw, mount_waiting { src with state } ctx hw, setState_fst,
      setState_fst]
    exact ⟨rfl, setState_like hb h rfl _ _⟩
  · obtain ⟨hc, hf⟩ := not_or.mp hw
    have hc : src.cascaded = false := by simpa using hc
    obtain ⟨feed, hf⟩ := Option.ne_none_iff_exists'.mp hf
    cases feed with
    | inline records =>
      have ho : src.ownRecords? = some records := by simp [ownRecords?, hc, hf]
      rw [mount_own src ctx ho, mount_own { src with state } ctx ho, setState_fst, setState_fst]
      exact ⟨rfl, setState_like hb h rfl _ _⟩
    | remote r =>
      rw [mount_remote src ctx hc hf, mount_remote { src with state } ctx hc hf, run_map, run_map,
        fetch_fst, fetch_fst]
      exact ⟨rfl, (fetch_steady hb ctx r.endpoint src state s t h).2.2⟩

theorem mount_steady (hb : Blind alike) (ctx : Context) (src : Source) :
    Live.Steady alike (src.mount ctx) := fun _ _ h => mount_like hb ctx src src.state h

theorem refresh_steady (hb : Blind alike) (ctx : Context) :
    Steady alike fun src => src.refresh ctx := by
  intro src state s t h
  dsimp only
  rcases Option.eq_none_or_eq_some src.lastEndpoint with hl | ⟨endpoint, hl⟩
  · rcases Bool.eq_false_or_eq_true src.cascaded with hc | hc
    · rw [refresh_nothing src ctx hl hc, refresh_nothing { src with state } ctx hl hc]
      exact ⟨rfl, rfl, h.record _ _⟩
    · obtain ⟨h2, h3⟩ := mount_like hb ctx src state h
      rw [refresh_first src ctx hl hc, refresh_first { src with state } ctx hl hc]
      exact ⟨rfl, congrArg stateless h2, h3⟩
  · obtain ⟨-, h2, h3⟩ := fetch_steady hb ctx endpoint src state s t h
    rw [refresh_again src ctx hl, refresh_again { src with state } ctx hl]
    exact ⟨rfl, h2, h3⟩

/-- Giving data alone leaves a stage alike. -/
theorem push_like (hb : Blind alike) (handle : Handle) (payload : Payload) (s : Stage W) :
    Stage.Like alike s (Act.push handle payload s).2 := by
  have hr := Stage.Like.refl hb s
  simp only [Act.push, run_bind, run_get]
  cases hf : s.free? handle with
  | none => exact hr
  | some w =>
    have hw : s.setWidget handle w = s := Stage.setWidget_self (Stage.widget?_of_free? hf)
    have hs := (hr.record (.pushed handle payload) (.pushed handle payload)).setWidget handle
      (hb.setData w payload)
    refine Stage.Like.trans hb ?_ hs
    rw [show (Act.record (.pushed handle payload) s).2.setWidget handle w =
      (Act.record (.pushed handle payload) (s.setWidget handle w)).2 from rfl, hw]
    exact ⟨hr.count, hr.widgets, hr.busy, hr.jobs⟩

theorem setState_like_self (hb : Blind alike) (src : Source) (state : FetchState)
    (s : Stage W) : Stage.Like alike s (src.setState state s).2 := by
  have hp := push_like hb src.widget state.payload s
  simp only [setState, run_bind]
  cases (Act.push src.widget state.payload s).1 with
  | true => exact hp
  | false => exact ⟨hp.count, hp.widgets, hp.busy, hp.jobs⟩

/-- Taking a completion changes nothing but the state and what the widget was
given. -/
theorem apply_like (hb : Blind alike) (src : Source) (c : Completion) (s : Stage W) :
    Stage.Like alike s (src.apply c s).2 := by
  by_cases h : c.ticket = ⟨src.key, src.generation⟩
  · cases hr : c.result with
    | ok records =>
      simp only [apply, if_pos h, hr]
      exact setState_like_self hb src _ s
    | error error =>
      simp only [apply, if_pos h, hr]
      have hw : Stage.Like alike s (Act.warn (.fetchFailed src.component error) s).2 := by
        have hr := Stage.Like.refl hb s
        exact ⟨hr.count, hr.widgets, hr.busy, hr.jobs⟩
      exact hw.trans hb (setState_like_self hb src _ _)
  · simp only [apply, if_neg h]
    exact .refl hb s

end

end Source

end LiveLayout.Live
