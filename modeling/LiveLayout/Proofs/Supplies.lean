import LiveLayout.Proofs.Opening
import LiveLayout.Proofs.Orders
import LiveLayout.Proofs.Removal
import LiveLayout.Proofs.Serving

/-!
# Widgets show the states of their nodes

Each node with a source has an instance of its own, and whatever sets its state
gives the instance what belongs to it. So an instance that was free at the time
was last given just that, and where no instance is ever busy all of them always
show the states of their nodes.
-/

namespace LiveLayout.Live

variable {W : Type} [Widget W]

/-- Whatever a source does, its instance is served, or nothing happened. -/
theorem Deed.serves (deed : Deed) (ctx : Context) {src : Source} {s : Stage W}
    (hp : src.Placed s) :
    ((deed.act ctx src s).1 = src ∧ ∀ h, Leaves h s (deed.act ctx src s).2) ∨
      Serves (deed.act ctx src s).1 s (deed.act ctx src s).2 := by
  cases deed with
  | fetch endpoint =>
    refine .inr ?_
    simp only [Deed.act, run_map, Source.fetch_fst]
    exact Source.fetch_serves hp ctx endpoint
  | reset =>
    refine .inr ?_
    simp only [Deed.act, Source.reset_fst]
    exact Source.reset_serves hp
  | refresh =>
    simp only [Deed.act, run_map]
    rcases Source.refresh_serves hp ctx with ⟨-, hs⟩ | ⟨he, hl⟩
    · exact .inr hs
    · exact .inl ⟨congrArg Prod.snd he, hl⟩
  | take c =>
    simp only [Deed.act, run_map, Source.apply_fst]
    rcases Source.apply_serves hp c with ⟨-, hs⟩ | ⟨hn, he⟩
    · exact .inr hs
    · rw [he]
      exact .inl ⟨if_neg hn, fun h => ⟨rfl, rfl, rfl⟩⟩

namespace Renderer

-- ---------------------------------------------------------------------------
-- Supplying
-- ---------------------------------------------------------------------------

section
variable {W : Type} {r r' r'' : Renderer W}

/-- Sources have instances of their own, which are there. -/
structure Roomed (r : Renderer W) : Prop where
  placed : ∀ key src, KeyMap.get? r.sources key = some src → src.Placed r.stage
  apart : ∀ key other src src', KeyMap.get? r.sources key = some src →
    KeyMap.get? r.sources other = some src' → src.widget = src'.widget → key = other

theorem Housed.roomed (h : Housed xs r) : Roomed r where
  placed := by
    intro key src hs
    obtain ⟨x, hx, rfl, -, ho⟩ := h.shows.exhibit_of_source hs
    have hw : src.widget = x.entry.handle := congrArg Source.widget ho
    unfold Source.Placed
    exact hw ▸ h.placed x hx
  apart := by
    intro key other src src' hs hs' he
    obtain ⟨x, hx, rfl, -, ho⟩ := h.shows.exhibit_of_source hs
    obtain ⟨y, hy, rfl, -, ho'⟩ := h.shows.exhibit_of_source hs'
    have hw : src.widget = x.entry.handle := congrArg Source.widget ho
    have hw' : src'.widget = y.entry.handle := congrArg Source.widget ho'
    have hn : (xs.map (·.entry.handle.index)).Nodup :=
      List.pairwise_map.mpr (h.apart.imp Nat.ne_of_lt)
    rw [hw, hw'] at he
    rw [List.inj_on_of_nodup_map hn hx hy (congrArg Handle.index he)]

/-- Each source is as it was, and its instance was left alone, or the instance
was told the state of its source. -/
structure Supplies (r r' : Renderer W) : Prop where
  busy : r'.stage.busy = r.stage.busy
  count : r'.stage.widgets.length = r.stage.widgets.length
  source : ∀ key src', KeyMap.get? r'.sources key = some src' →
    ∃ src, KeyMap.get? r.sources key = some src ∧ src'.widget = src.widget ∧
      (src' = src ∧ lastGiven? src.widget r'.stage.journal =
          lastGiven? src.widget r.stage.journal ∨
        Told src' r.stage r'.stage)

/-- What was told before nothing else or something newer is told. -/
theorem Told.supplies (ht : Told src r.stage r'.stage) (hb : r'.stage.busy = r.stage.busy)
    (hs : Supplies r' r'') (hg : KeyMap.get? r'.sources key = some src)
    (hg' : KeyMap.get? r''.sources key = some src') : Told src' r.stage r''.stage := by
  obtain ⟨old, ho, hw, hc⟩ := hs.source key src' hg'
  cases hg.symm.trans ho
  rcases hc with ⟨rfl, hl⟩ | hn
  · exact ⟨fun hf => hl.trans (ht.free hf), fun hm => hl.trans (ht.missed hm)⟩
  · refine ⟨fun hf => hn.free (hb ▸ hf), fun hm => ?_⟩
    rw [hn.missed (hb ▸ hm), hw]
    exact ht.missed (hw ▸ hm)

/-- What is told after something else was told is told. -/
theorem Supplies.told (hs : Supplies r r') (hg : KeyMap.get? r'.sources key = some src)
    (hw : src'.widget = src.widget) (ht : Told src' r'.stage r''.stage) :
    Told src' r.stage r''.stage := by
  refine ⟨fun hf => ht.free (hs.busy ▸ hf), fun hm => ?_⟩
  rw [ht.missed (hs.busy ▸ hm), hw]
  obtain ⟨old, -, hwo, ⟨rfl, hl⟩ | ho⟩ := hs.source key src hg
  · exact hl
  · exact ho.missed (hw ▸ hm)

theorem Supplies.refl (r : Renderer W) : Supplies r r :=
  ⟨rfl, rfl, fun _ src hs => ⟨src, hs, rfl, .inl ⟨rfl, rfl⟩⟩⟩

theorem Supplies.trans (h : Supplies r r') (h' : Supplies r' r'') : Supplies r r'' := by
  refine ⟨h'.busy.trans h.busy, h'.count.trans h.count, fun key src'' hs'' => ?_⟩
  obtain ⟨src', hs', hw', hc'⟩ := h'.source key src'' hs''
  obtain ⟨src, hs, hw, hc⟩ := h.source key src' hs'
  refine ⟨src, hs, hw'.trans hw, ?_⟩
  rcases hc with ⟨rfl, hl⟩ | ht
  · rcases hc' with ⟨rfl, hl'⟩ | ht'
    · exact .inl ⟨rfl, hl'.trans hl⟩
    · exact .inr (h.told hs' hw' ht')
  · exact .inr (Told.supplies ht h.busy h' hs' hs'')

/-- A source that has changed was told. -/
theorem Supplies.told_of_ne (h : Supplies r r') (hs : KeyMap.get? r.sources key = some src)
    (hs' : KeyMap.get? r'.sources key = some src') (hn : src' ≠ src) :
    Told src' r.stage r'.stage := by
  obtain ⟨old, ho, -, ⟨he, -⟩ | ht⟩ := h.source key src' hs'
  · cases hs.symm.trans ho
    exact absurd he hn
  · exact ht

/-- What showed the state of a source that stays shows it. -/
theorem Supplies.shown (h : Supplies r r') (hs : KeyMap.get? r.sources key = some src)
    (hs' : KeyMap.get? r'.sources key = some src)
    (hg : lastGiven? src.widget r.stage.journal = some src.state.payload) :
    lastGiven? src.widget r'.stage.journal = some src.state.payload := by
  obtain ⟨old, ho, -, ⟨-, hl⟩ | ht⟩ := h.source key src hs'
  · cases hs.symm.trans ho
    exact hl.trans hg
  · by_cases hb : src.widget ∈ r.stage.busy
    · exact (ht.missed hb).trans hg
    · exact ht.free hb

theorem Roomed.supplies (h : Roomed r) (hs : Supplies r r') : Roomed r' where
  placed := by
    intro key src' hs'
    obtain ⟨src, ho, hw, -⟩ := hs.source key src' hs'
    exact (h.placed key src ho).of_count hw hs.count
  apart := by
    intro key other src src' hg hg' he
    obtain ⟨old, ho, hw, -⟩ := hs.source key src hg
    obtain ⟨old', ho', hw', -⟩ := hs.source other src' hg'
    exact h.apart key other old old' ho ho' (hw.symm.trans (he.trans hw'))

theorem supplies_stage {stage : Stage W} (hl : ∀ h, Leaves h r.stage stage) :
    Supplies r { r with stage } := by
  refine ⟨(hl ⟨0⟩).busy, (hl ⟨0⟩).count, fun key src hs => ?_⟩
  exact ⟨src, hs, rfl, .inl ⟨rfl, (hl _).given⟩⟩

/-- Work on a source leaves the instances of all others alone. -/
theorem Roomed.putSource (h : Roomed r) {stage : Stage W}
    (hs : KeyMap.get? r.sources key = some src) (hw : src'.widget = src.widget)
    (hd : Serves src' r.stage stage) : Supplies r (r.putSource key src' stage) := by
  refine ⟨hd.busy, hd.count, fun other o ho => ?_⟩
  rw [get?_putSource] at ho
  split at ho
  · next hk =>
    subst hk
    cases ho
    exact ⟨src, hs, hw, .inr hd.told⟩
  · next hk =>
    refine ⟨o, ho, rfl, .inl ⟨rfl, hd.others o.widget fun he => hk ?_⟩⟩
    exact h.apart key other src o hs ho (hw.symm.trans he.symm)

theorem supplies_putSource_self {stage : Stage W}
    (hs : KeyMap.get? r.sources key = some src) (hl : ∀ h, Leaves h r.stage stage) :
    Supplies r (r.putSource key src stage) := by
  refine ⟨(hl src.widget).busy, (hl src.widget).count, fun other o ho => ?_⟩
  rw [get?_putSource] at ho
  split at ho
  · next hk =>
    subst hk
    cases ho
    exact ⟨src, hs, rfl, .inl ⟨rfl, (hl _).given⟩⟩
  · exact ⟨o, ho, rfl, .inl ⟨rfl, (hl _).given⟩⟩

end

variable {r r' : Renderer W}

-- ---------------------------------------------------------------------------
-- Moves
-- ---------------------------------------------------------------------------

theorem Move.supplies (hr : Roomed r) (h : Move P r r') : Supplies r r' := by
  cases h with
  | warns w => exact supplies_stage ((Talk.warn w).leaves r.stage)
  | dispatches event => exact supplies_stage ((dispatch_talk ..).leaves r.stage)
  | decides id name payload => exact supplies_stage ((actions_talk ..).leaves r.stage)
  | @does key src deed hs =>
    rcases deed.serves r.context (hr.placed key src hs) with ⟨he, hl⟩ | hd
    · rw [done, he]
      exact supplies_putSource_self hs hl
    · have hw : (deed.act r.context src r.stage).1.widget = src.widget :=
        (congrArg Source.widget (Deed.origin_act deed r.context src r.stage) :)
      exact hr.putSource hs hw hd

theorem Moves.supplies (hr : Roomed r) (h : Moves P r r') : Supplies r r' := by
  induction h with
  | refl => exact .refl r
  | tail _ hm ih => exact ih.trans (hm.supplies (hr.supplies ih))

theorem resetFollowers_supplies (hr : Roomed r) (key : NodeKey) :
    Supplies r (resetFollowers key r).2 :=
  Moves.supplies (P := fun _ _ => True) hr (resetFollowers_moves (fun _ => trivial) key r)

theorem trigger_supplies (hr : Roomed r) (t : Trigger) : Supplies r (r.after t.operation) :=
  (trigger_moves t r).supplies hr

theorem applyAll_supplies (hr : Roomed r) (cs : List Completion) :
    Supplies r (applyAll cs r).2 :=
  Moves.supplies (P := fun _ _ => True) hr (applyAll_moves (fun _ _ => trivial) r)

-- ---------------------------------------------------------------------------
-- What is told
-- ---------------------------------------------------------------------------

theorem refreshKey_told (hr : Roomed r) (hs : KeyMap.get? r.sources key = some src)
    (hy : (refreshKey key r).1 = true)
    (hs' : KeyMap.get? (refreshKey key r).2.sources key = some src') :
    Told src' r.stage (refreshKey key r).2.stage := by
  rw [refreshKey_some hs] at hy hs' ⊢
  rcases Source.refresh_serves (hr.placed key src hs) r.context with ⟨he, hd⟩ | ⟨he, -⟩
  · rw [if_pos he] at hs' ⊢
    have hw : (src.refresh r.context r.stage).1.2.widget = src.widget :=
      (congrArg Source.widget (Source.origin_refreshed src r.context r.stage) :)
    have hsup := hr.putSource hs hw hd
    refine Told.supplies hd.told hd.busy (resetFollowers_supplies (hr.supplies hsup) key) ?_ hs'
    exact (get?_putSource ..).trans (if_pos rfl)
  · rw [he] at hy
    cases hy

/-- Whom a trigger reaches is told. -/
theorem Shows.trigger_told (h : Shows xs r) (hr : Roomed r) {t : Trigger}
    (ht : Targeted r t key ∨ Downstream r t key)
    (hs' : KeyMap.get? (r.after t.operation).sources key = some src') :
    Told src' r.stage (r.after t.operation).stage := by
  have hsup := trigger_supplies hr t
  have hnext {src : Source} {generation : Nat} (he : generation = src.generation + 1) :
      generation ≠ src.generation := he ▸ Nat.succ_ne_self _
  rcases ht with ht | hd
  · obtain ⟨src, f, hs, hf, he⟩ := (h.cascaded t).direct key ht
    cases hs'.symm.trans he
    have hact {a : Action} (hfa : f = a.effect) : Told (f src) r.stage (r.after t.operation).stage := by
      refine hsup.told_of_ne hs hs' fun hsame => ?_
      rw [hfa] at hsame
      cases a <;> exact hnext rfl (congrArg Source.generation hsame)
    cases hf with
    | fire | fireKey => exact hact rfl
    | refreshKey hy => exact refreshKey_told hr hs hy hs'
    | @refresh _ id hk hy =>
      have he : r.after (.refresh id) = (Renderer.refreshKey key r).2 :=
        congrArg Prod.snd (refresh_found hk)
      change Told _ _ (r.after (.refresh id)).stage
      rw [he]
      exact refreshKey_told hr hs hy (he ▸ hs')
  · obtain ⟨src, hs, he⟩ := (h.cascaded t).below key hd
    cases hs'.symm.trans he
    exact hsup.told_of_ne hs hs' fun hsame => hnext rfl (congrArg Source.generation hsame)

end Renderer

end LiveLayout.Live
