import LiveLayout.Proofs.Ageing
import LiveLayout.Proofs.Saying

/-!
# Serving widgets

What a widget was last given is told by the journal. Whatever a source is told
to do, its widget is served: it is given what belongs to the state that the
source comes to, unless it is busy, in which case it keeps what it has. No other
widget is given anything.
-/

namespace LiveLayout.Live

def Effect.given? (h : Handle) : Effect → Option Payload
  | .pushed target payload => if target = h then some payload else none
  | _ => none

/-- The last payload that an instance was given. -/
def lastGiven? (h : Handle) (journal : List Effect) : Option Payload :=
  journal.reverse.findSome? (Effect.given? h)

theorem lastGiven?_append (h : Handle) (first second : List Effect) :
    lastGiven? h (first ++ second) = (lastGiven? h second).or (lastGiven? h first) := by
  simp [lastGiven?, List.reverse_append, List.findSome?_append]

theorem lastGiven?_of_none {said : List Effect} (hs : ∀ e ∈ said, e.given? h = none) :
    lastGiven? h said = none := by
  simpa [lastGiven?] using hs

section
variable {W : Type}

/-- The instance keeps what it was last given. -/
structure Leaves (h : Handle) (s s' : Stage W) : Prop where
  busy : s'.busy = s.busy
  count : s'.widgets.length = s.widgets.length
  given : lastGiven? h s'.journal = lastGiven? h s.journal

/-- The instance of a source is given what belongs to its state, unless it is
busy: then it keeps what it has. -/
structure Told (src : Source) (s s' : Stage W) : Prop where
  free : src.widget ∉ s.busy → lastGiven? src.widget s'.journal = some src.state.payload
  missed : src.widget ∈ s.busy → lastGiven? src.widget s'.journal = lastGiven? src.widget s.journal

/-- The instance of a source is told its state, and no other is told anything. -/
structure Serves (src : Source) (s s' : Stage W) : Prop where
  busy : s'.busy = s.busy
  count : s'.widgets.length = s.widgets.length
  told : Told src s s'
  others : ∀ h, h ≠ src.widget → lastGiven? h s'.journal = lastGiven? h s.journal

theorem Leaves.of_extends {s s' : Stage W} (he : Extends (fun e => e.given? h = none) s s')
    (hb : s'.busy = s.busy) (hc : s'.widgets.length = s.widgets.length) : Leaves h s s' := by
  obtain ⟨said, hj, hs⟩ := he
  refine ⟨hb, hc, ?_⟩
  rw [hj, lastGiven?_append, lastGiven?_of_none hs, Option.none_or]

namespace Serves

variable {src : Source} {s s' s'' : Stage W}

/-- Leaving everything alone before or after serving is serving. -/
theorem of_leaves (h : Serves src s' s'') (hl : ∀ h, Leaves h s s') : Serves src s s'' := by
  obtain ⟨hb, hc, hg⟩ := hl src.widget
  refine ⟨h.busy.trans hb, h.count.trans hc, ⟨?_, ?_⟩, ?_⟩
  · intro hf
    exact h.told.free (hb ▸ hf)
  · intro hm
    exact (h.told.missed (hb ▸ hm)).trans hg
  · intro other hn
    exact (h.others other hn).trans (hl other).given

theorem then_leaves (h : Serves src s s') (hl : ∀ h, Leaves h s' s'') : Serves src s s'' := by
  obtain ⟨hb, hc, hg⟩ := hl src.widget
  refine ⟨hb.trans h.busy, hc.trans h.count, ⟨?_, ?_⟩, ?_⟩
  · intro hf
    exact hg.trans (h.told.free hf)
  · intro hm
    exact hg.trans (h.told.missed hm)
  · intro other hn
    exact (hl other).given.trans (h.others other hn)

end Serves

end

variable {W : Type} [Widget W]

-- ---------------------------------------------------------------------------
-- Talk
-- ---------------------------------------------------------------------------

theorem Talk.busy {act : Act W α} (h : Talk act) (s : Stage W) : (act s).2.busy = s.busy := by
  induction h generalizing s with
  | pure => rfl
  | remark e he _ ih => exact ih _
  | call caller target method args _ ih =>
    rw [run_bind, ih, invoke_run]
    cases s.free? target <;> rfl

theorem Effect.given?_of_isRemark {e : Effect} (he : e.isRemark = true) (h : Handle) :
    e.given? h = none := by
  cases e <;> first | rfl | cases he

/-- Talk gives nothing to anybody. -/
theorem Talk.gives {act : Act W α} (ht : Talk act) (h : Handle) :
    Says (fun e => e.given? h = none) act := by
  induction ht with
  | pure a => exact .pure a
  | remark e he _ ih => exact .bind (.record (Effect.given?_of_isRemark he h)) fun _ => ih
  | call caller target method args _ ih => exact .bind (.invoke rfl) ih

theorem Talk.leaves {act : Act W α} (ht : Talk act) (s : Stage W) (h : Handle) :
    Leaves h s (act s).2 :=
  .of_extends (ht.gives h s) (ht.busy s) (ht.tends s).count

omit [Widget W] in
theorem submit_leaves (job : Job) (s : Stage W) (h : Handle) :
    Leaves h s (Act.submit job s).2 := by
  refine .of_extends ?_ rfl rfl
  exact Says.submit (P := fun e => e.given? h = none) (fun _ => rfl) s

-- ---------------------------------------------------------------------------
-- Sources
-- ---------------------------------------------------------------------------

namespace Source

variable {src : Source} {s : Stage W}

/-- The instance of a source is there. -/
def Placed (src : Source) (s : Stage W) : Prop := src.widget.index < s.widgets.length

omit [Widget W] in
theorem Placed.of_count {src' : Source} {s' : Stage W} (hp : src.Placed s)
    (hw : src'.widget = src.widget) (hc : s'.widgets.length = s.widgets.length) :
    src'.Placed s' := by
  unfold Placed
  rwa [hw, hc]

theorem setState_busy (hb : src.widget ∈ s.busy) (state : FetchState) :
    (src.setState state s).2 =
      { s with journal := s.journal ++ [.warned (.updateDropped src.component)] } := by
  have hf : s.free? src.widget = none := if_pos hb
  simp only [setState, Act.push, run_bind, run_get, hf]
  rfl

theorem setState_free (hp : src.Placed s) (hb : src.widget ∉ s.busy) (state : FetchState) :
    ∃ w, (src.setState state s).2 =
      Stage.setWidget { s with journal := s.journal ++ [.pushed src.widget state.payload] }
        src.widget w := by
  have hw : s.widget? src.widget = some s.widgets[src.widget.index] := List.getElem?_eq_getElem hp
  have hf : s.free? src.widget = some s.widgets[src.widget.index] := (if_neg hb).trans hw
  refine ⟨Widget.setData s.widgets[src.widget.index] state.payload, ?_⟩
  simp only [setState, Act.push, run_bind, run_get, hf]
  rfl

theorem setState_serves (src : Source) (hp : src.Placed s) (state : FetchState) :
    Serves { src with state } s (src.setState state s).2 := by
  by_cases hb : src.widget ∈ s.busy
  · have hj := setState_busy hb state
    have hg : ∀ h, lastGiven? h (src.setState state s).2.journal = lastGiven? h s.journal := by
      intro h
      rw [hj, lastGiven?_append]
      rfl
    exact ⟨by rw [hj], by rw [hj], ⟨fun hn => absurd hb hn, fun _ => hg _⟩, fun h _ => hg h⟩
  · obtain ⟨w, hj⟩ := setState_free hp hb state
    refine ⟨by rw [hj]; rfl, ?_, ⟨?_, fun hm => absurd hm hb⟩, ?_⟩
    · rw [hj]
      exact List.length_set
    · intro _
      rw [hj]
      simp [Stage.setWidget, lastGiven?, Effect.given?]
    · intro h hn
      rw [hj]
      simp [Stage.setWidget, lastGiven?, Effect.given?, Ne.symm hn]

theorem fetch_serves (hp : src.Placed s) (ctx : Context) (endpoint : String) :
    Serves (src.fetched endpoint) s (src.fetch ctx endpoint s).2 := by
  have hc := (compose_talk ctx (src.remote endpoint) endpoint).leaves s
  simp only [fetch, run_bind, run_pure]
  refine Serves.of_leaves (Serves.then_leaves ?_ (submit_leaves _ _)) hc
  refine setState_serves
    { src with generation := src.generation + 1, lastEndpoint := some endpoint } ?_ .loading
  exact hp.of_count rfl (hc src.widget).count

theorem reset_serves (hp : src.Placed s) : Serves src.cleared s (src.reset s).2 :=
  setState_serves { src with generation := src.generation + 1, lastEndpoint := none } hp .idle

theorem mount_serves (hp : src.Placed s) (ctx : Context) :
    Serves (src.mount ctx s).1 s (src.mount ctx s).2 := by
  by_cases hw : src.cascaded = true ∨ src.feed = none
  · rw [mount_waiting src ctx hw, setState_fst]
    exact setState_serves src hp .idle
  · obtain ⟨hc, hf⟩ := not_or.mp hw
    have hc : src.cascaded = false := by simpa using hc
    obtain ⟨feed, hf⟩ := Option.ne_none_iff_exists'.mp hf
    cases feed with
    | inline records =>
      have ho : src.ownRecords? = some records := by simp [ownRecords?, hc, hf]
      rw [mount_own src ctx ho, setState_fst]
      exact setState_serves src hp (.success records)
    | remote remote =>
      rw [mount_remote src ctx hc hf, run_map, fetch_fst]
      exact fetch_serves hp ctx remote.endpoint

/-- A refresh serves the widget if it has something to load, and leaves it alone
otherwise. -/
theorem refresh_serves (hp : src.Placed s) (ctx : Context) :
    (src.refresh ctx s).1.1 = true ∧ Serves (src.refresh ctx s).1.2 s (src.refresh ctx s).2 ∨
      (src.refresh ctx s).1 = (false, src) ∧ ∀ h, Leaves h s (src.refresh ctx s).2 := by
  cases hl : src.lastEndpoint with
  | some endpoint =>
    rw [refresh_again src ctx hl, run_map, fetch_fst]
    exact .inl ⟨rfl, fetch_serves hp ctx endpoint⟩
  | none =>
    cases hc : src.cascaded with
    | true =>
      rw [refresh_nothing src ctx hl hc, run_map]
      exact .inr ⟨rfl, (Talk.warn _).leaves s⟩
    | false =>
      rw [refresh_first src ctx hl hc, run_map]
      exact .inl ⟨rfl, mount_serves hp ctx⟩

/-- A completion of the latest request serves the widget, and any other leaves it
alone. -/
theorem apply_serves (hp : src.Placed s) (c : Completion) :
    (c.ticket = src.ticket ∧ Serves (src.received c) s (src.apply c s).2) ∨
      (c.ticket ≠ src.ticket ∧ (src.apply c s).2 = s) := by
  by_cases h : c.ticket = ⟨src.key, src.generation⟩
  · refine .inl ⟨h, ?_⟩
    have hr : src.received c = { src with state := .ofResult c.result } := if_pos h
    rw [hr]
    cases hc : c.result with
    | ok records =>
      simp only [apply, h, hc, if_true, run_bind, run_pure]
      exact setState_serves src hp (.success records)
    | error error =>
      simp only [apply, h, hc, if_true, run_bind, run_pure]
      have hl := (Talk.warn (W := W) (.fetchFailed src.component error)).leaves s
      refine Serves.of_leaves (setState_serves src ?_ (.failed error)) hl
      exact hp.of_count rfl (hl src.widget).count
  · exact .inr ⟨h, by simp [apply, h]⟩

end Source

end LiveLayout.Live
