import Mathlib
import LiveLayout.Proofs.Resuming
import LiveLayout.Rehearsal.Handler
import LiveLayout.Rehearsal.Widget

/-!
# A layout that is shown owes nothing to the past

Showing a layout on a renderer that was in use comes to the same as showing it
on a new one, numbers moved on. From then on the two go on alike, whatever is
done to them, and whenever the answers to what was asked before come in: nobody
waits for these any more.
-/

namespace LiveLayout.Live

open Layout (Node Component)

namespace Renderer

variable {W : Type} [Widget W] {p : Renderer W}

-- ---------------------------------------------------------------------------
-- Runs after a past
-- ---------------------------------------------------------------------------

/-- The second run asks for what the first one asks for, and in between come
answers to what was asked in the past. -/
inductive Interspersed (p : Renderer W) : List Operation → List Operation → Prop
  | nil : Interspersed p [] []
  | late (hn : number < p.stage.traffic.jobs.length) (response : Except FetchError Json)
      (hr : Interspersed p ops mixed) : Interspersed p ops (.complete number response :: mixed)
  | both (ha : Operation.Alike p.offset op op') (hr : Interspersed p ops mixed) :
      Interspersed p (op :: ops) (op' :: mixed)

omit [Widget W] in
/-- An answer to what was asked in the past waits, and changes nothing else. -/
theorem Resumes.completeLate {r t : Renderer W} (hp : Settled p) (h : Resumes p r t)
    (hn : number < p.stage.traffic.jobs.length) (response : Except FetchError Json) :
    Resumes p r (complete number response t).2 := by
  show Resumes p r { t with stage := (Act.complete number response t.stage).2 }
  rw [complete_run]
  cases hu : t.stage.traffic.complete? number response with
  | none => exact h
  | some u =>
    obtain ⟨job, hj, rfl⟩ := Traffic.complete?_eq_some hu
    obtain ⟨hj, -⟩ := Traffic.openJob?_eq_some.mp hj
    rw [h.stage.jobs, List.getElem?_append_left hn] at hj
    have hl := hp.given job (List.mem_of_getElem? hj)
    refine { h with stage := { h.stage with completed := fun other => ?_, queue := ?_ } }
    · have hne : number ≠ other + p.offset.jobs := by
        simp only [Renderer.offset]
        omega
      simp [h.stage.completed other, hne]
    · have hq := h.stage.queue.append (Mingled.late (c := job.complete response) hl .nil)
      rwa [List.append_nil] at hq

theorem Resumes.afterAll {r t : Renderer W} (hp : Settled p) (h : Resumes p r t)
    (hm : Interspersed p ops mixed) : Resumes p (r.afterAll ops) (t.afterAll mixed) := by
  induction hm generalizing r t with
  | nil => exact h
  | late hn response _ ih => exact ih (h.completeLate hp hn response)
  | both ha _ ih => exact ih ((perform_resuming ha).run _ _ h).2

-- ---------------------------------------------------------------------------
-- The start
-- ---------------------------------------------------------------------------

omit [Widget W] in
/-- What waits is for nodes that were given a key. -/
theorem Settled.queued (hp : Settled p) :
    ∀ c ∈ p.stage.traffic.queue, c.ticket.node.ordinal < p.nextKey := by
  intro c hc
  obtain ⟨q, hq, rfl⟩ := List.mem_map.mp (hp.sound.queued ▸ hc)
  obtain ⟨job, hj, ht⟩ := hp.sound.owed q (List.mem_of_mem_drop hq)
  exact ht ▸ hp.given job (List.mem_of_getElem? hj)

omit [Widget W] in
theorem mingled_nil (h : ∀ c ∈ cs, c.ticket.node.ordinal < p.nextKey) : Mingled p cs [] := by
  induction cs with
  | nil => exact .nil
  | cons c rest ih =>
    obtain ⟨hc, hr⟩ := List.forall_mem_cons.mp h
    exact .late hc (ih hr)

omit [Widget W] in
/-- A stage that was in use is an empty one with a past. -/
theorem Settled.later (hp : Settled p) (hb : ∀ h ∈ p.stage.busy, h.index < p.stage.widgets.length) :
    Stage.Later p .empty p.stage where
  widgets := by simp [Stage.empty]
  busy := by
    intro handle
    have hn : handle.moved p.offset ∉ p.stage.busy := by
      intro hm
      have hlt := hb _ hm
      simp only [Handle.moved, Renderer.offset] at hlt
      omega
    simp [Stage.empty, hn]
  jobs := by simp [Stage.empty, Traffic.empty]
  completed := by
    intro number
    have hn : ∀ c ∈ p.stage.traffic.completed, c.1 ≠ number + p.offset.jobs := by
      intro c hc he
      obtain ⟨job, hj, -⟩ := hp.sound.owed c hc
      have hlt := (List.getElem?_eq_some_iff.mp hj).1
      simp only [Renderer.offset] at he
      omega
    simpa [Stage.empty, Traffic.empty] using hn
  queue := mingled_nil hp.queued
  journal := by simp [Stage.empty]

omit [Widget W] in
/-- What a layout is mounted on has nothing of what was kept before. -/
theorem resumes_ground {library : Library W} {options : Options} {handlers handlers' : Handlers}
    (hp : Settled p) (hc : Carries (new library options) p)
    (hb : ∀ h ∈ p.stage.busy, h.index < p.stage.widgets.length)
    (hh : Handlers.Alike p.offset handlers handlers') (concerns : List Layout.Concern) :
    Resumes p (ground handlers concerns (new library options)) (ground handlers' concerns p) where
  library := hc.library
  options := hc.options
  handlers := hh
  directory := rfl
  bindings := rfl
  subscriptions := rfl
  sources := rfl
  mounted := rfl
  tree := rfl
  nextKey := (Nat.add_sub_cancel' hc.nextKey).symm
  stage := ((forM_warn_echoes concerns).run _ _ (hp.later hb)).2
  started := Nat.one_pos
  supplied := fun _ _ hs => (nomatch hs)

/-- Showing a layout on a renderer that was in use comes to the same as showing
it on a new one, numbers moved on, whatever is done then: all that is shown and
kept is the same, and so is what every further operation answers. Answers to
what was asked before may come in at any time. Handlers are the same if they do
not look at the numbers they are given, and only instances that are there can be
in the middle of something. -/
theorem render_forgets {library : Library W} {options : Options} {tree : Node}
    {handlers handlers' : Handlers} (hp : Reachable library options p)
    (hb : ∀ h ∈ p.stage.busy, h.index < p.stage.widgets.length)
    (hc : Layout.check tree = .ok concerns) (hh : Handlers.Alike p.offset handlers handlers') :
    let fresh := (new library options).after (.render tree handlers)
    let again := p.after (.render tree handlers')
    (perform (.render tree handlers') p).1 =
        (perform (.render tree handlers) (new library options)).1.moved p.offset ∧
      ∀ ops mixed, Interspersed p ops mixed →
        Resumes p (fresh.afterAll ops) (again.afterAll mixed) ∧
        ∀ op op', Operation.Alike p.offset op op' →
          (perform op' (again.afterAll mixed)).1 =
            (perform op (fresh.afterAll ops)).1.moved p.offset := by
  intro fresh again
  obtain ⟨⟨xs, hx⟩, hs⟩ := hp.sane
  have hn := shows_new library options
  have hg := resumes_ground hs hp.carries hb hh concerns
  obtain ⟨h1, h2⟩ := (mountNode_resuming tree).run _ _ hg
  have hr : Resumes p fresh again := by
    show Resumes p (render tree handlers (new library options)).2 (render tree handlers' p).2
    rw [hn.render_accepted handlers hc, hx.render_accepted handlers' hc, h1]
    exact h2.presented _
  refine ⟨?_, fun ops mixed hm => ?_⟩
  · show Reply.ofRender (render tree handlers' p).1 =
      (Reply.ofRender (render tree handlers (new library options)).1).moved p.offset
    rw [hn.render_shown handlers hc, hx.render_shown handlers' hc, h1]
    rfl
  · have ha := hr.afterAll hs hm
    exact ⟨ha, fun op op' hop => ((perform_resuming hop).run _ _ ha).1⟩

-- ---------------------------------------------------------------------------
-- A table that is shown again
-- ---------------------------------------------------------------------------

open Rehearsal (StandIn calling)

theorem alike_calling (o : Offset) (arg method : String) (args : List Json) :
    Handler.Alike o (calling arg method args) (calling arg method args) := by
  intro event resolved
  unfold calling
  rw [Fields.get?_mapValues]
  cases Fields.get? resolved arg with
  | none => rfl
  | some v => cases v <;> rfl

/-- A table that fetches its rows, and is counted when one is selected. -/
def countedTable : Node :=
  .component { Component.plain "Table" with
    id := some "rows", feed := some (.remote (.plain "/rows")),
    events := [("select", ⟨"count", [("table", .expression "$rows")]⟩)] }

def counting : Handlers := [("count", calling "table" "count" [])]

theorem alike_counting (o : Offset) : Handlers.Alike o counting counting := by
  intro name
  unfold counting
  simp only [Fields.get?]
  split
  · exact .some (alike_calling o "table" "count" [])
  · exact .none

def tables : Library StandIn := [("Table", StandIn.make "Table")]

/-- The table was shown twice before: one answer waits, one is still to come. -/
def usedBefore : Renderer StandIn :=
  (new tables .default).afterAll
    [.render countedTable [], .render countedTable [], .complete 0 (.ok (.array []))]

theorem render_forgets_usedBefore :
    Layout.check countedTable = .ok [] ∧
      Resumes usedBefore
        (((new tables .default).after (.render countedTable counting)).afterAll
          [.fire "rows" "select" .null, .complete 0 (.ok (.array [])), .pump])
        ((usedBefore.after (.render countedTable counting)).afterAll
          [.fire "rows" "select" .null, .complete 1 (.ok (.array [.null])),
            .complete 2 (.ok (.array [])), .pump]) := by
  have hc : Layout.check countedTable = .ok [] := by cbv
  have hj : usedBefore.offset.jobs = 2 := by cbv
  have hb : usedBefore.stage.busy = [] := by cbv
  have hp : Reachable tables .default usedBefore := reachable_afterAll .new _
  have hcomplete : Operation.Alike usedBefore.offset (.complete 0 (.ok (.array [])))
      (.complete 2 (.ok (.array []))) := by
    have ha : Operation.Alike usedBefore.offset (.complete 0 (.ok (.array [])))
        (Operation.moved usedBefore.offset (.complete 0 (.ok (.array [])))) := .plain (by simp)
    rwa [Operation.moved, hj] at ha
  have hlate : 1 < usedBefore.offset.jobs := by simp [hj]
  have hm : Interspersed usedBefore
      [.fire "rows" "select" .null, .complete 0 (.ok (.array [])), .pump]
      [.fire "rows" "select" .null, .complete 1 (.ok (.array [.null])),
        .complete 2 (.ok (.array [])), .pump] :=
    .both (.plain (by simp)) (.late hlate _ (.both hcomplete (.both (.plain (by simp)) .nil)))
  exact ⟨hc, ((render_forgets hp (by simp [hb]) hc (alike_counting _)).2 _ _ hm).1⟩

end Renderer

end LiveLayout.Live
