import Mathlib.Data.List.Induction
import LiveLayout.Proofs.Inquiries
import LiveLayout.Proofs.Opening
import LiveLayout.Proofs.Moves
import LiveLayout.Proofs.Passing

/-!
# Permission

Whatever a run does, a method is called for an expression only right after its
text was evaluated, on the instance that is entered under its target at that
moment, and if the method is one of the capabilities that the instance had when
it was entered. Events, requests and selections are evaluated in the directory
of the renderer, and the first requests of a layout in the one that it has so
far, while its components are mounted one after the other.
-/

namespace LiveLayout.Live

open Layout (Component)

-- ---------------------------------------------------------------------------
-- Calls in time
-- ---------------------------------------------------------------------------

/-- Calls for an expression that happen in their time: right after an evaluation
that permits them, in a directory that is in force in this part of the journal,
from `start` to `stop`. -/
inductive InTime (M : List Effect → List Effect → Directory → Prop) :
    List Effect → Handle → String → List Json → Prop
  | mk (hm : M start stop d) (hs : start <+: earlier)
      (he : earlier ++ [.evaluated d source] ++ [.invoked .expression h method args] <+: stop)
      (hp : Permits d source h method args) :
      InTime M (earlier ++ [.evaluated d source]) h method args

/-- The journal goes on, and what is called in its new part is called in time. -/
structure Timely {W : Type} (M : List Effect → List Effect → Directory → Prop)
    (s s' : Stage W) : Prop where
  goesOn : s.journal <+: s'.journal
  called : ∀ before h method args, s.journal <+: before →
    before ++ [.invoked .expression h method args] <+: s'.journal → InTime M before h method args

section
variable {W : Type} {M N : List Effect → List Effect → Directory → Prop} {s s' s'' : Stage W}

theorem InTime.mono (h : InTime M before target method args)
    (hmn : ∀ start stop d, M start stop d → N start stop d) :
    InTime N before target method args := by
  cases h with
  | mk hm hs he hp => exact .mk (hmn _ _ _ hm) hs he hp

theorem Timely.mono (h : Timely M s s') (hmn : ∀ start stop d, M start stop d → N start stop d) :
    Timely N s s' where
  goesOn := h.goesOn
  called := fun before target method args hb hc => (h.called before target method args hb hc).mono hmn

/-- A call stands in one of two parts that follow each other, never across. -/
theorem Timely.trans (h : Timely M s s') (h' : Timely M s' s'') : Timely M s s'' where
  goesOn := h.goesOn.trans h'.goesOn
  called := by
    intro before target method args hb hc
    rcases List.prefix_or_prefix_of_prefix hc h'.goesOn with hin | hout
    · exact h.called before target method args hb hin
    · rcases List.prefix_concat_iff.mp hout with he | hlater
      · exact h.called before target method args hb (he ▸ List.prefix_rfl)
      · exact h'.called before target method args hlater hc

theorem Continues.timely {D : Directory → Prop} (h : Continues D s s')
    (hd : ∀ d, D d → M s.journal s'.journal d) : Timely M s s' := by
  obtain ⟨said, hj, ho⟩ := h
  refine { goesOn := ⟨said, hj.symm⟩, called := ?_ }
  rintro _ target method args ⟨mid, rfl⟩ hc
  have hsaid : mid ++ [.invoked .expression target method args] <+: said := by
    rwa [hj, List.append_assoc, List.prefix_append_right_inj] at hc
  obtain ⟨after, rfl⟩ := hsaid
  rw [List.append_assoc] at ho
  obtain ⟨earlier, d, source, hdd, rfl, hp⟩ := ho.permitted rfl
  rw [← List.append_assoc] at hc ⊢
  exact .mk (hd d hdd) (List.prefix_append ..) hc hp

theorem timely_of_extends (h : Extends (fun e => e.isInquiry = false) s s') : Timely M s s' :=
  (Continues.of_extends (D := fun _ => False) h).timely fun _ => False.elim

theorem timely_of_eq (h : s'.journal = s.journal) : Timely M s s' :=
  timely_of_extends (.of_eq h)

end

variable {W : Type} [Widget W]

-- ---------------------------------------------------------------------------
-- Moves and openings
-- ---------------------------------------------------------------------------

theorem Deed.inquires (deed : Deed) (ctx : Context) (src : Source) :
    Inquires ctx.directory (deed.act ctx src : Act W Source) := by
  have hsnd {α : Type} {act : Act W (α × Source)} (h : Inquires ctx.directory act) :
      Inquires ctx.directory (Prod.snd <$> act) := h
  cases deed with
  | fetch endpoint => exact hsnd (src.fetch_inquires ctx endpoint)
  | reset => exact Source.setState_inquires _ _ _
  | refresh => exact hsnd (src.refresh_inquires ctx)
  | take c => exact hsnd (src.apply_inquires _ c)

namespace Renderer

variable {r r' : Renderer W}

theorem Move.continues (h : Move P r r') : Continues (· = r.directory) r.stage r'.stage := by
  cases h with
  | warns w => exact Inquires.warn w _
  | dispatches event => exact dispatch_inquires _ _ _ _ _
  | decides id name payload =>
    exact (actions_asks (T := fun _ => True) _ _ _ _ fun _ _ => trivial).inquires _
  | does => exact Deed.inquires _ r.context _ _

theorem Moves.continues (h : Moves P r r') : Continues (· = r.directory) r.stage r'.stage := by
  induction h with
  | refl => exact .refl _
  | @tail b c hb hm ih =>
    have hd : b.directory = r.directory := (Moves.sameLayout hb).directory_eq
    exact ih.trans (hd ▸ hm.continues)

theorem Opening.continues (h : Opening r r') :
    Continues (· = r'.directory) r.stage r'.stage := by
  cases h with
  | warns w => exact Inquires.warn w _
  | plain => exact .refl _
  | @loading c make => exact Source.mount_inquires (r.introduced c make).newSource _ _

-- ---------------------------------------------------------------------------
-- Renderers in force
-- ---------------------------------------------------------------------------

/-- The renderer in which an operation evaluates, from one point of the journal
to another. As long as the layout stays it is the renderer as it was before. While
a layout is shown it is, for each component, the one that has just this component
and those before it. -/
inductive InForce (r : Renderer W) : Operation → List Effect → List Effect → Renderer W → Prop
  | staying (ho : op.isStaying = true) :
      InForce r op r.stage.journal (r.after op).stage.journal r
  | showing {tree : Layout.Node} {handlers : Handlers} (hc : Layout.check tree = .ok concerns)
      (hf : Openings (ground handlers concerns r) b) (ho : Opening b b') (hl : Openings b' c)
      (ha : r.after (.render tree handlers) = presented scene c) :
      InForce r (.render tree handlers) b.stage.journal b'.stage.journal b'

/-- The directory that an operation looks instances up in, from one point of the
journal to another. -/
def Consults (r : Renderer W) (op : Operation) (start stop : List Effect) (d : Directory) : Prop :=
  ∃ b, InForce r op start stop b ∧ d = b.directory

theorem Openings.timely (h : Openings r r') :
    Timely (fun start stop d => ∃ b b', Openings r b ∧ Opening b b' ∧ Openings b' r' ∧
      start = b.stage.journal ∧ stop = b'.stage.journal ∧ d = b'.directory) r.stage r'.stage := by
  induction h with
  | refl => exact timely_of_eq rfl
  | @tail b c hb ho ih =>
    refine (ih.mono ?_).trans (ho.continues.timely ?_)
    · rintro start stop d ⟨a, a', hf, hm, hl, he⟩
      exact ⟨a, a', hf, hm, hl.tail ho, he⟩
    · rintro d rfl
      exact ⟨b, c, hb, ho, .refl, rfl, rfl, rfl⟩

/-- What an operation calls for expressions it calls in time. -/
theorem Shows.timely (h : Shows xs r) (op : Operation) :
    Timely (Consults r op) r.stage (r.after op).stage := by
  have hstay (hs : op.isStaying = true)
      (hc : Continues (· = r.directory) r.stage (r.after op).stage) :
      Timely (Consults r op) r.stage (r.after op).stage :=
    hc.timely fun d hd => ⟨r, .staying hs, hd⟩
  cases op with
  | occupy handles => exact timely_of_eq rfl
  | fire id event payload => exact hstay rfl (trigger_moves (.fire id event payload) r).continues
  | fireKey key event payload =>
    exact hstay rfl (trigger_moves (.fireKey key event payload) r).continues
  | refresh id => exact hstay rfl (trigger_moves (.refresh id) r).continues
  | refreshKey key => exact hstay rfl (trigger_moves (.refreshKey key) r).continues
  | complete number response =>
    refine timely_of_eq ?_
    show (Act.complete number response r.stage).2.journal = _
    rw [complete_run]
    cases r.stage.traffic.complete? number response <;> rfl
  | pump =>
    have hm : Moves (fun _ _ => True) (drained r) (r.after .pump) :=
      applyAll_moves (fun _ _ => trivial) (drained r)
    exact hstay rfl hm.continues
  | teardown =>
    refine timely_of_eq ?_
    show (teardown r).2.stage.journal = _
    rw [h.teardown_run]
    rfl
  | unmountKey key =>
    refine timely_of_eq ?_
    show (Renderer.unmountKey key r).2.stage.journal = _
    rw [unmountKey_stage]
  | unmount id =>
    refine timely_of_eq ?_
    show (Renderer.unmount id r).2.stage.journal = _
    cases hk : Directory.keyOf? r.directory id with
    | none =>
      simp only [Renderer.unmount, run_bind, run_get, hk]
      rfl
    | some key => rw [unmount_found hk, unmountKey_stage]
  | render tree handlers =>
    cases hc : Layout.check tree with
    | error rejection =>
      have he : r.after (.render tree handlers) = r :=
        congrArg Prod.snd (render_rejected handlers hc)
      exact timely_of_eq (by rw [he])
    | ok concerns =>
      obtain ⟨r', scene, ho, ha⟩ := h.render_openings handlers hc
      have hground := toldConcerns_reports (W := W) (P := fun e => e.isInquiry = false)
        (fun _ => rfl) concerns r.stage
      have hopen : Timely (Consults r (.render tree handlers))
          (ground handlers concerns r).stage r'.stage := by
        refine ho.timely.mono ?_
        rintro start stop d ⟨b, b', hf, hm, hl, rfl, rfl, hd⟩
        exact ⟨b', .showing hc hf hm hl ha, hd⟩
      rw [ha]
      exact ((timely_of_extends hground).trans hopen).trans
        (timely_of_extends (Says.record (P := fun e => e.isInquiry = false) rfl r'.stage))

-- ---------------------------------------------------------------------------
-- What is entered
-- ---------------------------------------------------------------------------

/-- The entry of an instance that was made for a component with this id, with
the capabilities that it had then. -/
def Registered (library : Library W) (s : Stage W) (id : String) (entry : Entry) : Prop :=
  ∃ (c : Component) (make : Fields Json → W) (w : W), c.id = some id ∧
    Fields.get? library c.name = some make ∧
    entry.capabilities = Widget.capabilities (make c.propsJson) ∧
    s.widget? entry.handle = some w ∧ Becomes (make c.propsJson) w

theorem Registered.ages {library : Library W} {s s' : Stage W} {id : String}
    (h : Registered library s id entry) (ha : s.Ages n s') : Registered library s' id entry := by
  obtain ⟨c, make, w, hi, hm, hc, hw, hb⟩ := h
  obtain ⟨w', hw', hb'⟩ := ha.becomes _ _ hw
  exact ⟨c, make, w', hi, hm, hc, hw', hb.trans hb'⟩

structure Rooted (library : Library W) (r : Renderer W) : Prop where
  same : r.library = library
  entries : ∀ p ∈ r.directory, Registered library r.stage p.1 p.2

variable {library : Library W}

theorem rooted_new (library : Library W) (options : Options) : Rooted library (new library options) where
  same := rfl
  entries := fun _ hp => (nomatch hp)

/-- What is entered stays rooted as time goes on, and when entries are taken out. -/
theorem Rooted.ages (h : Rooted library r) (hl : r'.library = r.library)
    (hd : ∀ p ∈ r'.directory, p ∈ r.directory) (ha : r.stage.Ages n r'.stage) :
    Rooted library r' where
  same := hl.trans h.same
  entries := fun p hp => (h.entries p (hd p hp)).ages ha

/-- A new component is entered with what its instance can do. -/
theorem Rooted.withExhibit (h : Rooted library r) {make : Fields Json → W}
    (hm : Fields.get? r.library c.name = some make) {sources : KeyMap Source} {stage : Stage W}
    (ha : (r.stage.withWidget (make c.propsJson)).Ages 0 stage) :
    Rooted library (withExhibit (r.introduced c make) sources stage r) where
  same := h.same
  entries := fun p hp => by
    rcases List.mem_append.mp hp with hp | hp
    · exact ((h.entries p hp).ages (withWidget_ages ..)).ages ha
    · obtain ⟨id, hi, rfl⟩ := Option.map_eq_some_iff.mp (Option.mem_toList.mp hp)
      have hw : (r.stage.withWidget (make c.propsJson)).widget? ⟨r.stage.widgets.length⟩ =
          some (make c.propsJson) := by simp [Stage.widget?, Stage.withWidget]
      obtain ⟨w, hw', hb⟩ := ha.becomes _ _ hw
      exact ⟨c, make, w, hi, h.same ▸ hm, rfl, hw', hb⟩

theorem Opening.rooted (ho : Opening r r') (h : Rooted library r) : Rooted library r' := by
  cases ho with
  | warns w => exact h.ages rfl (fun _ hp => hp) ((Talk.warn w).tends r.stage)
  | plain hm hs => exact h.withExhibit hm (.refl _)
  | loading hm hs => exact h.withExhibit hm (Source.mount_tends _ _ _)

theorem Openings.rooted (ho : Openings r r') (h : Rooted library r) : Rooted library r' := by
  induction ho with
  | refl => exact h
  | tail _ ho ih => exact ho.rooted ih

theorem Rooted.ground (h : Rooted library r) (handlers : Handlers)
    (concerns : List Layout.Concern) : Rooted library (ground handlers concerns r) :=
  h.ages rfl (fun _ hp => (nomatch hp)) ((toldConcerns_talk concerns).tends r.stage)

theorem Rooted.unmountKey (h : Rooted library r) (key : NodeKey) :
    Rooted library (unmountKey key r).2 := by
  rw [unmountKey_run]
  split
  · exact h
  next m _ =>
    refine h.ages rfl (fun p hp => ?_) (.refl _)
    cases hi : m.id with
    | none => simpa [forget, hi] using hp
    | some id =>
      have hf : p ∈ Fields.erase r.directory id := by simpa [forget, hi] using hp
      exact (List.mem_filter.mp hf).1

theorem Rooted.after (hr : Rooted library r) (h : Shows xs r) (op : Operation) :
    Rooted library (r.after op) := by
  obtain ⟨ys, hp, -⟩ := h.passes op
  generalize ha : r.after op = r' at hp
  cases hp with
  | stays _ hg =>
    obtain ⟨_, _, rfl⟩ := hg.layout
    exact hr.ages rfl (fun _ hp => hp) hg.ages
  | takes => exact hr.unmountKey _
  | misses | rejects => exact hr
  | clears => exact hr.ages rfl (fun _ hp => (nomatch hp)) (.refl _)
  | @shows concerns _ _ tree handlers hc =>
    obtain ⟨r'', scene, ho, hs⟩ := h.render_openings handlers hc
    rw [← ha, hs]
    exact (Openings.rooted ho (hr.ground handlers concerns)).ages rfl (fun _ hp => hp) (.of_eq rfl)

theorem InForce.rooted (hi : InForce r op start stop b) (h : Rooted library r) : Rooted library b := by
  cases hi with
  | staying => exact h
  | showing hc hf ho hl ha => exact ho.rooted (hf.rooted (h.ground _ _))

-- ---------------------------------------------------------------------------
-- Runs
-- ---------------------------------------------------------------------------

/-- The renderer in which one of the operations of a run evaluates, and from
where to where in the journal. -/
def Moment (r : Renderer W) (ops : List Operation) (start stop : List Effect)
    (b : Renderer W) : Prop :=
  ∃ first op last, ops = first ++ op :: last ∧ InForce (r.afterAll first) op start stop b

theorem Moment.concat (h : Moment r ops start stop b) (op : Operation) :
    Moment r (ops ++ [op]) start stop b := by
  obtain ⟨first, op', last, rfl, hi⟩ := h
  exact ⟨first, op', last ++ [op], by simp, hi⟩

theorem rooted_afterAll (library : Library W) (options : Options) (ops : List Operation) :
    Rooted library ((new library options).afterAll ops) := by
  induction ops using List.reverseRecOn with
  | nil => exact rooted_new library options
  | append_singleton ops op ih =>
    obtain ⟨⟨xs, h⟩, -⟩ := (sane_new library options).afterAll ops
    rw [afterAll_concat]
    exact ih.after h op

theorem Moment.rooted {options : Options} (h : Moment (new library options) ops start stop b) :
    Rooted library b := by
  obtain ⟨first, op, last, -, hi⟩ := h
  exact hi.rooted (rooted_afterAll library options first)

theorem timely_afterAll (library : Library W) (options : Options) (ops : List Operation) :
    Timely (fun start stop d => ∃ b, Moment (new library options) ops start stop b ∧
        d = b.directory)
      (new library options).stage ((new library options).afterAll ops).stage := by
  induction ops using List.reverseRecOn with
  | nil => exact timely_of_eq rfl
  | append_singleton ops op ih =>
    obtain ⟨⟨xs, h⟩, -⟩ := (sane_new library options).afterAll ops
    rw [afterAll_concat]
    refine (ih.mono ?_).trans ((h.timely op).mono ?_)
    · rintro start stop d ⟨b, hm, hd⟩
      exact ⟨b, hm.concat op, hd⟩
    · rintro start stop d ⟨b, hi, hd⟩
      exact ⟨b, ⟨ops, op, [], rfl, hi⟩, hd⟩

/-- In any run each call for an expression comes right after the evaluation of
its text, with the method and the arguments that are written there, on the
instance that is entered under the target at that moment, in the part of the
journal of the operation that evaluates, and the method is one of those that the
instance could do when it was entered. An evaluation calls once at most. One that
is refused is undefined and does nothing but warn, and none is undefined
otherwise unless its call failed. -/
theorem permitted_afterAll (library : Library W) (options : Options) (ops : List Operation) :
    (∀ before target method args after,
      ((new library options).afterAll ops).stage.journal =
        before ++ .invoked .expression target method args :: after →
      ∃ earlier start stop b source e entry, before = earlier ++ [.evaluated b.directory source] ∧
        Moment (new library options) ops start stop b ∧ start <+: earlier ∧
        before ++ [.invoked .expression target method args] <+: stop ∧
        Expression.parse source = .ok e ∧ e.call = some ⟨method, args⟩ ∧
        Fields.get? b.directory e.target = some entry ∧ entry.handle = target ∧
        method ∈ entry.capabilities.methods ∧ Registered library b.stage e.target entry) ∧
    (∀ d source (s : Stage W), ∃ said,
      (evaluate d source s).2.journal = s.journal ++ said ∧ Evaluation d source said) ∧
    (∀ d source (s : Stage W), Refused d source s →
      ∃ w, evaluate d source s = (.undefined, s.noting [.evaluated d source, .warned w])) ∧
    ∀ d source (s : Stage W), (evaluate d source s).1 = .undefined →
      Refused d source s ∨ ∃ h method args widget error, Permits d source h method args ∧
        s.free? h = some widget ∧ (Widget.invoke widget method args).1 = .error error := by
  refine ⟨fun before target method args after hj => ?_, fun d source s => ?_,
    fun d source s => (evaluate_verdict d source s).of_refused, fun d source s hu => ?_⟩
  · have hc : before ++ [.invoked .expression target method args] <+:
        ((new library options).afterAll ops).stage.journal := ⟨after, by simp [hj]⟩
    cases (timely_afterAll library options ops).called before target method args
        List.nil_prefix hc with
    | mk hm hs he hp =>
      obtain ⟨b, hm, rfl⟩ := hm
      cases hp with
      | @mk e entry call hp hg hcall ha =>
        have hr := hm.rooted.entries (e.target, entry) (Fields.mem_of_get? hg)
        exact ⟨_, _, _, b, _, e, entry, rfl, hm, hs, he, hp, hcall, hg, rfl, ha, hr⟩
  · exact (evaluate_verdict d source s).journal
  · exact (evaluate_verdict d source s).of_undefined hu

end Renderer

end LiveLayout.Live
