import LiveLayout.Live.Operation
import LiveLayout.Proofs.Mounting

/-!
# One operation

All that an operation can do to a renderer, in one place: it stirs what is
shown, takes a node or everything down, shows a new layout, or deals with
completions. What is shown afterwards is known in each case.
-/

namespace LiveLayout.Live

open Layout (Node)

/-- Operations that neither show a layout nor deal with completions. -/
def Operation.isPlain : Operation → Bool
  | .render .. | .complete .. | .pump => false
  | _ => true

namespace Renderer

section
variable {W : Type}

-- ---------------------------------------------------------------------------
-- Completions
-- ---------------------------------------------------------------------------

theorem complete_run (number : Nat) (response : Except FetchError Json) (s : Stage W) :
    Act.complete number response s = match s.traffic.complete? number response with
      | none => (false, s)
      | some traffic => (true, { s with traffic }) := by
  simp only [Act.complete, run_bind, run_get]
  cases s.traffic.complete? number response <;> rfl

/-- The renderer when the completions have been taken out of the queue. -/
def drained (r : Renderer W) : Renderer W := { r with stage := (Act.drain r.stage).2 }

end

variable {W : Type} [Widget W]

theorem pump_snd (r : Renderer W) :
    (pump r).2 = (applyAll r.stage.traffic.queue (drained r)).2 := rfl

/-- A completion reaches all sources, and changes nothing else. -/
theorem Shows.applyOne {r r' : Renderer W} (h : Shows xs r) (c : Completion)
    (he : (withSource c.ticket.node (fun src => src.apply c) r).2 = r') :
    SameLayout r r' ∧ Shows xs r' ∧ r'.stage.traffic = r.stage.traffic ∧
      ∀ key, KeyMap.get? r'.sources key =
        (KeyMap.get? r.sources key).map fun src => src.received c := by
  have hother {key} (hne : c.ticket.node ≠ key) :
      KeyMap.get? r.sources key = (KeyMap.get? r.sources key).map fun src => src.received c := by
    cases hk : KeyMap.get? r.sources key with
    | none => rfl
    | some src =>
      rw [Option.map_some, Source.received_elsewhere]
      rwa [h.source_key hk]
  cases hs : KeyMap.get? r.sources c.ticket.node with
  | none =>
    rw [withSource_none _ hs] at he
    subst he
    refine ⟨.refl r, h, rfl, fun key => ?_⟩
    by_cases hk : c.ticket.node = key
    · rw [← hk, hs, Option.map_none]
    · exact hother hk
  | some src =>
    rw [withSource_some _ hs, Source.apply_fst] at he
    subst he
    refine ⟨sameLayout_putSource .., h.putSource hs (src.origin_received c) _,
      src.apply_traffic c _, fun key => ?_⟩
    rw [get?_putSource]
    by_cases hk : c.ticket.node = key
    · rw [if_pos hk, ← hk, hs, Option.map_some]
    · rw [if_neg hk]
      exact hother hk

/-- Completions reach all sources one after the other, and change nothing
else. -/
theorem Shows.applyAll {r : Renderer W} (h : Shows xs r) (cs : List Completion) :
    SameLayout r (applyAll cs r).2 ∧ Shows xs (applyAll cs r).2 ∧
      (applyAll cs r).2.stage.traffic = r.stage.traffic ∧
      ∀ key, KeyMap.get? (applyAll cs r).2.sources key =
        (KeyMap.get? r.sources key).map fun src => cs.foldl Source.received src := by
  induction cs generalizing r with
  | nil => exact ⟨.refl r, h, rfl, fun key => by simp [Renderer.applyAll]⟩
  | cons c rest ih =>
    obtain ⟨h1, h2, h3, h4⟩ := h.applyOne c rfl
    obtain ⟨i1, i2, i3, i4⟩ := ih h2
    refine ⟨h1.trans i1, i2, i3.trans h3, fun key => (i4 key).trans ?_⟩
    rw [h4, Option.map_map]
    rfl

-- ---------------------------------------------------------------------------
-- What operations do
-- ---------------------------------------------------------------------------

/-- What an operation does to a renderer that shows some exhibits, and which it
shows then. -/
inductive Turn (xs : List Exhibit) (r : Renderer W) :
    Operation → List Exhibit → Renderer W → Prop
  | stirs (ho : op.isPlain = true) (hs : Stirs r r') : Turn xs r op xs r'
  | takes (ho : op.isPlain = true) (key : NodeKey) :
      Turn xs r op (xs.filter (·.key ≠ key)) (unmountKey key r).2
  | clears : Turn xs r .teardown [] (bare r)
  | rejects {tree : Node} {handlers : Handlers} (hc : Layout.check tree = .error rejection) :
      Turn xs r (.render tree handlers) xs r
  | shows {tree : Node} {handlers : Handlers} (hc : Layout.check tree = .ok concerns)
      (hm : MountsAll (ground handlers concerns r) ys r')
      (hw : Scene.widgets scene = ys.map Exhibit.widget)
      (hd : ys.map Exhibit.declared = assigned r.library r.nextKey tree.components) :
      Turn xs r (.render tree handlers) ys (presented scene r')
  | completes (number : Nat) (response : Except FetchError Json) :
      Turn xs r (.complete number response) xs
        { r with stage := (Act.complete number response r.stage).2 }
  | pumps : Turn xs r .pump xs (pump r).2

theorem Shows.turn {r : Renderer W} (h : Shows xs r) (op : Operation) :
    ∃ ys, Turn xs r op ys (r.after op) ∧ Shows ys (r.after op) := by
  have hplain {r' : Renderer W} (ho : op.isPlain = true) (hs : Stirs r r') :
      ∃ ys, Turn xs r op ys r' ∧ Shows ys r' := ⟨xs, .stirs ho hs, h.stirs hs⟩
  cases op with
  | occupy handles => exact hplain rfl (.talk rfl)
  | render tree handlers =>
    show ∃ ys, Turn xs r _ ys (render tree handlers r).2 ∧ Shows ys (render tree handlers r).2
    cases hc : Layout.check tree with
    | error rejection =>
      rw [render_rejected handlers hc]
      exact ⟨xs, .rejects hc, h⟩
    | ok concerns =>
      obtain ⟨ys, r', scene, he, hm, hsh, hw, hd⟩ := h.render_mounts handlers hc
      rw [he]
      exact ⟨ys, .shows hc hm hw hd, { hsh with }⟩
  | teardown =>
    show ∃ ys, Turn xs r _ ys (teardown r).2 ∧ Shows ys (teardown r).2
    rw [h.teardown_run]
    exact ⟨[], .clears, shows_bare r⟩
  | unmount id =>
    show ∃ ys, Turn xs r _ ys (unmount id r).2 ∧ Shows ys (unmount id r).2
    simp only [unmount, run_bind, run_get]
    cases Directory.keyOf? r.directory id with
    | none => exact hplain rfl .refl
    | some key => exact ⟨_, .takes rfl key, h.unmountKey key⟩
  | unmountKey key => exact ⟨_, .takes rfl key, h.unmountKey key⟩
  | fire id event payload => exact hplain rfl (h.fire_stirs id event payload)
  | fireKey key event payload => exact hplain rfl (h.fireKey_stirs key event payload)
  | refresh id => exact hplain rfl (h.refresh_stirs id)
  | refreshKey key => exact hplain rfl (h.refreshKey_stirs key)
  | complete number response => exact ⟨xs, .completes number response, h.of_fixedPart rfl _⟩
  | pump =>
    refine ⟨xs, .pumps, ?_⟩
    show Shows xs (pump r).2
    rw [pump_snd]
    exact ((h.of_fixedPart (r := r) rfl _).applyAll _).2.1

-- ---------------------------------------------------------------------------
-- What stays the same
-- ---------------------------------------------------------------------------

/-- What a renderer keeps whatever is done to it; keys are only given. -/
structure Carries (r r' : Renderer W) : Prop where
  library : r'.library = r.library
  options : r'.options = r.options
  nextKey : r.nextKey ≤ r'.nextKey

section
omit [Widget W]
variable {r r' r'' : Renderer W}

theorem Carries.refl (r : Renderer W) : Carries r r := ⟨rfl, rfl, Nat.le_refl _⟩

theorem Carries.trans (h : Carries r r') (h' : Carries r' r'') : Carries r r'' :=
  ⟨h'.library.trans h.library, h'.options.trans h.options, Nat.le_trans h.nextKey h'.nextKey⟩

theorem SameLayout.carries (h : SameLayout r r') : Carries r r' := by
  obtain ⟨_, _, rfl⟩ := h
  exact ⟨rfl, rfl, Nat.le_refl _⟩

theorem MountsAll.carries (h : MountsAll r xs r') : Carries r r' := by
  induction h with
  | none => exact .refl _
  | talk _ _ ih => exact ⟨ih.library, ih.options, ih.nextKey⟩
  | mount _ hm _ ih =>
    refine .trans ?_ ih
    cases hm <;> exact ⟨rfl, rfl, Nat.le_succ _⟩

end

theorem Turn.carries {r r' : Renderer W} (hx : Shows xs r) (ht : Turn xs r op ys r') :
    Carries r r' := by
  cases ht with
  | stirs _ hs => exact hs.sameLayout.carries
  | takes _ key =>
    rw [unmountKey_run]
    cases KeyMap.get? r.mounted key <;> exact ⟨rfl, rfl, Nat.le_refl _⟩
  | shows _ hm => exact ⟨hm.carries.library, hm.carries.options, hm.carries.nextKey⟩
  | pumps =>
    have hd : Shows xs (drained r) := hx.of_fixedPart rfl _
    obtain ⟨hl, -⟩ := hd.applyAll r.stage.traffic.queue
    exact ⟨hl.carries.library, hl.carries.options, hl.carries.nextKey⟩
  | clears | rejects | completes => exact ⟨rfl, rfl, Nat.le_refl _⟩

end Renderer

end LiveLayout.Live
