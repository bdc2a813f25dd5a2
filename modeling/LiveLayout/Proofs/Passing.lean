import LiveLayout.Proofs.Activity
import LiveLayout.Proofs.Introducing

/-!
# Operations as seen by what is shown

What any operation does to the exhibits, with all that is done on the way: it
leaves them and works with what is kept for them, takes one or all of them out,
or introduces those of another layout.
-/

namespace LiveLayout.Live

namespace Renderer

variable {W : Type} [Widget W]

open Layout (Node)

/-- Takes down one node, by its key or by its id. -/
inductive Unmounts (r : Renderer W) (key : NodeKey) : Operation → Prop
  | byKey : Unmounts r key (.unmountKey key)
  | byId {id : String} (hk : Directory.keyOf? r.directory id = some key) :
      Unmounts r key (.unmount id)

omit [Widget W] in
theorem unmount_found {r : Renderer W} {id : String} (hk : Directory.keyOf? r.directory id = some key) :
    unmount id r = unmountKey key r := by
  simp only [unmount, run_bind, run_get, hk]

theorem Unmounts.after {r : Renderer W} (h : Unmounts r key op) :
    r.after op = (unmountKey key r).2 := by
  cases h with
  | byKey => rfl
  | byId hk => exact congrArg Prod.snd (unmount_found hk)

/-- What an operation makes of the exhibits `xs` of a renderer. -/
inductive Passes (xs : List Exhibit) (r : Renderer W) :
    Operation → List Exhibit → Renderer W → Prop
  | stays (ho : op.isStaying = true) (hg : GoesOn r r') : Passes xs r op xs r'
  | takes (ho : Unmounts r key op) :
      Passes xs r op (xs.filter (·.key ≠ key)) (unmountKey key r).2
  | misses {id : String} (hk : Directory.keyOf? r.directory id = none) :
      Passes xs r (.unmount id) xs r
  | clears : Passes xs r .teardown [] (bare r)
  | rejects {tree : Node} {handlers : Handlers} (hc : Layout.check tree = .error rejection) :
      Passes xs r (.render tree handlers) xs r
  | shows {tree : Node} {handlers : Handlers} (hc : Layout.check tree = .ok concerns)
      (hi : Introduces [] ys r r')
      (hp : Presents r.library [tree] ys r'.tree.toList) :
      Passes xs r (.render tree handlers) ys r'

variable {r : Renderer W}

/-- What is shown stays as long as the layout does. -/
theorem Shows.stays (h : Shows xs r) (ho : op.isStaying = true) : Shows xs (r.after op) := by
  cases op with
  | render | teardown | unmount | unmountKey => cases ho
  | occupy handles => exact h.of_fixedPart rfl _
  | fire id event payload => exact h.stirs (h.fire_stirs id event payload)
  | fireKey key event payload => exact h.stirs (h.fireKey_stirs key event payload)
  | refresh id => exact h.stirs (h.refresh_stirs id)
  | refreshKey key => exact h.stirs (h.refreshKey_stirs key)
  | complete number response => exact h.of_fixedPart rfl _
  | pump =>
    have hd : Shows xs (drained r) := h.of_fixedPart rfl _
    exact (hd.applyAll _).2.1

theorem Shows.passes (h : Shows xs r) (op : Operation) :
    ∃ ys, Passes xs r op ys (r.after op) ∧ Shows ys (r.after op) := by
  cases op with
  | occupy | fire | fireKey | refresh | refreshKey | complete | pump =>
    exact ⟨xs, .stays rfl (goesOn_after rfl r), h.stays rfl⟩
  | render tree handlers =>
    show ∃ ys, Passes xs r _ ys (render tree handlers r).2 ∧ Shows ys (render tree handlers r).2
    cases hc : Layout.check tree with
    | error rejection =>
      rw [render_rejected handlers hc]
      exact ⟨xs, .rejects hc, h⟩
    | ok concerns =>
      obtain ⟨ys, scene, -, rfl, hi, hp⟩ := h.render_introduces handlers hc
      exact ⟨ys, .shows hc hi hp, hi.shows⟩
  | teardown =>
    show ∃ ys, Passes xs r _ ys (teardown r).2 ∧ Shows ys (teardown r).2
    rw [h.teardown_run]
    exact ⟨[], .clears, shows_bare r⟩
  | unmount id =>
    show ∃ ys, Passes xs r _ ys (unmount id r).2 ∧ Shows ys (unmount id r).2
    cases hk : Directory.keyOf? r.directory id with
    | none =>
      simp only [unmount, run_bind, run_get, hk]
      exact ⟨xs, .misses hk, h⟩
    | some key =>
      rw [unmount_found hk]
      exact ⟨_, .takes (.byId hk), h.unmountKey key⟩
  | unmountKey key => exact ⟨_, .takes .byKey, h.unmountKey key⟩

end Renderer

end LiveLayout.Live
