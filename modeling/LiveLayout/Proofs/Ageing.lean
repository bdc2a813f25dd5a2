import Mathlib.Logic.Relation
import LiveLayout.Proofs.SourceLaws

/-!
# What becomes of widgets

Once a widget is on the stage it stays there under its handle. It answers calls
and takes data, and is never anything but what this makes of it. New widgets
come behind those that are there.
-/

namespace LiveLayout.Live

variable {W : Type} [Widget W]

/-- What a widget is after one call, or after it was given data. -/
inductive Handled (w : W) : W → Prop
  | invoked (method : String) (args : List Json) : Handled w (Widget.invoke w method args).2
  | supplied (payload : Payload) : Handled w (Widget.setData w payload)

/-- What a widget is after any number of calls and of data. -/
abbrev Becomes : W → W → Prop := Relation.ReflTransGen Handled

/-- The stage goes on, and some new widgets come onto it. -/
structure Stage.Ages (s : Stage W) (made : Nat) (s' : Stage W) : Prop where
  count : s'.widgets.length = s.widgets.length + made
  becomes : ∀ h v, s.widget? h = some v → ∃ w, s'.widget? h = some w ∧ Becomes v w

namespace Stage.Ages

variable {s s' s'' : Stage W}

theorem of_eq (h : s'.widgets = s.widgets) : s.Ages 0 s' where
  count := by rw [h, Nat.add_zero]
  becomes := fun handle v hv => ⟨v, by rwa [Stage.widget?, h], .refl⟩

theorem refl (s : Stage W) : s.Ages 0 s := .of_eq rfl

theorem trans (h : s.Ages m s') (h' : s'.Ages n s'') : s.Ages (m + n) s'' where
  count := by rw [h'.count, h.count, Nat.add_assoc]
  becomes := fun handle v hv => by
    obtain ⟨w, hw, hvw⟩ := h.becomes handle v hv
    obtain ⟨u, hu, hwu⟩ := h'.becomes handle w hw
    exact ⟨u, hu, hvw.trans hwu⟩

/-- A widget that is handled is the only one that changes. -/
theorem setWidget (hw : s.free? h = some w) (hh : Handled w w') {journal : List Effect} :
    s.Ages 0 (Stage.setWidget { s with journal } h w') where
  count := by simp [Stage.setWidget]
  becomes := fun other v hv => by
    have hs : s.widget? h = some w := by
      unfold Stage.free? at hw
      split at hw
      · cases hw
      · exact hw
    by_cases ho : other = h
    · subst ho
      obtain rfl : v = w := Option.some.inj (hv.symm.trans hs)
      have hl := (List.getElem?_eq_some_iff.mp hs).1
      exact ⟨w', by simp [Stage.setWidget, Stage.widget?, hl], .single hh⟩
    · have hi : h.index ≠ other.index := fun hi => ho (by
        cases h; cases other; exact congrArg Handle.mk hi.symm)
      exact ⟨v, by simpa [Stage.setWidget, Stage.widget?, hi] using hv, .refl⟩

end Stage.Ages

/-- Whatever the stage is like, the act handles widgets that are there, and
brings none onto it. -/
def Tends (act : Act W α) : Prop := ∀ s : Stage W, s.Ages 0 (act s).2

namespace Tends

theorem bind {m : Act W α} {f : α → Act W β} (hm : Tends m) (hf : ∀ a, Tends (f a)) :
    Tends (m >>= f) := fun s => (hm s).trans (hf _ _)

theorem pure (a : α) : Tends (Pure.pure a : Act W α) := fun s => .refl s

theorem ite {c : Prop} [Decidable c] {m n : Act W α} (hm : Tends m) (hn : Tends n) :
    Tends (if c then m else n) := by
  split
  · exact hm
  · exact hn

theorem submit (job : Job) : Tends (Act.submit job : Act W Unit) := fun _ => .of_eq rfl

theorem invoke (caller : Caller) (h : Handle) (method : String) (args : List Json) :
    Tends (Act.invoke caller h method args : Act W (Option Answer)) := by
  intro s
  rw [invoke_run]
  cases hw : s.free? h with
  | none => exact .refl s
  | some w => exact .setWidget hw (.invoked method args)

theorem push (h : Handle) (payload : Payload) : Tends (Act.push h payload : Act W Bool) := by
  intro s
  simp only [Act.push, run_bind, run_get]
  cases hw : s.free? h with
  | none => exact .refl s
  | some w => exact .setWidget hw (.supplied payload)

end Tends

/-- Talk only calls widgets. -/
theorem Talk.tends {act : Act W α} (h : Talk act) : Tends act := by
  induction h with
  | pure a => exact .pure a
  | remark e he _ ih => exact .bind (fun _ => .of_eq rfl) fun _ => ih
  | call caller h method args _ ih => exact .bind (.invoke caller h method args) ih

namespace Source

theorem setState_tends (src : Source) (state : FetchState) :
    Tends (src.setState state : Act W Source) := by
  refine .bind (.push src.widget state.payload) fun pushed => ?_
  cases pushed with
  | true => exact .pure _
  | false => exact (Talk.warnThen _ _).tends

theorem fetch_tends (src : Source) (ctx : Context) (endpoint : String) :
    Tends (src.fetch ctx endpoint : Act W (Ticket × Source)) := by
  refine .bind (compose_talk ctx (src.remote endpoint) endpoint).tends fun _ => ?_
  exact .bind (setState_tends _ _) fun _ => .bind (.submit _) fun _ => .pure _

theorem mount_tends (src : Source) (ctx : Context) : Tends (src.mount ctx : Act W Source) := by
  unfold mount
  refine .ite (setState_tends _ _) ?_
  split
  · exact setState_tends _ _
  · exact .bind (src.fetch_tends ctx _) fun _ => .pure _
  · exact setState_tends _ _

theorem refresh_tends (src : Source) (ctx : Context) :
    Tends (src.refresh ctx : Act W (Bool × Source)) := by
  unfold refresh
  split
  · exact .bind (src.fetch_tends ctx _) fun _ => .pure _
  · exact .ite (Talk.warnThen _ _).tends (.bind (src.mount_tends ctx) fun _ => .pure _)

theorem reset_tends (src : Source) : Tends (src.reset : Act W Source) := setState_tends _ _

theorem apply_tends (src : Source) (c : Completion) :
    Tends (src.apply c : Act W (Bool × Source)) := by
  unfold apply
  refine .ite ?_ (.pure _)
  split
  · exact .bind (setState_tends _ _) fun _ => .pure _
  · exact .bind (Talk.warn _).tends fun _ => .bind (setState_tends _ _) fun _ => .pure _

end Source

end LiveLayout.Live
