import LiveLayout.Live.Dispatch
import LiveLayout.Live.Source
import LiveLayout.Live.Subscription

/-!
# Talking moves no data

Evaluating expressions and running what a handler does is all talk: remarks are
noted and methods are called, but no widget is given data and no job is
submitted. `Talk` says so of an act by how it is built, and whatever holds of
remarks and calls holds of all acts that are talk.
-/

namespace LiveLayout.Live

-- ---------------------------------------------------------------------------
-- Running acts
-- ---------------------------------------------------------------------------

@[simp] theorem run_pure (a : α) (s : σ) : (pure a : StateM σ α) s = (a, s) := rfl

theorem run_bind (m : StateM σ α) (f : α → StateM σ β) (s : σ) :
    (m >>= f) s = f (m s).1 (m s).2 := rfl

theorem run_map (f : α → β) (m : StateM σ α) (s : σ) : (f <$> m) s = (f (m s).1, (m s).2) := rfl

@[simp] theorem run_get (s : σ) : (get : StateM σ σ) s = (s, s) := rfl

@[simp] theorem run_set (s t : σ) : (set t : StateM σ PUnit) s = (⟨⟩, t) := rfl

@[simp] theorem run_modify (f : σ → σ) (s : σ) : (modify f : StateM σ PUnit) s = (⟨⟩, f s) := rfl

variable {W : Type} [Widget W]

theorem invoke_run (caller : Caller) (h : Handle) (method : String) (args : List Json)
    (s : Stage W) :
    Act.invoke caller h method args s = match s.free? h with
      | none => (none, s)
      | some w => (some (Widget.invoke w method args).1,
          Stage.setWidget { s with journal := s.journal ++ [.invoked caller h method args] } h
            (Widget.invoke w method args).2) := by
  simp only [Act.invoke, run_bind, run_get]
  cases s.free? h <;> rfl

-- ---------------------------------------------------------------------------
-- Talk
-- ---------------------------------------------------------------------------

/-- Effects that say something and do nothing. -/
def Effect.isRemark : Effect → Bool
  | .warned _ | .evaluated .. | .called .. | .told _ => true
  | .summed _ | .invoked .. | .pushed .. | .submitted .. => false

/-- Acts made of remarks and calls. -/
inductive Talk : {α : Type} → Act W α → Prop
  | pure (a : α) : Talk (pure a)
  | remark {next : Act W α} (e : Effect) (he : e.isRemark = true) (hn : Talk next) :
      Talk (Act.record e >>= fun _ => next)
  | call {next : Option Answer → Act W α} (caller : Caller) (h : Handle) (method : String)
      (args : List Json) (hn : ∀ o, Talk (next o)) :
      Talk (Act.invoke caller h method args >>= next)

namespace Talk

theorem bind {m : Act W α} {f : α → Act W β} (hm : Talk m) (hf : ∀ a, Talk (f a)) :
    Talk (m >>= f) := by
  induction hm with
  | pure a => rw [pure_bind]; exact hf a
  | remark e he _ ih => rw [bind_assoc]; exact .remark e he ih
  | call caller h method args _ ih =>
    rw [bind_assoc]
    exact .call caller h method args ih

theorem record (e : Effect) (he : e.isRemark = true) : Talk (Act.record e : Act W Unit) := by
  simpa using Talk.remark e he (.pure ())

theorem warn (w : Warning) : Talk (Act.warn w : Act W Unit) := record _ rfl

theorem invoke (caller : Caller) (h : Handle) (method : String) (args : List Json) :
    Talk (Act.invoke caller h method args : Act W (Option Answer)) := by
  simpa using Talk.call caller h method args fun o => .pure o

/-- A warning before there is nothing to give. -/
theorem warnThen (w : Warning) (a : α) :
    Talk (do Act.warn w; Pure.pure a : Act W α) := (warn w).bind fun _ => .pure a

theorem ite {c : Prop} [Decidable c] {m n : Act W α} (hm : Talk m) (hn : Talk n) :
    Talk (if c then m else n) := by
  split
  · exact hm
  · exact hn

/-- Talk leaves the traffic as it is. -/
theorem traffic {act : Act W α} (h : Talk act) (s : Stage W) : (act s).2.traffic = s.traffic := by
  induction h generalizing s with
  | pure => rfl
  | remark e he _ ih => exact ih _
  | call caller h method args _ ih =>
    rw [run_bind, ih, invoke_run]
    cases s.free? h <;> rfl

end Talk

-- ---------------------------------------------------------------------------
-- What is talk
-- ---------------------------------------------------------------------------

theorem evaluateExpression_talk (d : Directory) (e : Expression) :
    Talk (evaluateExpression d e : Act W Resolved) := by
  unfold evaluateExpression
  split
  · exact .warnThen _ _
  · split
    · exact .pure _
    · refine .ite (.bind (.invoke ..) fun answer => ?_) (.warnThen _ _)
      rcases answer with _ | _ | _
      · exact .warnThen _ _
      · exact .warnThen _ _
      · exact .pure _

theorem evaluate_talk (d : Directory) (source : String) :
    Talk (evaluate d source : Act W Resolved) := by
  unfold evaluate
  refine .bind (.record _ rfl) fun _ => ?_
  split
  · exact .warnThen _ _
  · exact evaluateExpression_talk d _

theorem script_talk (script : Script) : Talk (script.run : Act W Unit) := by
  induction script with
  | done => exact .pure _
  | report outcome next ih => exact .remark _ rfl ih
  | invoke target method args next ih =>
    rw [Script.run]
    refine .call .handler target method args fun answer => ?_
    cases answer with
    | none => exact ih _
    | some answer => exact ih _

end LiveLayout.Live
