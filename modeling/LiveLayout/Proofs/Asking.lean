import LiveLayout.Proofs.Talk

/-!
# Asking

Resolving settings, composing requests and deciding what children do comes down
to evaluating expressions, one after the other, in one directory. `Asks` says of
an act by how it is built which texts those may be, and whatever holds of one
evaluation holds of all these acts.
-/

namespace LiveLayout.Live

open Layout (Remote Cascade)

/-- What a handler does, and remarks on what is neither a text nor an id. -/
def Effect.isAside : Effect → Bool
  | .warned (.malformed _) | .warned (.notMounted _) | .warned (.notRegistered ..) => false
  | .warned _ | .summed _ | .told _ | .invoked .handler .. => true
  | .evaluated .. | .invoked .expression .. | .pushed .. | .submitted .. | .called .. => false

variable {W : Type} [Widget W]

/-- Acts made of asides and of evaluations of texts of a kind in one directory. -/
inductive Asks (d : Directory) (T : String → Prop) : {α : Type} → Act W α → Prop
  | pure (a : α) : Asks d T (pure a)
  | aside {w : Warning} {next : Act W α} (hw : (Effect.warned w).isAside = true)
      (hn : Asks d T next) : Asks d T (Act.warn w >>= fun _ => next)
  | evaluate {next : Resolved → Act W α} (ht : T source) (hn : ∀ v, Asks d T (next v)) :
      Asks d T (evaluate d source >>= next)

namespace Asks

variable {d : Directory} {T : String → Prop}

theorem bind {m : Act W α} {f : α → Act W β} (hm : Asks d T m) (hf : ∀ a, Asks d T (f a)) :
    Asks d T (m >>= f) := by
  induction hm with
  | pure a => rw [pure_bind]; exact hf a
  | aside hw _ ih => rw [bind_assoc]; exact .aside hw ih
  | evaluate ht _ ih => rw [bind_assoc]; exact .evaluate ht ih

/-- A remark before there is nothing to give. -/
theorem asideThen {w : Warning} (hw : (Effect.warned w).isAside = true) (a : α) :
    Asks d T (do Act.warn w; Pure.pure a : Act W α) := .aside hw (.pure a)

theorem ite {c : Prop} [Decidable c] {m n : Act W α} (hm : Asks d T m) (hn : Asks d T n) :
    Asks d T (if c then m else n) := by
  split
  · exact hm
  · exact hn

/-- Asking is talk. -/
theorem talk {act : Act W α} (h : Asks d T act) : Talk act := by
  induction h with
  | pure a => exact .pure a
  | aside _ _ ih => exact .bind (.warn _) fun _ => ih
  | evaluate _ _ ih => exact .bind (evaluate_talk d _) ih

end Asks

-- ---------------------------------------------------------------------------
-- Settings
-- ---------------------------------------------------------------------------

variable {T : String → Prop}

theorem evaluate_asks (d : Directory) {source : String} (ht : T source) :
    Asks d T (evaluate d source : Act W Resolved) := by
  simpa using Asks.evaluate (W := W) (d := d) ht fun v => .pure v

theorem resolve_asks (d : Directory) {s : Setting}
    (h : ∀ source, s.expression? = some source → T source) :
    Asks d T (resolve d s : Act W Resolved) := by
  cases s with
  | expression source => exact evaluate_asks d (h source rfl)
  | _ => exact .pure _

theorem evaluateToSend_asks (d : Directory) {source : String} (ht : T source) :
    Asks d T (evaluateToSend d source : Act W (Option Json)) := by
  refine .evaluate ht fun v => ?_
  cases v with
  | reference => exact .asideThen rfl _
  | _ => exact .pure _

-- A part of a setting has no expressions but those of the whole.
mutual
theorem resolveWithin_asks (d : Directory) (s : Setting) (h : ∀ source ∈ s.expressions, T source) :
    Asks d T (resolveWithin d s : Act W (Option Json)) := by
  cases s with
  | expression source => exact evaluateToSend_asks d (h source List.mem_cons_self)
  | list items => exact .bind (resolveItems_asks d items h) fun _ => .pure _
  | map entries => exact .bind (resolveEntries_asks d entries h) fun _ => .pure _
  | _ => exact .pure _
theorem resolveItems_asks (d : Directory) (items : List Setting)
    (h : ∀ source ∈ Setting.itemExpressions items, T source) :
    Asks d T (resolveItems d items : Act W (List Json)) := by
  cases items with
  | nil => exact .pure _
  | cons s rest =>
    obtain ⟨hs, hr⟩ := List.forall_mem_append.mp h
    exact .bind (resolveWithin_asks d s hs) fun _ =>
      .bind (resolveItems_asks d rest hr) fun _ => .pure _
theorem resolveEntries_asks (d : Directory) (entries : List (String × Setting))
    (h : ∀ source ∈ Setting.entryExpressions entries, T source) :
    Asks d T (resolveEntries d entries : Act W (List (String × Json))) := by
  cases entries with
  | nil => exact .pure _
  | cons p rest =>
    obtain ⟨hs, hr⟩ := List.forall_mem_append.mp h
    exact .bind (resolveWithin_asks d p.2 hs) fun _ =>
      .bind (resolveEntries_asks d rest hr) fun _ => .pure _
end

theorem resolveArguments_asks (d : Directory) {args : Fields Setting}
    (h : ∀ a ∈ args, ∀ source, a.2.expression? = some source → T source) :
    Asks d T (resolveArguments d args : Act W (Fields Resolved)) := by
  induction args with
  | nil => exact .pure _
  | cons p rest ih =>
    obtain ⟨hp, hr⟩ := List.forall_mem_cons.mp h
    exact .bind (resolve_asks d hp) fun _ => .bind (ih hr) fun _ => .pure _

-- ---------------------------------------------------------------------------
-- Requests
-- ---------------------------------------------------------------------------

theorem composePairs_asks (d : Directory) (part : RequestPart) {pairs : Fields Setting}
    (h : ∀ source ∈ Setting.entryExpressions pairs, T source) :
    Asks d T (composePairs d part pairs : Act W (List (String × String))) := by
  induction pairs with
  | nil => exact .pure _
  | cons p rest ih =>
    obtain ⟨hp, hr⟩ := List.forall_mem_append.mp h
    refine .bind (resolveWithin_asks d p.2 hp) fun v => ?_
    split
    · exact .aside rfl (ih hr)
    · exact .aside rfl (ih hr)
    · exact .bind (ih hr) fun _ => .pure _

theorem composeBody_asks (d : Directory) (endpoint : String) {body : Option Setting}
    (h : ∀ source ∈ (body.map Setting.expressions).getD [], T source) :
    Asks d T (composeBody d endpoint body : Act W (Option Json)) := by
  cases body with
  | none => exact .pure _
  | some body =>
    refine .bind (resolveWithin_asks d body h) fun v => ?_
    split
    · exact .asideThen rfl _
    · exact .pure _

theorem compose_asks (ctx : Context) {r : Remote} (endpoint : String)
    (h : ∀ source ∈ r.expressions, T source) :
    Asks ctx.directory T (compose ctx r endpoint : Act W Request) := by
  obtain ⟨h, hb⟩ := List.forall_mem_append.mp h
  obtain ⟨hh, hq⟩ := List.forall_mem_append.mp h
  refine .bind (composePairs_asks ctx.directory .header hh) fun _ => ?_
  refine .bind (composePairs_asks ctx.directory .query hq) fun _ => ?_
  exact .bind (composeBody_asks ctx.directory endpoint hb) fun _ => .pure _

theorem compose_talk (ctx : Context) (r : Remote) (endpoint : String) :
    Talk (compose ctx r endpoint : Act W Request) :=
  (compose_asks ctx endpoint fun _ hs => hs).talk

-- ---------------------------------------------------------------------------
-- Events
-- ---------------------------------------------------------------------------

theorem dispatch_talk (bs : Bindings) (d : Directory) (handlers : Handlers) (event : Event) :
    Talk (dispatch bs d handlers event : Act W Bool) := by
  unfold dispatch
  split
  · exact .pure _
  next binding _ =>
    split
    · exact .warnThen _ _
    · have ha : Asks d (fun _ => True) (resolveArguments d binding.args : Act W (Fields Resolved)) :=
        resolveArguments_asks d fun _ _ _ _ => trivial
      exact .bind ha.talk fun _ => .remark _ rfl <| .bind (script_talk _) fun _ => .pure _

theorem keyFor_asks (d : Directory) {c : Cascade} (h : T c.selectionText) (payload : Json) :
    Asks d T (keyFor d c payload : Act W (Option Json)) := by
  unfold keyFor
  split
  · exact .pure _
  · exact .pure _
  · refine .evaluate h fun v => ?_
    cases v with
    | value selection => dsimp only; split <;> exact .pure _
    | _ => exact .pure _

theorem actions_asks (d : Directory) (parent event : String) (payload : Json)
    {subs : Subscriptions} (h : ∀ p ∈ subs, T p.2.selectionText) :
    Asks d T (Subscriptions.actions d parent event payload subs : Act W (List Action)) := by
  induction subs with
  | nil => exact .pure _
  | cons p rest ih =>
    obtain ⟨hp, hr⟩ := List.forall_mem_cons.mp h
    unfold Subscriptions.actions
    exact .ite (.bind (keyFor_asks d hp payload) fun _ => .bind (ih hr) fun _ => .pure _) (ih hr)

theorem actions_talk (d : Directory) (parent event : String) (payload : Json)
    (subs : Subscriptions) :
    Talk (Subscriptions.actions d parent event payload subs : Act W (List Action)) :=
  (actions_asks (T := fun _ => True) d parent event payload fun _ _ => trivial).talk

end LiveLayout.Live
