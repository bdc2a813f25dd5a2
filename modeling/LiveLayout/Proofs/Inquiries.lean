import LiveLayout.Proofs.Saying

/-!
# What expressions may call

A method is called for an expression only by its evaluation: by its own text,
on the instance that the directory has for its target, and if that instance was
entered with a capability for it. An evaluation calls once at most, and nothing
at all happens if it is refused. Acts that evaluate expressions leave a journal
that is in order: each call in it comes right after the evaluation it is for.
-/

namespace LiveLayout.Live

open Layout (Remote Cascade)

/-- An evaluation, or a call for one. -/
def Effect.isInquiry : Effect → Bool
  | .evaluated .. | .invoked .expression .. => true
  | _ => false

theorem Effect.isInquiry_of_isAside {e : Effect} (h : e.isAside = true) : e.isInquiry = false := by
  cases e with
  | evaluated => cases h
  | invoked caller =>
    cases caller with
    | expression => cases h
    | handler => rfl
  | _ => rfl

/-- A text may have this called: it is an expression with this call, and its
target is entered in the directory with a capability for it. -/
inductive Permits (d : Directory) (source : String) : Handle → String → List Json → Prop
  | mk {e : Expression} {entry : Entry} {call : MethodCall}
      (hp : Expression.parse source = .ok e) (hg : Fields.get? d e.target = some entry)
      (hc : e.call = some call) (ha : call.method ∈ entry.capabilities.methods) :
      Permits d source entry.handle call.method call.args

/-- What an evaluation leaves in the journal: it calls once at most. -/
inductive Evaluation (d : Directory) (source : String) : List Effect → Prop
  | silent : Evaluation d source [.evaluated d source]
  | warned (w : Warning) : Evaluation d source [.evaluated d source, .warned w]
  | called (hp : Permits d source h method args) :
      Evaluation d source [.evaluated d source, .invoked .expression h method args]
  | failed (hp : Permits d source h method args) (w : Warning) :
      Evaluation d source [.evaluated d source, .invoked .expression h method args, .warned w]

/-- Evaluations in directories of a kind, each followed by its call if there is
one, and other things in between. -/
inductive Orderly (D : Directory → Prop) : List Effect → Prop
  | nil : Orderly D []
  | other (he : e.isInquiry = false) (hr : Orderly D rest) : Orderly D (e :: rest)
  | evaluated (hd : D d) (hr : Orderly D rest) : Orderly D (.evaluated d source :: rest)
  | called (hd : D d) (hp : Permits d source h method args) (hr : Orderly D rest) :
      Orderly D (.evaluated d source :: .invoked .expression h method args :: rest)

section
variable {D : Directory → Prop} {said more : List Effect}

theorem Orderly.append (h : Orderly D said) (hm : Orderly D more) : Orderly D (said ++ more) := by
  induction h with
  | nil => exact hm
  | other he _ ih => exact .other he ih
  | evaluated hd _ ih => exact .evaluated hd ih
  | called hd hp _ ih => exact .called hd hp ih

theorem orderly_of_others (h : ∀ e ∈ said, e.isInquiry = false) : Orderly D said := by
  induction said with
  | nil => exact .nil
  | cons e rest ih =>
    obtain ⟨he, hr⟩ := List.forall_mem_cons.mp h
    exact .other he (ih hr)

theorem Evaluation.orderly (h : Evaluation d source said) (hd : D d) : Orderly D said := by
  cases h with
  | silent => exact .evaluated hd .nil
  | warned w => exact .evaluated hd (.other rfl .nil)
  | called hp => exact .called hd hp .nil
  | failed hp w => exact .called hd hp (.other rfl .nil)

/-- A call for an expression comes right after its evaluation, which permits it. -/
theorem Orderly.permitted (h : Orderly D said)
    (hs : said = before ++ .invoked .expression target method args :: after) :
    ∃ earlier d source, D d ∧ before = earlier ++ [.evaluated d source] ∧
      Permits d source target method args := by
  induction h generalizing before with
  | nil => simp at hs
  | other he _ ih =>
    cases before with
    | nil =>
      obtain ⟨rfl, -⟩ := List.cons.inj hs
      cases he
    | cons b before =>
      obtain ⟨rfl, hr⟩ := List.cons.inj hs
      obtain ⟨earlier, d, source, hd, rfl, hp⟩ := ih hr
      exact ⟨_ :: earlier, d, source, hd, rfl, hp⟩
  | @evaluated d rest source hd _ ih =>
    cases before with
    | nil => cases (List.cons.inj hs).1
    | cons b before =>
      obtain ⟨rfl, hr⟩ := List.cons.inj hs
      obtain ⟨earlier, d', source', hd', rfl, hp⟩ := ih hr
      exact ⟨.evaluated d source :: earlier, d', source', hd', rfl, hp⟩
  | @called d source h method' args' rest hd hp _ ih =>
    rcases before with _ | ⟨b, _ | ⟨c, before⟩⟩
    · cases (List.cons.inj hs).1
    · obtain ⟨rfl, hr⟩ := List.cons.inj hs
      cases (List.cons.inj hr).1
      exact ⟨[], d, source, hd, rfl, hp⟩
    · obtain ⟨rfl, hr⟩ := List.cons.inj hs
      obtain ⟨rfl, hrest⟩ := List.cons.inj hr
      obtain ⟨earlier, d', source', hd', rfl, hp'⟩ := ih hrest
      exact ⟨.evaluated d source :: .invoked .expression h method' args' :: earlier,
        d', source', hd', rfl, hp'⟩

end

-- ---------------------------------------------------------------------------
-- Going on in order
-- ---------------------------------------------------------------------------

section
variable {W : Type} {D : Directory → Prop} {s s' s'' : Stage W}

/-- The journal goes on in order. -/
def Continues (D : Directory → Prop) (s s' : Stage W) : Prop :=
  ∃ said, s'.journal = s.journal ++ said ∧ Orderly D said

theorem Continues.refl (s : Stage W) : Continues D s s := ⟨[], by simp, .nil⟩

theorem Continues.trans (h : Continues D s s') (h' : Continues D s' s'') : Continues D s s'' := by
  obtain ⟨first, hf, hfo⟩ := h
  obtain ⟨second, hs, hso⟩ := h'
  exact ⟨first ++ second, by rw [hs, hf, List.append_assoc], hfo.append hso⟩

theorem Continues.of_extends (h : Extends (fun e => e.isInquiry = false) s s') :
    Continues D s s' := by
  obtain ⟨said, hj, hs⟩ := h
  exact ⟨said, hj, orderly_of_others hs⟩

end

variable {W : Type} [Widget W]

-- ---------------------------------------------------------------------------
-- One evaluation
-- ---------------------------------------------------------------------------

/-- An evaluation is refused: the text is not an expression, nobody has the id,
the method is not among the capabilities, or the instance cannot be called now. -/
inductive Refused (d : Directory) (source : String) (s : Stage W) : Prop
  | malformed {problem : Expression.Problem} (hp : Expression.parse source = .error problem)
  | notMounted {e : Expression} (hp : Expression.parse source = .ok e)
      (hg : Fields.get? d e.target = none)
  | notAvailable {e : Expression} {entry : Entry} {call : MethodCall}
      (hp : Expression.parse source = .ok e) (hg : Fields.get? d e.target = some entry)
      (hc : e.call = some call) (ha : call.method ∉ entry.capabilities.methods)
  | targetBusy {e : Expression} {entry : Entry} {call : MethodCall}
      (hp : Expression.parse source = .ok e) (hg : Fields.get? d e.target = some entry)
      (hc : e.call = some call) (ha : call.method ∈ entry.capabilities.methods)
      (hb : s.free? entry.handle = none)

/-- The stage with more in its journal. -/
def Stage.noting (s : Stage W) (said : List Effect) : Stage W :=
  { s with journal := s.journal ++ said }

/-- What an evaluation comes to, and all that it does on the stage. -/
inductive Verdict (d : Directory) (source : String) (s : Stage W) : Resolved × Stage W → Prop
  | refused (hr : Refused d source s) (w : Warning) :
      Verdict d source s (.undefined, s.noting [.evaluated d source, .warned w])
  | referred {e : Expression} {entry : Entry} (hp : Expression.parse source = .ok e)
      (hg : Fields.get? d e.target = some entry) (hc : e.call = none) :
      Verdict d source s (.reference entry.handle, s.noting [.evaluated d source])
  | answered {widget : W} (hp : Permits d source h method args) (hf : s.free? h = some widget)
      (ha : (Widget.invoke widget method args).1 = .ok v) :
      Verdict d source s (.value v,
        (s.noting [.evaluated d source, .invoked .expression h method args]).setWidget h
          (Widget.invoke widget method args).2)
  | failed {widget : W} (hp : Permits d source h method args) (hf : s.free? h = some widget)
      (ha : (Widget.invoke widget method args).1 = .error error) (w : Warning) :
      Verdict d source s (.undefined,
        (s.noting [.evaluated d source, .invoked .expression h method args, .warned w]).setWidget h
          (Widget.invoke widget method args).2)

theorem evaluate_ok (hp : Expression.parse source = .ok e) (d : Directory) (s : Stage W) :
    evaluate d source s = evaluateExpression d e (s.noting [.evaluated d source]) := by
  simp only [evaluate, run_bind, hp]
  rfl

/-- An expression with a call for somebody who has the id. -/
theorem evaluate_call {call : MethodCall} (hp : Expression.parse source = .ok e)
    (hg : Fields.get? d e.target = some entry) (hc : e.call = some call) (s : Stage W) :
    Verdict d source s (evaluate d source s) := by
  rw [evaluate_ok hp]
  simp only [evaluateExpression, hg, hc]
  by_cases hm : call.method ∈ entry.capabilities.methods
  case neg =>
    have hr : Refused d source s := .notAvailable hp hg hc hm
    simpa [Act.warn, Act.record, Stage.noting, run_map, Capabilities.allows_iff, hm] using
      Verdict.refused hr (.notAvailable e call.method)
  case pos =>
    have hperm : Permits d source entry.handle call.method call.args := .mk hp hg hc hm
    have hsame : (s.noting [.evaluated d source]).free? entry.handle = s.free? entry.handle := rfl
    simp only [Capabilities.allows_iff, if_pos hm, run_bind, invoke_run, hsame]
    cases hf : s.free? entry.handle with
    | none =>
      have hr : Refused d source s := .targetBusy hp hg hc hm hf
      simpa [Act.warn, Act.record, Stage.noting, run_map] using
        Verdict.refused hr (.targetBusy e)
    | some widget =>
      cases hi : (Widget.invoke widget call.method call.args).1 with
      | ok v =>
        simpa [Stage.noting, hi] using Verdict.answered hperm hf hi
      | error error =>
        simpa [Act.warn, Act.record, Stage.noting, Stage.setWidget, run_map, hi] using
          Verdict.failed hperm hf hi (.callFailed e error)

theorem evaluate_verdict (d : Directory) (source : String) (s : Stage W) :
    Verdict d source s (evaluate d source s) := by
  cases hp : Expression.parse source with
  | error problem =>
    have hr : Refused d source s := .malformed hp
    simpa [evaluate, Act.record, Act.warn, run_bind, run_map, hp, Stage.noting] using
      Verdict.refused hr (.malformed problem)
  | ok e =>
    cases hg : Fields.get? d e.target with
    | none =>
      have hv := Verdict.refused (.notMounted hp hg : Refused d source s) (.notMounted e)
      simpa [evaluate_ok hp, evaluateExpression, hg, Act.record, Act.warn, run_bind,
        Stage.noting] using hv
    | some entry =>
      cases hc : e.call with
      | none =>
        simpa [evaluate_ok hp, evaluateExpression, hg, hc] using
          Verdict.referred (s := s) hp hg hc
      | some call => exact evaluate_call hp hg hc s

section
variable {d : Directory} {source : String} {s : Stage W} {result : Resolved × Stage W}

theorem Verdict.journal (h : Verdict d source s result) :
    ∃ said, result.2.journal = s.journal ++ said ∧ Evaluation d source said := by
  cases h with
  | refused _ w => exact ⟨_, rfl, .warned w⟩
  | referred => exact ⟨_, rfl, .silent⟩
  | answered hp => exact ⟨_, rfl, .called hp⟩
  | failed hp _ _ w => exact ⟨_, rfl, .failed hp w⟩

omit [Widget W] in
/-- Nothing is called where an evaluation is refused. -/
theorem Refused.not_permitted (hr : Refused d source s) (hp : Permits d source h method args) :
    s.free? h = none := by
  cases hp with
  | mk hp hg hc ha =>
    cases hr with
    | malformed hp' => cases hp.symm.trans hp'
    | notMounted hp' hg' =>
      cases hp.symm.trans hp'
      cases hg.symm.trans hg'
    | notAvailable hp' hg' hc' ha' =>
      cases hp.symm.trans hp'
      cases hg.symm.trans hg'
      cases hc.symm.trans hc'
      exact (ha' ha).elim
    | targetBusy hp' hg' hc' _ hb =>
      cases hp.symm.trans hp'
      cases hg.symm.trans hg'
      cases hc.symm.trans hc'
      exact hb

/-- A refused evaluation is undefined. A warning is all that comes of it. -/
theorem Verdict.of_refused (h : Verdict d source s result) (hr : Refused d source s) :
    ∃ w, result = (.undefined, s.noting [.evaluated d source, .warned w]) := by
  cases h with
  | refused _ w => exact ⟨w, rfl⟩
  | referred hp hg hc =>
    cases hr with
    | malformed hp' => cases hp.symm.trans hp'
    | notMounted hp' hg' =>
      cases hp.symm.trans hp'
      cases hg.symm.trans hg'
    | notAvailable hp' _ hc' | targetBusy hp' _ hc' =>
      cases hp.symm.trans hp'
      cases hc.symm.trans hc'
  | answered hp hf | failed hp hf => cases (hr.not_permitted hp).symm.trans hf

/-- Unless it is refused, an evaluation is undefined only if its call failed. -/
theorem Verdict.of_undefined (h : Verdict d source s result) (hu : result.1 = .undefined) :
    Refused d source s ∨ ∃ h method args widget error, Permits d source h method args ∧
      s.free? h = some widget ∧ (Widget.invoke widget method args).1 = .error error := by
  cases h with
  | refused hr => exact .inl hr
  | referred | answered => cases hu
  | failed hp hf ha => exact .inr ⟨_, _, _, _, _, hp, hf, ha⟩

end

-- ---------------------------------------------------------------------------
-- What evaluates
-- ---------------------------------------------------------------------------

/-- Whatever the stage is like, the act evaluates in this directory only, and
the journal goes on in order. -/
def Inquires (d : Directory) (act : Act W α) : Prop := ∀ s, Continues (· = d) s (act s).2

namespace Inquires

variable {d : Directory}

omit [Widget W] in
theorem pure (a : α) : Inquires d (Pure.pure a : Act W α) := fun s => .refl s

omit [Widget W] in
theorem bind {m : Act W α} {f : α → Act W β} (hm : Inquires d m) (hf : ∀ a, Inquires d (f a)) :
    Inquires d (m >>= f) := fun s => (hm s).trans (hf _ _)

omit [Widget W] in
theorem ite {c : Prop} [Decidable c] {m n : Act W α} (hm : Inquires d m) (hn : Inquires d n) :
    Inquires d (if c then m else n) := by
  split
  · exact hm
  · exact hn

omit [Widget W] in
theorem of_said {act : Act W α} (h : Says (fun e => e.isInquiry = false) act) :
    Inquires d act := fun s => .of_extends (h s)

omit [Widget W] in
theorem warn (w : Warning) : Inquires d (Act.warn w : Act W Unit) := of_said (.warn rfl)

omit [Widget W] in
theorem warnThen (w : Warning) (a : α) :
    Inquires d (do Act.warn w; Pure.pure a : Act W α) := (warn w).bind fun _ => .pure a

theorem evaluate (source : String) : Inquires d (Live.evaluate d source : Act W Resolved) := by
  intro s
  obtain ⟨said, hj, hs⟩ := (evaluate_verdict d source s).journal
  exact ⟨said, hj, hs.orderly rfl⟩

end Inquires

theorem Asks.inquires {T : String → Prop} {d : Directory} {act : Act W α} (h : Asks d T act) :
    Inquires d act := by
  induction h with
  | pure a => exact .pure a
  | aside _ _ ih => exact .bind (.warn _) fun _ => ih
  | evaluate _ _ ih => exact .bind (.evaluate _) ih

theorem dispatch_inquires (bs : Bindings) (d : Directory) (handlers : Handlers) (event : Event) :
    Inquires d (dispatch bs d handlers event : Act W Bool) := by
  unfold dispatch
  split
  · exact .pure _
  next binding _ =>
    split
    · exact .warnThen _ _
    · have ha : Asks d (fun _ => True) (resolveArguments d binding.args : Act W (Fields Resolved)) :=
        resolveArguments_asks d fun _ _ _ _ => trivial
      have hs (script : Script) : Inquires d (script.run : Act W Unit) :=
        .of_said ((script_reports script).mono fun _ => Effect.isInquiry_of_isAside)
      exact .bind ha.inquires fun _ => .bind (.of_said (.record rfl)) fun _ =>
        .bind (hs _) fun _ => .pure _

namespace Source

theorem setState_inquires (d : Directory) (src : Source) (state : FetchState) :
    Inquires d (src.setState state : Act W Source) := by
  refine .bind (.of_said (.push rfl)) fun pushed => ?_
  cases pushed with
  | true => exact .pure _
  | false => exact .warnThen _ _

theorem fetch_inquires (src : Source) (ctx : Context) (endpoint : String) :
    Inquires ctx.directory (src.fetch ctx endpoint : Act W (Ticket × Source)) := by
  refine .bind (compose_asks ctx endpoint fun _ hs => hs).inquires fun _ => ?_
  refine .bind (setState_inquires _ _ _) fun _ => ?_
  exact .bind (.of_said (.submit fun _ => rfl)) fun _ => .pure _

theorem mount_inquires (src : Source) (ctx : Context) :
    Inquires ctx.directory (src.mount ctx : Act W Source) := by
  unfold mount
  refine .ite (setState_inquires _ _ _) ?_
  split
  · exact setState_inquires _ _ _
  · exact .bind (src.fetch_inquires ctx _) fun _ => .pure _
  · exact setState_inquires _ _ _

theorem refresh_inquires (src : Source) (ctx : Context) :
    Inquires ctx.directory (src.refresh ctx : Act W (Bool × Source)) := by
  unfold refresh
  split
  · exact .bind (src.fetch_inquires ctx _) fun _ => .pure _
  · exact .ite (.warnThen _ _) (.bind (src.mount_inquires ctx) fun _ => .pure _)

theorem apply_inquires (d : Directory) (src : Source) (c : Completion) :
    Inquires d (src.apply c : Act W (Bool × Source)) := by
  unfold apply
  refine .ite ?_ (.pure _)
  split
  · exact .bind (setState_inquires _ _ _) fun _ => .pure _
  · exact .bind (.warn _) fun _ => .bind (setState_inquires _ _ _) fun _ => .pure _

end Source

end LiveLayout.Live
