import LiveLayout.Proofs.SourceLaws

/-!
# What goes into the journal

Acts only add to the journal, and what they add can be told from what they work
on: which texts are evaluated and in which directory, what is called there, who
is given data, and whose requests are submitted. Whatever is said about effects
later is said about the few kinds that are told apart here.
-/

namespace LiveLayout

namespace Expression

/-- The text is that of an expression. -/
def Parses (source : String) : Prop := ∃ e, parse source = .ok e

end Expression

namespace Live

open Expression (Parses)
open Layout (Remote Cascade)

section
variable {W : Type}

/-- The journal goes on, with effects of a kind. -/
def Extends (P : Effect → Prop) (s s' : Stage W) : Prop :=
  ∃ said, s'.journal = s.journal ++ said ∧ ∀ e ∈ said, P e

variable {P : Effect → Prop}

theorem Extends.refl (s : Stage W) : Extends P s s := ⟨[], by simp⟩

theorem Extends.of_eq {s s' : Stage W} (h : s'.journal = s.journal) : Extends P s s' :=
  ⟨[], by simp [h]⟩

theorem Extends.trans {s s' s'' : Stage W} (h : Extends P s s') (h' : Extends P s' s'') :
    Extends P s s'' := by
  obtain ⟨first, hf, hfp⟩ := h
  obtain ⟨second, hs, hsp⟩ := h'
  refine ⟨first ++ second, by rw [hs, hf, List.append_assoc], fun e he => ?_⟩
  exact (List.mem_append.mp he).elim (hfp e) (hsp e)

theorem Extends.mono {Q : Effect → Prop} {s s' : Stage W} (h : Extends P s s')
    (hpq : ∀ e, P e → Q e) : Extends Q s s' := by
  obtain ⟨said, hj, hs⟩ := h
  exact ⟨said, hj, fun e he => hpq e (hs e he)⟩

/-- Whatever the stage is like, the act adds effects of a kind to the journal,
and does nothing else to it. -/
def Says (P : Effect → Prop) (act : Act W α) : Prop := ∀ s, Extends P s (act s).2

namespace Says

theorem mono {Q : Effect → Prop} {act : Act W α} (h : Says P act) (hpq : ∀ e, P e → Q e) :
    Says Q act := fun s => (h s).mono hpq

theorem pure (a : α) : Says P (Pure.pure a : Act W α) := fun s => .refl s

theorem bind {m : Act W α} {f : α → Act W β} (hm : Says P m) (hf : ∀ a, Says P (f a)) :
    Says P (m >>= f) := fun s => (hm s).trans (hf _ _)

theorem ite {c : Prop} [Decidable c] {m n : Act W α} (hm : Says P m) (hn : Says P n) :
    Says P (if c then m else n) := by
  split
  · exact hm
  · exact hn

theorem record {e : Effect} (he : P e) : Says P (Act.record e : Act W Unit) :=
  fun _ => ⟨[e], rfl, by simpa using he⟩

theorem warn {w : Warning} (hw : P (.warned w)) : Says P (Act.warn w : Act W Unit) := record hw

theorem warnThen {w : Warning} (hw : P (.warned w)) (a : α) :
    Says P (do Act.warn w; Pure.pure a : Act W α) := (warn hw).bind fun _ => .pure a

theorem submit {job : Job} (hj : ∀ number, P (.submitted number job)) :
    Says P (Act.submit job : Act W Unit) := fun _ => ⟨[_], rfl, by simpa using hj _⟩

variable [Widget W]

theorem invoke {caller : Caller} {h : Handle} {method : String} {args : List Json}
    (hp : P (.invoked caller h method args)) :
    Says P (Act.invoke caller h method args : Act W (Option Answer)) := by
  intro s
  rw [invoke_run]
  cases s.free? h with
  | none => exact .refl s
  | some w => exact ⟨[_], rfl, by simpa using hp⟩

theorem push {h : Handle} {payload : Payload} (hp : P (.pushed h payload)) :
    Says P (Act.push h payload : Act W Bool) := by
  intro s
  simp only [Act.push, run_bind, run_get]
  cases s.free? h with
  | none => exact .refl s
  | some w => exact ⟨[_], rfl, by simpa using hp⟩

end Says

end

-- ---------------------------------------------------------------------------
-- Evaluating
-- ---------------------------------------------------------------------------

/-- What comes of evaluating texts of a kind in a directory. -/
inductive Evaluates (d : Directory) (T : String → Prop) : Effect → Prop
  | aside (he : e.isAside = true) : Evaluates d T e
  | evaluated (ht : T source) : Evaluates d T (.evaluated d source)
  | malformed (ht : T source) (hp : Expression.parse source = .error problem) :
      Evaluates d T (.warned (.malformed problem))
  | notMounted (ht : T source) (hp : Expression.parse source = .ok e)
      (hg : Fields.get? d e.target = none) : Evaluates d T (.warned (.notMounted e))
  | invoked (ht : T source) (hp : Expression.parse source = .ok e)
      (hg : Fields.get? d e.target = some entry) (hc : e.call = some call)
      (ha : call.method ∈ entry.capabilities.methods) :
      Evaluates d T (.invoked .expression entry.handle call.method call.args)

theorem Evaluates.mono {d : Directory} {T U : String → Prop} (h : Evaluates d T e)
    (hu : ∀ source, T source → U source) : Evaluates d U e := by
  cases h with
  | aside he => exact .aside he
  | evaluated ht => exact .evaluated (hu _ ht)
  | malformed ht hp => exact .malformed (hu _ ht) hp
  | notMounted ht hp hg => exact .notMounted (hu _ ht) hp hg
  | invoked ht hp hg hc ha => exact .invoked (hu _ ht) hp hg hc ha

/-- Only texts of expressions were evaluated, and none was found not to be one. -/
def Effect.Readable : Effect → Prop
  | .evaluated _ source => Parses source
  | .warned (.malformed _) => False
  | _ => True

theorem Effect.readable_of_isAside {e : Effect} (he : e.isAside = true) : e.Readable := by
  unfold Effect.Readable
  split
  · cases he
  · cases he
  · trivial

theorem Evaluates.readable {d : Directory} {T : String → Prop} (h : Evaluates d T e)
    (ht : ∀ source, T source → Parses source) : e.Readable := by
  cases h with
  | aside he => exact Effect.readable_of_isAside he
  | evaluated hs => exact ht _ hs
  | malformed hs hp =>
    obtain ⟨e, he⟩ := ht _ hs
    cases he.symm.trans hp
  | notMounted | invoked => trivial

variable {W : Type} {T : String → Prop}

theorem Says.remarkThen {d : Directory} {w : Warning} (hw : (Effect.warned w).isAside = true)
    (a : α) : Says (Evaluates d T) (do Act.warn w; Pure.pure a : Act W α) :=
  .warnThen (.aside hw) a

variable [Widget W]

theorem evaluateExpression_reports (d : Directory) {e : Expression} (ht : T source)
    (hp : Expression.parse source = .ok e) :
    Says (Evaluates d T) (evaluateExpression d e : Act W Resolved) := by
  unfold evaluateExpression
  split
  next hg => exact .warnThen (.notMounted ht hp hg) _
  next entry hg =>
    split
    · exact .pure _
    next call hc =>
      split
      next ha =>
        have hi := Evaluates.invoked ht hp hg hc (Capabilities.allows_iff.mp ha)
        refine .bind (.invoke hi) fun answer => ?_
        rcases answer with _ | _ | _
        · exact .remarkThen rfl _
        · exact .remarkThen rfl _
        · exact .pure _
      next => exact .remarkThen rfl _

theorem evaluate_reports (d : Directory) {source : String} (ht : T source) :
    Says (Evaluates d T) (evaluate d source : Act W Resolved) := by
  unfold evaluate
  refine .bind (.record (.evaluated ht)) fun _ => ?_
  split
  next hp => exact .warnThen (.malformed ht hp) _
  next hp => exact evaluateExpression_reports d ht hp

/-- What comes of asking is what comes of the evaluations. -/
theorem Asks.reports {d : Directory} {act : Act W α} (h : Asks d T act) :
    Says (Evaluates d T) act := by
  induction h with
  | pure a => exact .pure a
  | aside hw _ ih => exact .bind (.warn (.aside hw)) fun _ => ih
  | evaluate ht _ ih => exact .bind (evaluate_reports d ht) ih

-- ---------------------------------------------------------------------------
-- Sources
-- ---------------------------------------------------------------------------

namespace Source

/-- The expressions of what a source asks for. -/
def texts (src : Source) : List String := (src.feed.map Layout.Feed.expressions).getD []

theorem texts_eq {src src' : Source} (h : src'.origin = src.origin) : src'.texts = src.texts := by
  have hf : src'.feed = src.feed := (congrArg Source.feed h :)
  rw [texts, hf, texts]

/-- What comes of work on a source. -/
inductive Works (d : Directory) (src : Source) : Effect → Prop
  | evaluates (he : Evaluates d (· ∈ src.texts) e) : Works d src e
  | pushed : Works d src (.pushed src.widget payload)
  | submitted (hj : job.ticket.node = src.key) : Works d src (.submitted number job)

theorem Works.of_origin {d : Directory} {src src' : Source} (h : Works d src' e)
    (ho : src'.origin = src.origin) : Works d src e := by
  have hw : src'.widget = src.widget := (congrArg Source.widget ho :)
  have hk : src'.key = src.key := (congrArg Source.key ho :)
  cases h with
  | evaluates he => exact .evaluates (texts_eq ho ▸ he)
  | pushed => exact hw ▸ .pushed
  | submitted hj => exact .submitted (hj.trans hk)

/-- All that a source ever asks for can be evaluated. -/
def Readable (src : Source) : Prop := ∀ source ∈ src.texts, Parses source

theorem Works.readable {d : Directory} {src : Source} (h : Works d src e) (hs : src.Readable) :
    e.Readable := by
  cases h with
  | evaluates he => exact he.readable hs
  | pushed | submitted => trivial

theorem texts_remote (src : Source) (endpoint : String) :
    ∀ source ∈ (src.remote endpoint).expressions, source ∈ src.texts := by
  unfold Source.remote
  split
  next r hf =>
    have ht : src.texts = r.expressions := by simp [texts, hf, Layout.Feed.expressions]
    exact ht ▸ fun _ h => h
  next => simp [Layout.Remote.plain, Layout.Remote.expressions, Setting.entryExpressions]

theorem setState_reports (d : Directory) (src : Source) (state : FetchState) :
    Says (src.Works d) (src.setState state : Act W Source) := by
  refine .bind (.push .pushed) fun pushed => ?_
  cases pushed with
  | true => exact .pure _
  | false => exact .warnThen (.evaluates (.aside rfl)) _

theorem fetch_reports (src : Source) (ctx : Context) (endpoint : String) :
    Says (src.Works ctx.directory) (src.fetch ctx endpoint : Act W (Ticket × Source)) := by
  have hc := compose_asks (W := W) ctx endpoint (src.texts_remote endpoint)
  refine .bind (hc.reports.mono fun _ => .evaluates) fun _ => ?_
  refine .bind ((setState_reports _ _ _).mono fun _ he => he.of_origin rfl) fun _ => ?_
  exact .bind (.submit fun _ => .submitted rfl) fun _ => .pure _

theorem mount_reports (src : Source) (ctx : Context) :
    Says (src.Works ctx.directory) (src.mount ctx : Act W Source) := by
  unfold Source.mount
  refine .ite (setState_reports _ _ _) ?_
  split
  · exact setState_reports _ _ _
  · exact .bind (src.fetch_reports ctx _) fun _ => .pure _
  · exact setState_reports _ _ _

theorem refresh_reports (src : Source) (ctx : Context) :
    Says (src.Works ctx.directory) (src.refresh ctx : Act W (Bool × Source)) := by
  unfold Source.refresh
  split
  · exact .bind (src.fetch_reports ctx _) fun _ => .pure _
  · exact .ite (.warnThen (.evaluates (.aside rfl)) _)
      (.bind (src.mount_reports ctx) fun _ => .pure _)

theorem reset_reports (d : Directory) (src : Source) :
    Says (src.Works d) (src.reset : Act W Source) :=
  (setState_reports _ _ _).mono fun _ he => he.of_origin rfl

theorem apply_reports (d : Directory) (src : Source) (c : Completion) :
    Says (src.Works d) (src.apply c : Act W (Bool × Source)) := by
  unfold Source.apply
  refine .ite ?_ (.pure _)
  split
  · exact .bind (setState_reports _ _ _) fun _ => .pure _
  · exact .bind (.warn (.evaluates (.aside rfl))) fun _ =>
      .bind (setState_reports _ _ _) fun _ => .pure _

end Source

-- ---------------------------------------------------------------------------
-- Events
-- ---------------------------------------------------------------------------

/-- A script only reports outcomes and calls methods. -/
theorem script_says {P : Effect → Prop} (ht : ∀ outcome, P (.told outcome))
    (hi : ∀ target method args, P (.invoked .handler target method args)) (script : Script) :
    Says P (script.run : Act W Unit) := by
  induction script with
  | done => exact .pure _
  | report outcome next ih => exact .bind (.record (ht outcome)) fun _ => ih
  | invoke target method args next ih =>
    rw [Script.run]
    refine .bind (.invoke (hi target method args)) fun answer => ?_
    cases answer with
    | none => exact ih _
    | some answer => exact ih _

theorem script_reports (script : Script) :
    Says (·.isAside = true) (script.run : Act W Unit) :=
  script_says (fun _ => rfl) (fun _ _ _ => rfl) script

/-- What comes of an event, for its handler. -/
inductive Answers (bs : Bindings) (d : Directory) (T : String → Prop) (node : NodeKey) :
    Effect → Prop
  | evaluates (he : Evaluates d T e) : Answers bs d T node e
  | called (hb : b ∈ bs) (hn : b.node = node) (hs : event.source = node) :
      Answers bs d T node (.called b.binding.handler event args)

theorem dispatch_reports {bs : Bindings}
    (h : ∀ b ∈ bs, ∀ a ∈ b.binding.args, ∀ source, a.2.expression? = some source → T source)
    (d : Directory) (handlers : Handlers) (event : Event) :
    Says (Answers bs d T event.source) (dispatch bs d handlers event : Act W Bool) := by
  unfold dispatch
  split
  · exact .pure _
  next binding hb =>
    obtain ⟨b, hf, rfl⟩ := Option.map_eq_some_iff.mp hb
    have hm := List.mem_of_find?_eq_some hf
    have hn : b.node = event.source := by
      have hi := List.find?_some hf
      simp only [Bindings.isFor, Bool.and_eq_true, decide_eq_true_eq] at hi
      exact hi.1
    split
    · exact .warnThen (.evaluates (.aside rfl)) _
    · refine .bind ((resolveArguments_asks d (h b hm)).reports.mono fun _ => .evaluates) fun _ => ?_
      refine .bind (.record (.called hm hn rfl)) fun _ => ?_
      exact .bind ((script_reports _).mono fun _ he => .evaluates (.aside he)) fun _ => .pure _

end Live

end LiveLayout
