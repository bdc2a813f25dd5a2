import Mathlib
import LiveLayout.Proofs.Exhibits
import LiveLayout.Proofs.Saying
import LiveLayout.Rehearsal.Handler
import LiveLayout.Rehearsal.Widget

/-!
# What a handler is given

Before a handler is called the arguments of its binding are resolved one after
the other. An argument that is an expression is evaluated, any other stands for
itself, and so do expressions that stand inside of it. Hence all expressions of
the arguments are evaluated just if none of them stands inside of an argument.
-/

namespace LiveLayout

/-- Has no expressions inside of it, be it one itself or not. -/
def Setting.Plain (s : Setting) : Prop := s.expression?.toList = s.expressions

theorem Setting.expression?_sublist (s : Setting) : s.expression?.toList.Sublist s.expressions := by
  cases s with
  | expression source => exact .refl _
  | _ => exact List.nil_sublist _

namespace Live

open Layout (Binding)

-- ---------------------------------------------------------------------------
-- Evaluations in order
-- ---------------------------------------------------------------------------

def Effect.text? : Effect → Option String
  | .evaluated _ source => some source
  | _ => none

/-- The texts that were evaluated, in order. -/
def evaluations (said : List Effect) : List String := said.filterMap Effect.text?

section
variable {W : Type}

/-- Whatever the stage is like, the act evaluates these texts, in this order. -/
def Notes (texts : List String) (act : Act W α) : Prop :=
  ∀ s, ∃ said, (act s).2.journal = s.journal ++ said ∧ evaluations said = texts

namespace Notes

theorem pure (a : α) : Notes [] (Pure.pure a : Act W α) := fun _ => ⟨[], by simp [evaluations]⟩

theorem bind {m : Act W α} {f : α → Act W β} (hm : Notes texts m) (hf : ∀ a, Notes more (f a)) :
    Notes (texts ++ more) (m >>= f) := by
  intro s
  obtain ⟨first, hj, rfl⟩ := hm s
  obtain ⟨second, hj', rfl⟩ := hf (m s).1 (m s).2
  refine ⟨first ++ second, ?_, List.filterMap_append⟩
  rw [run_bind, hj', hj, List.append_assoc]

theorem ite {c : Prop} [Decidable c] {m n : Act W α} (hm : Notes texts m) (hn : Notes texts n) :
    Notes texts (if c then m else n) := by
  split
  · exact hm
  · exact hn

theorem record (e : Effect) : Notes e.text?.toList (Act.record e : Act W Unit) := by
  refine fun _ => ⟨[e], rfl, ?_⟩
  cases he : e.text? <;> simp [evaluations, he]

theorem warnThen (w : Warning) (a : α) : Notes [] (do Act.warn w; Pure.pure a : Act W α) :=
  (record (.warned w)).bind fun _ => .pure a

theorem invoke [Widget W] (caller : Caller) (h : Handle) (method : String) (args : List Json) :
    Notes [] (Act.invoke caller h method args : Act W (Option Answer)) := by
  intro s
  rw [invoke_run]
  cases s.free? h with
  | none => exact ⟨[], by simp [evaluations]⟩
  | some w => exact ⟨[_], rfl, rfl⟩

/-- What is evaluated goes with what is said about all of it. -/
theorem said {P : Effect → Prop} {act : Act W α} (hn : Notes texts act) (hs : Says P act)
    (s : Stage W) :
    ∃ said, (act s).2.journal = s.journal ++ said ∧ evaluations said = texts ∧ ∀ e ∈ said, P e := by
  obtain ⟨said, hj, ht⟩ := hn s
  obtain ⟨said', hj', hp⟩ := hs s
  obtain rfl := List.append_cancel_left (hj.symm.trans hj')
  exact ⟨said, hj, ht, hp⟩

end Notes

end

variable {W : Type} [Widget W]

theorem evaluateExpression_notes (d : Directory) (e : Expression) :
    Notes [] (evaluateExpression d e : Act W Resolved) := by
  unfold evaluateExpression
  split
  · exact .warnThen _ _
  · split
    · exact .pure _
    · refine .ite (.bind (.invoke _ _ _ _) fun answer => ?_) (.warnThen _ _)
      rcases answer with _ | _ | _
      · exact .warnThen _ _
      · exact .warnThen _ _
      · exact .pure _

theorem evaluate_notes (d : Directory) (source : String) :
    Notes [source] (evaluate d source : Act W Resolved) := by
  unfold evaluate
  refine .bind (.record (.evaluated d source)) fun _ => ?_
  split
  · exact .warnThen _ _
  · exact evaluateExpression_notes d _

theorem resolve_notes (d : Directory) (s : Setting) :
    Notes s.expression?.toList (resolve d s : Act W Resolved) := by
  cases s with
  | expression source => exact evaluate_notes d source
  | _ => exact .pure _

/-- The texts of the arguments that are expressions. -/
def argumentTexts (args : Fields Setting) : List String := args.flatMap (·.2.expression?.toList)

theorem resolveArguments_notes (d : Directory) (args : Fields Setting) :
    Notes (argumentTexts args) (resolveArguments d args : Act W (Fields Resolved)) := by
  induction args with
  | nil => exact .pure _
  | cons p rest ih =>
    have hb := (resolve_notes (W := W) d p.2).bind fun v => ih.bind fun vs => .pure ((p.1, v) :: vs)
    simpa [argumentTexts, resolveArguments] using hb

theorem mem_argumentTexts {args : Fields Setting} (ha : a ∈ args)
    (hs : a.2.expression? = some source) : source ∈ argumentTexts args :=
  List.mem_flatMap.mpr ⟨a, ha, by simp [hs]⟩

/-- Lists that are parts of others make up the same whole just if they are the
others. -/
theorem flatMap_eq_iff_of_sublist {f g : α → List β} {l : List α}
    (h : ∀ a ∈ l, (f a).Sublist (g a)) :
    l.flatMap f = l.flatMap g ↔ ∀ a ∈ l, f a = g a := by
  induction l with
  | nil => simp
  | cons a rest ih =>
    obtain ⟨ha, hr⟩ := List.forall_mem_cons.mp h
    have hrest := (List.Sublist.flatMap_right rest hr).length_le
    rw [List.forall_mem_cons, ← ih hr, List.flatMap_cons, List.flatMap_cons]
    constructor
    · intro he
      have hlen := congrArg List.length he
      have hle := ha.length_le
      simp only [List.length_append] at hlen
      have hfirst : f a = g a := ha.eq_of_length (by omega)
      rw [hfirst] at he
      exact ⟨hfirst, List.append_cancel_left he⟩
    · rintro ⟨h1, h2⟩
      rw [h1, h2]

theorem argumentTexts_eq_iff (args : Fields Setting) :
    argumentTexts args = args.flatMap (·.2.expressions) ↔ ∀ a ∈ args, a.2.Plain :=
  flatMap_eq_iff_of_sublist fun a _ => a.2.expression?_sublist

-- ---------------------------------------------------------------------------
-- Calling the handler
-- ---------------------------------------------------------------------------

/-- Arguments and what they are given as, from left to right. Expressions are
evaluated, each on the stage as the one before left it. Whatever else there is
stands for itself. -/
inductive Resolves (d : Directory) : Stage W → Fields Setting → Fields Resolved → Stage W → Prop
  | nil : Resolves d s [] [] s
  | expression (h : Resolves d (evaluate d source s).2 rest vs s') :
      Resolves d s ((name, .expression source) :: rest) ((name, (evaluate d source s).1) :: vs) s'
  | literal (hl : v.expression? = none) (h : Resolves d s rest vs s') :
      Resolves d s ((name, v) :: rest) ((name, .value v.toJson) :: vs) s'

theorem resolveArguments_resolves (d : Directory) (args : Fields Setting) (s : Stage W) :
    Resolves d s args (resolveArguments d args s).1 (resolveArguments d args s).2 := by
  induction args generalizing s with
  | nil => exact .nil
  | cons p rest ih =>
    obtain ⟨name, v⟩ := p
    cases v with
    | expression source => exact .expression (ih _)
    | _ => exact .literal rfl (ih _)

/-- The handler of a binding is called, once, with the resolved arguments. To
resolve them just these texts were evaluated, in this order, and all of them
before the call. -/
inductive CallsAfter (d : Directory) (event : Event) (binding : Binding) (texts : List String)
    (s : Stage W) : Stage W → Prop
  | mk (hr : Resolves d s binding.args args reached) (hj : reached.journal = s.journal ++ before)
      (ht : evaluations before = texts) (hb : ∀ e ∈ before, Evaluates d (· ∈ texts) e)
      (hc : s'.journal = reached.journal ++ .called binding.handler event args :: after)
      (ha : ∀ e ∈ after, e.isAside = true) : CallsAfter d event binding texts s s'

theorem dispatch_run {bs : Bindings} {handlers : Handlers} {event : Event}
    (hb : Bindings.get? bs event.source event.name = some binding)
    (hh : Fields.get? handlers binding.handler = some handler) (d : Directory) (s : Stage W) :
    dispatch bs d handlers event s =
      let resolved := resolveArguments d binding.args s
      let called := (Act.record (.called binding.handler event resolved.1) resolved.2).2
      (true, ((handler event resolved.1).run called).2) := by
  simp only [dispatch, hb, hh]
  rfl

theorem dispatch_calls {bs : Bindings} {handlers : Handlers} {event : Event}
    (hb : Bindings.get? bs event.source event.name = some binding)
    (hh : Fields.get? handlers binding.handler = some handler) (d : Directory) (s : Stage W) :
    CallsAfter d event binding (argumentTexts binding.args) s (dispatch bs d handlers event s).2 := by
  rw [dispatch_run hb hh]
  have hm : ∀ a ∈ binding.args, ∀ source, a.2.expression? = some source →
      source ∈ argumentTexts binding.args := fun a ha source => mem_argumentTexts ha
  obtain ⟨before, hj, ht, hp⟩ :=
    (resolveArguments_notes d binding.args).said (resolveArguments_asks (W := W) d hm).reports s
  obtain ⟨after, ha, hq⟩ := script_reports (handler event (resolveArguments d binding.args s).1)
    (Act.record (.called binding.handler event (resolveArguments d binding.args s).1)
      (resolveArguments d binding.args s).2).2
  refine .mk (resolveArguments_resolves d binding.args s) hj ht hp (ha.trans ?_) hq
  exact List.append_assoc _ [_] after

/-- A handler is called. -/
def Effect.IsCall (e : Effect) : Prop := ∃ name event args, e = .called name event args

theorem Effect.not_isCall_of_isAside {e : Effect} (h : e.isAside = true) : ¬e.IsCall := by
  rintro ⟨name, event, args, rfl⟩
  cases h

/-- A call tells which texts were evaluated for it. -/
theorem CallsAfter.texts_eq {d : Directory} {event : Event} {binding : Binding}
    {texts more : List String} {s s' : Stage W} (h : CallsAfter d event binding texts s s')
    (h' : CallsAfter d event binding more s s') : texts = more := by
  obtain @⟨_, _, _, _, _, -, hj, rfl, -, hc, ha⟩ := h
  obtain @⟨_, _, _, _, _, -, hj', rfl, -, hc', ha'⟩ := h'
  -- what a handler does is no call, so the call cuts the journal in one way only
  have he := eq_of_append_cons (p := Effect.IsCall) ⟨_, _, _, rfl⟩ ⟨_, _, _, rfl⟩
    (fun e he => Effect.not_isCall_of_isAside (ha e he))
    (fun e he => Effect.not_isCall_of_isAside (ha' e he)) (hc.symm.trans hc')
  rw [hj, hj'] at he
  rw [List.append_cancel_left he]

theorem callsAfter_expressions_iff {bs : Bindings} {handlers : Handlers} {event : Event}
    (hb : Bindings.get? bs event.source event.name = some binding)
    (hh : Fields.get? handlers binding.handler = some handler) (d : Directory) (s : Stage W) :
    CallsAfter d event binding (binding.args.flatMap (·.2.expressions)) s
        (dispatch bs d handlers event s).2 ↔ ∀ a ∈ binding.args, a.2.Plain := by
  rw [← argumentTexts_eq_iff]
  constructor
  · exact (dispatch_calls hb hh d s).texts_eq
  · intro he
    rw [← he]
    exact dispatch_calls hb hh d s

/-- An event with a handler calls it once, after the arguments that are
expressions were evaluated, each once and in order. These are all expressions of
the arguments just if no argument has expressions inside of it: such ones reach
the handler as they are written. -/
theorem dispatch_resolves {bs : Bindings} {handlers : Handlers} {event : Event}
    (hb : Bindings.get? bs event.source event.name = some binding)
    (hh : Fields.get? handlers binding.handler = some handler) (d : Directory) (s : Stage W) :
    (dispatch bs d handlers event s).1 = true ∧
      CallsAfter d event binding (argumentTexts binding.args) s
        (dispatch bs d handlers event s).2 ∧
      (CallsAfter d event binding (binding.args.flatMap (·.2.expressions)) s
          (dispatch bs d handlers event s).2 ↔ ∀ a ∈ binding.args, a.2.Plain) :=
  ⟨by rw [dispatch_run hb hh], dispatch_calls hb hh d s, callsAfter_expressions_iff hb hh d s⟩

-- ---------------------------------------------------------------------------
-- Rows that are asked for inside of an argument
-- ---------------------------------------------------------------------------

open Rehearsal (StandIn)

def rowsText : String := "$grid.getSelectedRowsData()"

def click : Event := ⟨"click", ⟨1⟩, none, .null⟩

def gridDirectory : Directory := [("grid", ⟨⟨1⟩, ⟨0⟩, .ofList StandIn.usualMethods⟩)]

def gridStage : Stage StandIn :=
  ⟨[StandIn.make "Grid" [("selected", .array [.null])]], [], .empty, []⟩

/-- Asks for the rows in an argument of its own. -/
def plainBinding : Binding :=
  ⟨"go", [("action", .string "delete"), ("rows", .expression rowsText)]⟩

/-- Asks for the rows inside of an argument. -/
def nestedBinding : Binding := ⟨"go", [("filter", .map [("rows", .expression rowsText)])]⟩

/-- On a click. -/
def onClick (binding : Binding) : Bindings := [⟨⟨1⟩, "click", binding⟩]

theorem dispatch_resolves_rows :
    CallsAfter gridDirectory click plainBinding [rowsText] gridStage
      (dispatch (onClick plainBinding) gridDirectory [("go", Rehearsal.quiet)] click gridStage).2 := by
  have hb : Bindings.get? (onClick plainBinding) click.source click.name = some plainBinding := by
    cbv
  have hh : Fields.get? [("go", Rehearsal.quiet)] plainBinding.handler = some Rehearsal.quiet := by
    cbv
  have hp : ∀ a ∈ plainBinding.args, a.2.Plain := by
    simp [plainBinding, Setting.Plain, Setting.expression?, Setting.expressions]
  exact (dispatch_resolves hb hh gridDirectory gridStage).2.2.mpr hp

/-- The text of the expression is given to the handler, and it is not evaluated. -/
theorem nested_text_passed :
    (dispatch (onClick nestedBinding) gridDirectory [("go", Rehearsal.quiet)] click
        gridStage).2.journal =
        [.called "go" click [("filter", .value (.object [("rows", .string rowsText)]))]] ∧
      ¬CallsAfter gridDirectory click nestedBinding
        (nestedBinding.args.flatMap (·.2.expressions)) gridStage
        (dispatch (onClick nestedBinding) gridDirectory [("go", Rehearsal.quiet)] click
          gridStage).2 := by
  have hb : Bindings.get? (onClick nestedBinding) click.source click.name = some nestedBinding := by
    cbv
  have hh : Fields.get? [("go", Rehearsal.quiet)] nestedBinding.handler = some Rehearsal.quiet := by
    cbv
  refine ⟨by cbv, fun hc => ?_⟩
  have hp := (callsAfter_expressions_iff hb hh gridDirectory gridStage).mp hc _ List.mem_cons_self
  cases hp

end Live

end LiveLayout
