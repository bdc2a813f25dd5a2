import LiveLayout.Proofs.Composing
import LiveLayout.Proofs.Inquiries
import LiveLayout.Proofs.Serving

/-!
# What is done, log lines apart

The journal has all that is done and all that is said. Its trace is what is left
without the log lines. The warning that an update was dropped is none of them:
it stands where the update would. For all that an event can lead to, here is
what it leaves in the trace.
-/

namespace LiveLayout.Live

open Layout (Cascade)

/-- Data on their way, to a widget or from a server, also if the widget does not
take them. -/
def Effect.isTransfer : Effect → Bool
  | .pushed .. | .submitted .. | .warned (.updateDropped _) => true
  | _ => false

/-- Only said, and in place of nothing. -/
def Effect.isLogLine : Effect → Bool
  | .warned (.updateDropped _) => false
  | .warned _ | .summed _ => true
  | _ => false

def trace (said : List Effect) : List Effect := said.filter fun e => !e.isLogLine

theorem Effect.isLogLine_warned {w : Warning} (h : (Effect.warned w).isTransfer = false) :
    (Effect.warned w).isLogLine = true := by
  cases w <;> first | rfl | cases h

@[simp] theorem Effect.isLogLine_evaluated (d : Directory) (source : String) :
    (Effect.evaluated d source).isLogLine = false := rfl

@[simp] theorem Effect.isLogLine_invoked (caller : Caller) (target : Handle) (method : String)
    (args : List Json) : (Effect.invoked caller target method args).isLogLine = false := rfl

-- ---------------------------------------------------------------------------
-- Traces
-- ---------------------------------------------------------------------------

section
variable {W : Type} {s s' s'' : Stage W} {deeds more : List Effect}

/-- The journal goes on, with these deeds in its trace. -/
def Traces (deeds : List Effect) (s s' : Stage W) : Prop :=
  ∃ said, s'.journal = s.journal ++ said ∧ trace said = deeds

theorem Traces.refl (s : Stage W) : Traces [] s s := ⟨[], by simp, rfl⟩

theorem Traces.trans (h : Traces deeds s s') (h' : Traces more s' s'') :
    Traces (deeds ++ more) s s'' := by
  obtain ⟨first, hf, rfl⟩ := h
  obtain ⟨second, hs, rfl⟩ := h'
  exact ⟨first ++ second, by rw [hs, hf, List.append_assoc], List.filter_append ..⟩

theorem Traces.record {e : Effect} (he : e.isLogLine = false) (s : Stage W) :
    Traces [e] s (Act.record e s).2 := ⟨[e], rfl, by simp [trace, he]⟩

theorem Traces.submit (job : Job) (s : Stage W) :
    ∃ number, Traces [.submitted number job] s (Act.submit job s).2 :=
  ⟨s.traffic.jobs.length, [_], rfl, rfl⟩

theorem Traces.warn {w : Warning} (hw : (Effect.warned w).isLogLine = true) (s : Stage W) :
    Traces [] s (Act.warn w s).2 := ⟨[.warned w], rfl, by simp [trace, hw]⟩

/-- An act that says no log lines leaves all that it says in the trace. -/
theorem Traces.of_says {P : Effect → Prop} {act : Act W α} (ha : Says P act)
    (hp : ∀ e, P e → e.isLogLine = false) (s : Stage W) :
    ∃ deeds, Traces deeds s (act s).2 ∧ ∀ e ∈ deeds, P e := by
  obtain ⟨said, hj, hs⟩ := ha s
  refine ⟨said, ⟨said, hj, ?_⟩, hs⟩
  exact List.filter_eq_self.mpr fun e he => by simp [hp e (hs e he)]

end

-- ---------------------------------------------------------------------------
-- Evaluations
-- ---------------------------------------------------------------------------

/-- Texts are evaluated one after the other, each with one call at most, which
it permits. -/
inductive Asked (d : Directory) : List String → List Effect → Prop
  | nil : Asked d [] []
  | silent (h : Asked d sources deeds) : Asked d (source :: sources) (.evaluated d source :: deeds)
  | called (hp : Permits d source target method args) (h : Asked d sources deeds) :
      Asked d (source :: sources)
        (.evaluated d source :: .invoked .expression target method args :: deeds)

theorem Asked.append (h : Asked d sources deeds) (h' : Asked d more moreDeeds) :
    Asked d (sources ++ more) (deeds ++ moreDeeds) := by
  induction h with
  | nil => exact h'
  | silent _ ih => exact .silent ih
  | called hp _ ih => exact .called hp ih

theorem Asked.isInquiry (h : Asked d sources deeds) : ∀ e ∈ deeds, e.isInquiry = true := by
  induction h with
  | nil => simp
  | silent _ ih => exact List.forall_mem_cons.mpr ⟨rfl, ih⟩
  | called _ _ ih => exact List.forall_mem_cons.mpr ⟨rfl, List.forall_mem_cons.mpr ⟨rfl, ih⟩⟩

variable {W : Type} [Widget W]

/-- Evaluating moves no data. -/
theorem evaluate_transfers (d : Directory) (source : String) :
    Says (·.isTransfer = false) (evaluate d source : Act W Resolved) := by
  have hwarn (w : Warning) (hw : (Effect.warned w).isTransfer = false) :
      Says (·.isTransfer = false) (do Act.warn w; pure .undefined : Act W Resolved) :=
    .warnThen hw _
  unfold evaluate
  refine .bind (.record rfl) fun _ => ?_
  split
  · exact hwarn _ rfl
  · unfold evaluateExpression
    split
    · exact hwarn _ rfl
    · split
      · exact .pure _
      · refine .ite (.bind (.invoke rfl) fun answer => ?_) (hwarn _ rfl)
        rcases answer with _ | _ | _
        · exact hwarn _ rfl
        · exact hwarn _ rfl
        · exact .pure _

theorem evaluate_traces (d : Directory) (source : String) (s : Stage W) :
    ∃ deeds, Traces deeds s (evaluate d source s).2 ∧ Asked d [source] deeds := by
  obtain ⟨said, hj, he⟩ := (evaluate_verdict d source s).journal
  obtain ⟨said', hj', ht⟩ := evaluate_transfers d source s
  obtain rfl := List.append_cancel_left (hj.symm.trans hj')
  refine ⟨trace said, ⟨said, hj, rfl⟩, ?_⟩
  have hlog : ∀ w, .warned w ∈ said → (Effect.warned w).isLogLine = true := fun w hw =>
    Effect.isLogLine_warned (ht _ hw)
  cases he with
  | silent => exact .silent .nil
  | warned w =>
    have hw := hlog w (by simp)
    simpa [trace, hw] using Asked.silent .nil
  | called hp => exact .called hp .nil
  | failed hp w =>
    have hw := hlog w (by simp)
    simpa [trace, hw] using Asked.called hp .nil

/-- From a stage on, texts are evaluated in turn, each on the stage as those
before it have left it, and this is what is done for them. -/
structure Queried (d : Directory) (s : Stage W) (sources : List String) (deeds : List Effect) :
    Prop where
  queries : ∃ results s', Queries d s sources results s' ∧ Traces deeds s s'
  asked : Asked d sources deeds

theorem Queried.isInquiry {d : Directory} {s : Stage W} (h : Queried d s sources deeds) :
    ∀ e ∈ deeds, e.isInquiry = true := h.asked.isInquiry

theorem Queries.asked {d : Directory} {s s' : Stage W} (h : Queries d s sources results s') :
    ∃ deeds, Traces deeds s s' ∧ Asked d sources deeds := by
  induction h with
  | nil => exact ⟨[], .refl _, .nil⟩
  | @remark w s _ _ _ hw _ ih =>
    obtain ⟨deeds, ht, ha⟩ := ih
    have hlog : (Effect.warned w).isLogLine = true := by cases w <;> first | rfl | cases hw
    exact ⟨deeds, (Traces.warn hlog s).trans ht, ha⟩
  | @evaluate source s _ _ _ _ ih =>
    obtain ⟨first, hf, hfa⟩ := evaluate_traces d source s
    obtain ⟨deeds, ht, ha⟩ := ih
    exact ⟨first ++ deeds, hf.trans ht, hfa.append ha⟩

theorem Queries.traces {d : Directory} {s s' : Stage W} (h : Queries d s sources results s') :
    ∃ deeds, Traces deeds s s' ∧ Queried d s sources deeds := by
  obtain ⟨deeds, ht, ha⟩ := h.asked
  exact ⟨deeds, ht, ⟨results, s', h, ht⟩, ha⟩

-- ---------------------------------------------------------------------------
-- Handlers
-- ---------------------------------------------------------------------------

theorem Resolves.queries {d : Directory} {s s' : Stage W} (h : Resolves d s args vs s') :
    ∃ results, Queries d s (argumentTexts args) results s' := by
  induction h with
  | nil => exact ⟨[], .nil⟩
  | expression _ ih =>
    obtain ⟨results, hq⟩ := ih
    exact ⟨_ :: results, .evaluate hq⟩
  | literal hl _ ih =>
    obtain ⟨results, hq⟩ := ih
    exact ⟨results, by simpa [argumentTexts, hl] using hq⟩

/-- Done by a handler that runs. -/
def Effect.isHandlers : Effect → Bool
  | .told _ | .invoked .handler .. => true
  | _ => false

/-- The handler's part in an event, and whether it was called. The arguments are
evaluated for a handler that there is; then it is called, once, and does what it
does. -/
inductive Handles (bs : Bindings) (d : Directory) (handlers : Handlers) (event : Event)
    (s : Stage W) : Bool → List Effect → Stage W → Prop
  | unbound (hb : Bindings.get? bs event.source event.name = none) :
      Handles bs d handlers event s false [] s
  | missing (hb : Bindings.get? bs event.source event.name = some binding)
      (hh : Fields.get? handlers binding.handler = none) :
      Handles bs d handlers event s false []
        (Act.warn (.handlerMissing event.name binding.handler) s).2
  | called (hb : Bindings.get? bs event.source event.name = some binding)
      (hh : Fields.get? handlers binding.handler = some handler)
      (hr : Resolves d s binding.args args reached)
      (hq : Queried d s (argumentTexts binding.args) asked)
      (ho : ∀ e ∈ own, e.isHandlers = true) :
      Handles bs d handlers event s true (asked ++ .called binding.handler event args :: own)
        ((handler event args).run (Act.record (.called binding.handler event args) reached).2).2

theorem dispatch_traces (bs : Bindings) (d : Directory) (handlers : Handlers) (event : Event)
    (s : Stage W) : ∃ deeds, Traces deeds s (dispatch bs d handlers event s).2 ∧
      Handles bs d handlers event s (dispatch bs d handlers event s).1 deeds
        (dispatch bs d handlers event s).2 := by
  cases hb : Bindings.get? bs event.source event.name with
  | none =>
    simp only [dispatch, hb, run_pure]
    exact ⟨[], .refl s, .unbound hb⟩
  | some binding =>
    cases hh : Fields.get? handlers binding.handler with
    | none =>
      simp only [dispatch, hb, hh, run_bind, run_pure]
      exact ⟨[], .warn rfl s, .missing hb hh⟩
    | some handler =>
      rw [dispatch_run hb hh]
      have hr := resolveArguments_resolves d binding.args s
      generalize resolveArguments d binding.args s = result at hr
      obtain ⟨args, reached⟩ := result
      obtain ⟨results, hq⟩ := hr.queries
      obtain ⟨asked, ht, hq⟩ := hq.traces
      let call : Effect := .called binding.handler event args
      have hcall : Traces [call] reached (Act.record call reached).2 := .record rfl reached
      have hscript : Says (·.isHandlers = true) ((handler event args).run : Act W Unit) :=
        script_says (fun _ => rfl) (fun _ _ _ => rfl) _
      obtain ⟨own, hw, ho⟩ := Traces.of_says hscript
        (fun e he => by cases e <;> first | rfl | cases he) (Act.record call reached).2
      have hall := ht.trans (hcall.trans hw)
      exact ⟨asked ++ call :: own, hall, .called hb hh hr hq ho⟩

-- ---------------------------------------------------------------------------
-- Selections
-- ---------------------------------------------------------------------------

def KeyReading.isAbsent : KeyReading → Bool
  | .absent => true
  | _ => false

/-- The selections that are read for an event: those of the children that follow
it, unless the event itself tells the key, or that there is none. -/
def selections (parent event : String) (payload : Json) (subs : Subscriptions) : List String :=
  (subs.filter fun p => decide (p.2.parent = parent ∧ p.2.event = event) &&
    (keyInPayload payload p.2.keyField).isAbsent).map (·.2.selectionText)

theorem selectedKey_snd (d : Directory) (c : Cascade) (s : Stage W) :
    (selectedKey d c s).2 = (evaluate d c.selectionText s).2 := by
  simp only [selectedKey, run_bind]
  cases (evaluate d c.selectionText s).1 with
  | value selection => cases hk : keyInPayload selection c.keyField <;> simp [hk]
  | undefined | reference => rfl

theorem keyFor_queries (d : Directory) (c : Cascade) (payload : Json) (s : Stage W) :
    ∃ results, Queries d s
      (if (keyInPayload payload c.keyField).isAbsent then [c.selectionText] else []) results
      (keyFor d c payload s).2 := by
  unfold keyFor
  cases keyInPayload payload c.keyField with
  | given | cleared => exact ⟨[], .nil⟩
  | absent => exact ⟨[(evaluate d c.selectionText s).1], selectedKey_snd d c s ▸ .evaluate .nil⟩

theorem actions_queries (d : Directory) (parent event : String) (payload : Json)
    (subs : Subscriptions) (s : Stage W) :
    ∃ results, Queries d s (selections parent event payload subs) results
      (Subscriptions.actions d parent event payload subs s).2 := by
  induction subs generalizing s with
  | nil => exact ⟨[], .nil⟩
  | cons p rest ih =>
    unfold Subscriptions.actions
    by_cases hp : p.2.parent = parent ∧ p.2.event = event
    · obtain ⟨first, hf⟩ := keyFor_queries d p.2 payload s
      obtain ⟨more, hm⟩ := ih (keyFor d p.2 payload s).2
      rw [if_pos hp]
      refine ⟨first ++ more, ?_⟩
      simp only [run_bind, run_pure]
      cases ha : (keyInPayload payload p.2.keyField).isAbsent <;>
        simpa [selections, hp, ha] using hf.append hm
    · rw [if_neg hp]
      obtain ⟨more, hm⟩ := ih s
      exact ⟨more, by simpa [selections, hp] using hm⟩

-- ---------------------------------------------------------------------------
-- Sources
-- ---------------------------------------------------------------------------

/-- The instance of a source is given something, or it is said that it is busy. -/
def delivery (busy : List Handle) (src : Source) (payload : Payload) : Effect :=
  if src.widget ∈ busy then .warned (.updateDropped src.component) else .pushed src.widget payload

theorem isTransfer_delivery (busy : List Handle) (src : Source) (payload : Payload) :
    (delivery busy src payload).isTransfer = true := by
  unfold delivery
  split <;> rfl

namespace Source

variable {src : Source} {s : Stage W}

theorem setState_traces (hp : src.Placed s) (state : FetchState) :
    Traces [delivery s.busy src state.payload] s (src.setState state s).2 := by
  unfold delivery
  by_cases hb : src.widget ∈ s.busy
  · rw [if_pos hb, setState_busy hb]
    exact ⟨[_], rfl, rfl⟩
  · obtain ⟨w, hj⟩ := setState_free hp hb state
    rw [if_neg hb, hj]
    exact ⟨[_], rfl, rfl⟩

theorem reset_traces (hp : src.Placed s) :
    Traces [delivery s.busy src .noData] s (src.reset s).2 := by
  let next : Source := { src with generation := src.generation + 1, lastEndpoint := none }
  have hnext : next.Placed s := hp
  exact setState_traces hnext .idle

/-- What a fetch leaves in the trace: the evaluations for its request, the
loading state, and the request. -/
theorem fetch_traces (hp : src.Placed s) (ctx : Context) (endpoint : String) :
    ∃ asked number, Queried ctx.directory s (src.remote endpoint).expressions asked ∧
      Traces (asked ++ [delivery s.busy src .loading, .submitted number
        ⟨src.nextTicket, (compose ctx (src.remote endpoint) endpoint s).1⟩]) s
        (src.fetch ctx endpoint s).2 := by
  let next : Source := { src with generation := src.generation + 1, lastEndpoint := some endpoint }
  obtain ⟨others, results, hq, -⟩ := compose_queries ctx (src.remote endpoint) endpoint s
  obtain ⟨asked, ht, ha⟩ := hq.traces
  have hl := (compose_talk (W := W) ctx (src.remote endpoint) endpoint).leaves s src.widget
  have hnext : next.Placed (compose ctx (src.remote endpoint) endpoint s).2 :=
    hp.of_count rfl hl.count
  have hset := setState_traces hnext .loading
  rw [hl.busy] at hset
  obtain ⟨number, hsub⟩ := Traces.submit
    ⟨src.nextTicket, (compose ctx (src.remote endpoint) endpoint s).1⟩
    (next.setState .loading (compose ctx (src.remote endpoint) endpoint s).2).2
  have hall := (ht.trans hset).trans hsub
  rw [List.append_assoc] at hall
  exact ⟨asked, number, ha, hall⟩

end Source

end LiveLayout.Live
