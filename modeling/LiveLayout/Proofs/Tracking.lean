import LiveLayout.Proofs.Renumbering
import LiveLayout.Proofs.Settling

/-!
# Acts on a stage with a past

A stage comes after a past if it has what the past left, and then what a stage
without a past has, all numbers moved on. An act tracks another one if it does
the same there, numbers moved on as well. All acts of a layout track themselves:
none of them ever looks at a number but to compare it with another one.
-/

namespace LiveLayout.Live

open Layout (Remote Cascade)

-- ---------------------------------------------------------------------------
-- Tracking
-- ---------------------------------------------------------------------------

/-- From states in a relation, the second run gives what the first one does,
seen through `f`, and both end in states in the relation. -/
structure Tracks (R : σ → σ → Prop) (f : α → β) (m : StateM σ α) (m' : StateM σ β) : Prop where
  run : ∀ s t, R s t → (m' t).1 = f (m s).1 ∧ R (m s).2 (m' t).2

namespace Tracks

variable {R : σ → σ → Prop} {f : α → β}

theorem pure (a : α) : Tracks R f (Pure.pure a) (Pure.pure (f a)) := ⟨fun _ _ h => ⟨rfl, h⟩⟩

theorem bind {g : γ → δ} {m : StateM σ α} {m' : StateM σ β} {k : α → StateM σ γ}
    {k' : β → StateM σ δ} (hm : Tracks R f m m') (hk : ∀ a, Tracks R g (k a) (k' (f a))) :
    Tracks R g (m >>= k) (m' >>= k') := by
  refine ⟨fun s t h => ?_⟩
  obtain ⟨h1, h2⟩ := hm.run s t h
  rw [run_bind, run_bind, h1]
  exact (hk _).run _ _ h2

theorem map {g : α → γ} {g' : β → δ} {k : γ → δ} {m : StateM σ α} {m' : StateM σ β}
    (hm : Tracks R f m m') (hg : ∀ a, g' (f a) = k (g a)) :
    Tracks R k (g <$> m) (g' <$> m') := by
  refine ⟨fun s t h => ?_⟩
  obtain ⟨h1, h2⟩ := hm.run s t h
  rw [run_map, run_map, h1, hg]
  exact ⟨rfl, h2⟩

theorem ite {c : Prop} [Decidable c] {m n : StateM σ α} {m' n' : StateM σ β}
    (hm : Tracks R f m m') (hn : Tracks R f n n') :
    Tracks R f (if c then m else n) (if c then m' else n') := by
  split
  · exact hm
  · exact hn

/-- Both runs look at their own states. -/
theorem reading {k : σ → StateM σ α} {k' : σ → StateM σ β}
    (hk : ∀ s t, R s t → Tracks R f (k s) (k' t)) : Tracks R f (get >>= k) (get >>= k') :=
  ⟨fun s t h => (hk s t h).run s t h⟩

theorem update {k k' : σ → σ} (hk : ∀ s t, R s t → R (k s) (k' t)) :
    Tracks R id (modify k : StateM σ PUnit) (modify k') := ⟨fun s t h => ⟨rfl, hk s t h⟩⟩

end Tracks

-- ---------------------------------------------------------------------------
-- Stages with a past
-- ---------------------------------------------------------------------------

variable {W : Type}

namespace Renderer

/-- The numbers that a renderer has given already. -/
def offset (p : Renderer W) : Offset :=
  ⟨p.nextKey - 1, p.stage.widgets.length, p.stage.traffic.jobs.length⟩

end Renderer

/-- Completions of past nodes are among others, which have moved on. -/
inductive Mingled (p : Renderer W) : List Completion → List Completion → Prop
  | nil : Mingled p [] []
  | late {c : Completion} (hc : c.ticket.node.ordinal < p.nextKey) :
      Mingled p cs ds → Mingled p (c :: cs) ds
  | both {c : Completion} : Mingled p cs ds → Mingled p (c.moved p.offset :: cs) (c :: ds)

theorem Mingled.append {p : Renderer W} (h : Mingled p cs ds) (h' : Mingled p cs' ds') :
    Mingled p (cs ++ cs') (ds ++ ds') := by
  induction h with
  | nil => exact h'
  | late hc _ ih => exact .late hc ih
  | both _ ih => exact .both ih

/-- The second stage is the first one with a past. -/
structure Stage.Later (p : Renderer W) (s t : Stage W) : Prop where
  widgets : t.widgets = p.stage.widgets ++ s.widgets
  busy : ∀ h : Handle, h.moved p.offset ∈ t.busy ↔ h ∈ s.busy
  jobs : t.traffic.jobs = p.stage.traffic.jobs ++ s.traffic.jobs.map (Job.moved p.offset)
  completed : ∀ number, t.traffic.completed.any (·.1 == number + p.offset.jobs) =
    s.traffic.completed.any (·.1 == number)
  queue : Mingled p t.traffic.queue s.traffic.queue
  journal : t.journal = p.stage.journal ++ s.journal.map (Effect.moved p.offset)

/-- Acts that do the same on a stage with a past. -/
abbrev Echoes (p : Renderer W) (f : α → β) (act : Act W α) (act' : Act W β) : Prop :=
  Tracks (Stage.Later p) f act act'

variable {p : Renderer W}

namespace Stage.Later

variable {s t : Stage W}

theorem widget? (h : Later p s t) (handle : Handle) :
    t.widget? (handle.moved p.offset) = s.widget? handle := by
  have hi : handle.index + p.stage.widgets.length - p.stage.widgets.length = handle.index :=
    Nat.add_sub_cancel ..
  simp [Stage.widget?, h.widgets, Handle.moved, Renderer.offset, List.getElem?_append_right, hi]

theorem free? (h : Later p s t) (handle : Handle) :
    t.free? (handle.moved p.offset) = s.free? handle := by
  simp [Stage.free?, h.busy, h.widget?]

theorem openJob? (h : Later p s t) (number : Nat) :
    t.traffic.openJob? (number + p.offset.jobs) =
      (s.traffic.openJob? number).map (Job.moved p.offset) := by
  have hn : number + p.stage.traffic.jobs.length - p.stage.traffic.jobs.length = number :=
    Nat.add_sub_cancel ..
  unfold Traffic.openJob?
  rw [h.completed]
  split
  · rfl
  · simp [h.jobs, Renderer.offset, List.getElem?_append_right, hn]

theorem setWidget (h : Later p s t) (handle : Handle) (w : W) :
    Later p (s.setWidget handle w) (t.setWidget (handle.moved p.offset) w) :=
  { h with
    widgets := by
      simp [Stage.setWidget, h.widgets, Handle.moved, Renderer.offset, List.set_append_right] }

theorem record (h : Later p s t) (e : Effect) :
    Later p (Act.record e s).2 (Act.record (e.moved p.offset) t).2 :=
  { h with journal := by simp [Act.record, h.journal] }

end Stage.Later

namespace Tracks

theorem record (e : Effect) : Echoes p id (Act.record e) (Act.record (e.moved p.offset)) :=
  ⟨fun _ _ h => ⟨rfl, h.record e⟩⟩

theorem warn (w : Warning) : Echoes p id (Act.warn w) (Act.warn (w.moved p.offset)) := record _

/-- A warning before there is something to give. -/
theorem warnThen {f : α → β} (w : Warning) (a : α) :
    Echoes p f (do Act.warn w; Pure.pure a)
      (do Act.warn (w.moved p.offset); Pure.pure (f a)) :=
  (warn w).bind fun _ => .pure a

theorem occupy (handles : List Handle) :
    Echoes p id (Act.occupy handles) (Act.occupy (handles.map (Handle.moved p.offset))) :=
  .update fun _ _ h => { h with busy := fun handle => by simp }

theorem add (w : W) : Echoes p (Handle.moved p.offset) (Act.add w) (Act.add w) := by
  refine ⟨fun s t h => ?_⟩
  have hn : t.widgets.length = s.widgets.length + p.offset.instances := by
    simp [h.widgets, Renderer.offset, Nat.add_comm]
  refine ⟨congrArg Handle.mk hn, { h with widgets := ?_ }⟩
  show t.widgets ++ [w] = p.stage.widgets ++ (s.widgets ++ [w])
  rw [h.widgets, List.append_assoc]

theorem submit (job : Job) : Echoes p id (Act.submit job) (Act.submit (job.moved p.offset)) := by
  refine ⟨fun s t h => ?_⟩
  have hn : s.traffic.jobs.length + p.offset.jobs = t.traffic.jobs.length := by
    simp [h.jobs, Renderer.offset, Nat.add_comm]
  have hj : t.traffic.jobs ++ [job.moved p.offset] =
      p.stage.traffic.jobs ++ (s.traffic.jobs ++ [job]).map (Job.moved p.offset) := by
    simp [h.jobs]
  have hr := h.record (.submitted s.traffic.jobs.length job)
  rw [Effect.moved, hn] at hr
  exact ⟨rfl, { hr with jobs := hj }⟩

/-- A job has its own number, which the past moves on. -/
theorem complete (number : Nat) (response : Except FetchError Json) :
    Echoes p id (Act.complete number response)
      (Act.complete (number + p.offset.jobs) response) := by
  refine ⟨fun s t h => ?_⟩
  have ho := h.openJob? number
  rw [Renderer.complete_run, Renderer.complete_run, Traffic.complete?, Traffic.complete?, ho]
  cases s.traffic.openJob? number with
  | none => exact ⟨rfl, h⟩
  | some job =>
    refine ⟨rfl, { h with completed := fun other => ?_, queue := ?_ }⟩
    · have hn : (number + p.offset.jobs == other + p.offset.jobs) = (number == other) := by
        rw [Bool.eq_iff_iff]
        simp
      simp [hn, h.completed other]
    · exact h.queue.append (Mingled.both (c := job.complete response) .nil)

variable [Widget W]

theorem invoke (caller : Caller) (handle : Handle) (method : String) (args : List Json) :
    Echoes p id (Act.invoke caller handle method args)
      (Act.invoke caller (handle.moved p.offset) method args) := by
  refine ⟨fun s t h => ?_⟩
  rw [invoke_run, invoke_run, h.free?]
  cases s.free? handle with
  | none => exact ⟨rfl, h⟩
  | some w => exact ⟨rfl, (h.record _).setWidget handle _⟩

theorem push (handle : Handle) (payload : Payload) :
    Echoes p id (Act.push handle payload) (Act.push (handle.moved p.offset) payload) := by
  refine ⟨fun s t h => ?_⟩
  simp only [Act.push, run_bind, run_get, h.free?]
  cases s.free? handle with
  | none => exact ⟨rfl, h⟩
  | some w => exact ⟨rfl, (h.record (.pushed handle payload)).setWidget handle _⟩

end Tracks

-- ---------------------------------------------------------------------------
-- Evaluating
-- ---------------------------------------------------------------------------

variable [Widget W]

theorem evaluateExpression_echoes (d : Directory) (e : Expression) :
    Echoes p (Resolved.moved p.offset) (evaluateExpression d e : Act W Resolved)
      (evaluateExpression (d.moved p.offset) e) := by
  unfold evaluateExpression
  rw [Directory.get?_moved]
  cases Fields.get? d e.target with
  | none => exact .warnThen (.notMounted e) Resolved.undefined
  | some entry =>
    dsimp only [Option.map_some]
    cases e.call with
    | none => exact .pure (Resolved.reference entry.handle)
    | some call =>
      refine .ite (.bind (.invoke ..) fun answer => ?_) ?_
      · rcases answer with _ | error | v
        · exact .warnThen (.targetBusy e) Resolved.undefined
        · exact .warnThen (.callFailed e error) Resolved.undefined
        · exact .pure (Resolved.value v)
      · exact .warnThen (.notAvailable e call.method) Resolved.undefined

theorem evaluate_echoes (d : Directory) (source : String) :
    Echoes p (Resolved.moved p.offset) (evaluate d source : Act W Resolved)
      (evaluate (d.moved p.offset) source) := by
  unfold evaluate
  refine .bind (.record (.evaluated d source)) fun _ => ?_
  cases Expression.parse source with
  | error problem => exact .warnThen (.malformed problem) Resolved.undefined
  | ok e => exact evaluateExpression_echoes d e

theorem resolve_echoes (d : Directory) (s : Setting) :
    Echoes p (Resolved.moved p.offset) (resolve d s : Act W Resolved)
      (resolve (d.moved p.offset) s) := by
  cases s with
  | expression source => exact evaluate_echoes d source
  | _ => exact .pure (Resolved.value _)

theorem evaluateToSend_echoes (d : Directory) (source : String) :
    Echoes p id (evaluateToSend d source : Act W (Option Json))
      (evaluateToSend (d.moved p.offset) source) := by
  refine .bind (evaluate_echoes d source) fun v => ?_
  cases v with
  | reference h => exact .warnThen (.cannotSend source) none
  | _ => exact .pure _

mutual
theorem resolveWithin_echoes (d : Directory) (s : Setting) :
    Echoes p id (resolveWithin d s : Act W (Option Json))
      (resolveWithin (d.moved p.offset) s) := by
  cases s with
  | expression source => exact evaluateToSend_echoes d source
  | list items => exact .bind (resolveItems_echoes d items) fun _ => .pure _
  | map entries => exact .bind (resolveEntries_echoes d entries) fun _ => .pure _
  | _ => exact .pure _
theorem resolveItems_echoes (d : Directory) (items : List Setting) :
    Echoes p id (resolveItems d items : Act W (List Json))
      (resolveItems (d.moved p.offset) items) := by
  cases items with
  | nil => exact .pure _
  | cons s rest =>
    exact .bind (resolveWithin_echoes d s) fun _ =>
      .bind (resolveItems_echoes d rest) fun _ => .pure _
theorem resolveEntries_echoes (d : Directory) (entries : List (String × Setting)) :
    Echoes p id (resolveEntries d entries : Act W (List (String × Json)))
      (resolveEntries (d.moved p.offset) entries) := by
  cases entries with
  | nil => exact .pure _
  | cons q rest =>
    exact .bind (resolveWithin_echoes d q.2) fun _ =>
      .bind (resolveEntries_echoes d rest) fun _ => .pure _
end

theorem resolveArguments_echoes (d : Directory) (args : Fields Setting) :
    Echoes p (Fields.mapValues (Resolved.moved p.offset))
      (resolveArguments d args : Act W (Fields Resolved))
      (resolveArguments (d.moved p.offset) args) := by
  induction args with
  | nil => exact .pure []
  | cons q rest ih =>
    exact .bind (resolve_echoes d q.2) fun v => .bind ih fun vs => .pure ((q.1, v) :: vs)

-- ---------------------------------------------------------------------------
-- Requests
-- ---------------------------------------------------------------------------

theorem composePairs_echoes (d : Directory) (part : RequestPart) (pairs : Fields Setting) :
    Echoes p id (composePairs d part pairs : Act W (List (String × String)))
      (composePairs (d.moved p.offset) part pairs) := by
  induction pairs with
  | nil => exact .pure _
  | cons q rest ih =>
    have ho : Echoes p id (do Act.warn (.omitted part q.1); composePairs d part rest : Act W _)
        (do Act.warn (.omitted part q.1); composePairs (d.moved p.offset) part rest) :=
      .bind (.warn (.omitted part q.1)) fun _ => ih
    refine .bind (resolveWithin_echoes d q.2) fun v => ?_
    rcases v with _ | v
    · exact ho
    · cases v with
      | null => exact ho
      | _ => exact .bind ih fun _ => .pure _

theorem composeBody_echoes (d : Directory) (endpoint : String) (body : Option Setting) :
    Echoes p id (composeBody d endpoint body : Act W (Option Json))
      (composeBody (d.moved p.offset) endpoint body) := by
  cases body with
  | none => exact .pure _
  | some body =>
    refine .bind (resolveWithin_echoes d body) fun v => ?_
    cases v with
    | none => exact .warnThen (.emptyBody endpoint) none
    | some v => exact .pure _

theorem compose_echoes (ctx : Context) (r : Remote) (endpoint : String) :
    Echoes p id (compose ctx r endpoint : Act W Request)
      (compose (ctx.moved p.offset) r endpoint) := by
  refine .bind (composePairs_echoes ctx.directory .header r.headers) fun _ => ?_
  refine .bind (composePairs_echoes ctx.directory .query r.query) fun _ => ?_
  exact .bind (composeBody_echoes ctx.directory endpoint r.body) fun _ => .pure _

namespace Source

theorem setState_echoes (src : Source) (state : FetchState) :
    Echoes p (Source.moved p.offset) (src.setState state : Act W Source)
      ((src.moved p.offset).setState state) := by
  refine .bind (.push ..) fun pushed => ?_
  cases pushed with
  | true => exact .pure _
  | false => exact .warnThen (.updateDropped src.component) _

/-- What work on a source gives, with numbers moved on. -/
def movedResult (o : Offset) (f : α → α) (r : α × Source) : α × Source := (f r.1, r.2.moved o)

theorem fetch_echoes (src : Source) (ctx : Context) (endpoint : String) :
    Echoes p (movedResult p.offset (Ticket.moved p.offset))
      (src.fetch ctx endpoint : Act W (Ticket × Source))
      ((src.moved p.offset).fetch (ctx.moved p.offset) endpoint) := by
  refine .bind (compose_echoes ctx (src.remote endpoint) endpoint) fun request => ?_
  refine .bind (setState_echoes { src with
    generation := src.generation + 1, lastEndpoint := some endpoint } .loading) fun src' => ?_
  exact .bind (.submit ⟨⟨src.key, src.generation + 1⟩, request⟩) fun _ => .pure (_, src')

theorem mount_echoes (src : Source) (ctx : Context) :
    Echoes p (Source.moved p.offset) (src.mount ctx : Act W Source)
      ((src.moved p.offset).mount (ctx.moved p.offset)) := by
  by_cases hw : src.cascaded = true ∨ src.feed = none
  · rw [mount_waiting src ctx hw, mount_waiting (src.moved p.offset) _ hw]
    exact setState_echoes src .idle
  · obtain ⟨hc, hf⟩ := not_or.mp hw
    have hc : src.cascaded = false := by simpa using hc
    obtain ⟨feed, hf⟩ := Option.ne_none_iff_exists'.mp hf
    cases feed with
    | inline records =>
      have ho : src.ownRecords? = some records := by simp [ownRecords?, hc, hf]
      rw [mount_own src ctx ho, mount_own (src.moved p.offset) _ ho]
      exact setState_echoes src (.success records)
    | remote r =>
      rw [mount_remote src ctx hc hf, mount_remote (src.moved p.offset) _ hc hf]
      exact (fetch_echoes src ctx r.endpoint).map fun _ => rfl

theorem refresh_echoes (src : Source) (ctx : Context) :
    Echoes p (movedResult p.offset id) (src.refresh ctx : Act W (Bool × Source))
      ((src.moved p.offset).refresh (ctx.moved p.offset)) := by
  cases hl : src.lastEndpoint with
  | some endpoint =>
    rw [refresh_again src ctx hl, refresh_again (src.moved p.offset) _ hl]
    exact (fetch_echoes src ctx endpoint).map fun _ => rfl
  | none =>
    cases hc : src.cascaded with
    | true =>
      rw [refresh_nothing src ctx hl hc, refresh_nothing (src.moved p.offset) _ hl hc]
      exact (Tracks.warn (.nothingToRefresh src.component)).map fun _ => rfl
    | false =>
      rw [refresh_first src ctx hl hc, refresh_first (src.moved p.offset) _ hl hc]
      exact (mount_echoes src ctx).map fun _ => rfl

theorem reset_echoes (src : Source) :
    Echoes p (Source.moved p.offset) (src.reset : Act W Source) (src.moved p.offset).reset :=
  setState_echoes { src with generation := src.generation + 1, lastEndpoint := none } .idle

theorem apply_echoes (src : Source) (c : Completion) :
    Echoes p (movedResult p.offset id) (src.apply c : Act W (Bool × Source))
      ((src.moved p.offset).apply (c.moved p.offset)) := by
  have hm : (c.moved p.offset).ticket =
        ⟨(src.moved p.offset).key, (src.moved p.offset).generation⟩ ↔
      c.ticket = ⟨src.key, src.generation⟩ := Ticket.moved_inj (b := ⟨src.key, src.generation⟩)
  by_cases h : c.ticket = ⟨src.key, src.generation⟩
  · rw [apply, apply, if_pos h, if_pos (hm.mpr h)]
    dsimp only [Completion.moved]
    cases c.result with
    | ok records =>
      exact .bind (setState_echoes src (.success records)) fun src => .pure (true, src)
    | error error =>
      refine .bind (.warn (.fetchFailed src.component error)) fun _ => ?_
      exact .bind (setState_echoes src (.failed error)) fun src => .pure (true, src)
  · rw [apply, apply, if_neg h, if_neg fun he => h (hm.mp he)]
    exact .pure (false, src)

end Source

-- ---------------------------------------------------------------------------
-- Events
-- ---------------------------------------------------------------------------

theorem script_echoes (script : Script) :
    Echoes p id (script.run : Act W Unit) (script.moved p.offset).run := by
  induction script with
  | done => exact .pure ()
  | report outcome next ih => exact .bind (.record (.told outcome)) fun _ => ih
  | invoke target method args next ih =>
    unfold Script.run
    refine .bind (.invoke .handler target method args) fun answer => ?_
    cases answer with
    | none => exact ih .busy
    | some answer => exact ih (.answered answer)

theorem dispatch_echoes {handlers handlers' : Handlers}
    (hh : Handlers.Alike p.offset handlers handlers') (bs : Bindings) (d : Directory)
    (event : Event) :
    Echoes p id (dispatch bs d handlers event : Act W Bool)
      (dispatch (bs.moved p.offset) (d.moved p.offset) handlers' (event.moved p.offset)) := by
  have hb := Bindings.get?_moved (o := p.offset) bs event.source event.name
  unfold dispatch
  rw [show (event.moved p.offset).source = event.source.moved p.offset from rfl,
    show (event.moved p.offset).name = event.name from rfl, hb]
  cases Bindings.get? bs event.source event.name with
  | none => exact .pure false
  | some binding =>
    rcases hh.lookup binding.handler with ⟨hn, hn'⟩ | ⟨handler, handler', hs, hs', ha⟩
    · simp only [hn, hn']
      exact .warnThen (.handlerMissing event.name binding.handler) false
    · simp only [hs, hs']
      refine .bind (resolveArguments_echoes d binding.args) fun args => ?_
      refine .bind (.record (.called binding.handler event args)) fun _ => ?_
      rw [ha event args]
      exact .bind (script_echoes _) fun _ => .pure true

theorem keyFor_echoes (d : Directory) (c : Cascade) (payload : Json) :
    Echoes p id (keyFor d c payload : Act W (Option Json))
      (keyFor (d.moved p.offset) c payload) := by
  unfold keyFor
  cases keyInPayload payload c.keyField with
  | given v => exact .pure (some v)
  | cleared => exact .pure none
  | absent =>
    refine .bind (evaluate_echoes d c.selectionText) fun v => ?_
    cases v with
    | value selection =>
      dsimp only [Resolved.moved]
      cases keyInPayload selection c.keyField with
      | given v => exact .pure (some v)
      | _ => exact .pure none
    | _ => exact .pure none

theorem actions_echoes (d : Directory) (parent event : String) (payload : Json)
    (subs : Subscriptions) :
    Echoes p (List.map (Action.moved p.offset))
      (Subscriptions.actions d parent event payload subs : Act W (List Action))
      (Subscriptions.actions (d.moved p.offset) parent event payload
        (KeyMap.moved p.offset id subs)) := by
  induction subs with
  | nil => exact .pure []
  | cons q rest ih =>
    obtain ⟨node, c⟩ := q
    refine .ite (.bind (keyFor_echoes d c payload) fun key => .bind ih fun more => ?_) ih
    cases key with
    | none => exact .pure (.reset node :: more)
    | some key => exact .pure (.fetch node (endpointFor c key) :: more)

end LiveLayout.Live
