import LiveLayout.Proofs.Showing
import LiveLayout.Proofs.Traces

/-!
# The course of an event

An event takes its course in three phases. Its handler is called, if there is
one, with arguments that are evaluated just before. Then the selections are read
for all children that do not know their key from the event. Only then do data
move: child by child, in document order, each does what was decided for it, and
those below it are told that there are no data any more.
-/

namespace LiveLayout.Live

open Relation (ReflTransGen)

/-- Handlers that are called, with their events and arguments. -/
def Effect.call? : Effect → Option (String × Event × Fields Resolved)
  | .called handler event args => some (handler, event, args)
  | _ => none

def calls (deeds : List Effect) : List (String × Event × Fields Resolved) :=
  deeds.filterMap Effect.call?

theorem calls_append (deeds more : List Effect) :
    calls (deeds ++ more) = calls deeds ++ calls more := List.filterMap_append ..

theorem calls_eq_nil {deeds : List Effect} (h : ∀ e ∈ deeds, e.call? = none) : calls deeds = [] :=
  List.filterMap_eq_nil_iff.mpr h

theorem Effect.isTransfer_of_isInquiry {e : Effect} (h : e.isInquiry = true) :
    e.isTransfer = false := by
  cases e <;> first | rfl | cases h

theorem Effect.isTransfer_of_isHandlers {e : Effect} (h : e.isHandlers = true) :
    e.isTransfer = false := by
  cases e <;> first | rfl | cases h

theorem Effect.call?_of_isInquiry {e : Effect} (h : e.isInquiry = true) : e.call? = none := by
  cases e <;> first | rfl | cases h

theorem Effect.call?_of_isHandlers {e : Effect} (h : e.isHandlers = true) : e.call? = none := by
  cases e <;> first | rfl | cases h

theorem Effect.call?_of_isTransfer {e : Effect} (h : e.isTransfer = true) : e.call? = none := by
  cases e <;> first | rfl | cases h

theorem delivery_of_origin {src src' : Source} (ho : src'.origin = src.origin)
    (busy : List Handle) (payload : Payload) :
    delivery busy src' payload = delivery busy src payload := by
  have hw : src'.widget = src.widget := (congrArg Source.widget ho :)
  have hc : src'.component = src.component := (congrArg Source.component ho :)
  simp only [delivery, hw, hc]

theorem Source.remote_of_origin {src src' : Source} (ho : src'.origin = src.origin)
    (endpoint : String) : src'.remote endpoint = src.remote endpoint := by
  have hf : src'.feed = src.feed := (congrArg Source.feed ho :)
  simp only [Source.remote, hf]

section
variable {W : Type} [Widget W] {s s' : Stage W}

theorem Handles.isTransfer (h : Handles bs d handlers event s handled deeds s') :
    ∀ e ∈ deeds, e.isTransfer = false := by
  cases h with
  | unbound | missing => simp
  | called _ _ _ hq ho =>
    intro e he
    rcases List.mem_append.mp he with he | he
    · exact Effect.isTransfer_of_isInquiry (hq.isInquiry e he)
    · rcases List.mem_cons.mp he with rfl | he
      · rfl
      · exact Effect.isTransfer_of_isHandlers (ho e he)

theorem Handles.length_calls (h : Handles bs d handlers event s handled deeds s') :
    (calls deeds).length = handled.toNat := by
  cases h with
  | unbound | missing => rfl
  | @called _ _ _ _ asked own _ _ _ hq ho =>
    have hasked := calls_eq_nil fun e he => Effect.call?_of_isInquiry (hq.isInquiry e he)
    have hown := calls_eq_nil fun e he => Effect.call?_of_isHandlers (ho e he)
    rw [calls_append, hasked, List.nil_append, calls, List.filterMap_cons]
    simpa [calls, Effect.call?] using hown

end

namespace Renderer

section
variable {W : Type} [Widget W] {r r' : Renderer W}

/-- What is given to the instance of a node that has a source. -/
def Supplied (r : Renderer W) (payload : Payload) (key : NodeKey) (e : Effect) : Prop :=
  ∃ src, KeyMap.get? r.sources key = some src ∧ e = delivery r.stage.busy src payload

/-- These nodes are told that there are no data, each of them once. -/
def Emptied (r : Renderer W) (hit : NodeKey → Prop) (deeds : List Effect) : Prop :=
  ∃ nodes : List NodeKey, nodes.Nodup ∧ (∀ k, k ∈ nodes ↔ hit k) ∧
    List.Forall₂ (Supplied r .noData) nodes deeds

/-- What an action does to its own node. A fetch evaluates the expressions of
its request, shows that it is loading, and submits the request. -/
inductive Acts (r : Renderer W) : Action → List Effect → Prop
  | fetch {endpoint : String} {s : Stage W} (hs : KeyMap.get? r.sources node = some src)
      (hq : Queried r.directory s (src.remote endpoint).expressions asked)
      (hl : Supplied r .loading node shown) (hk : job.ticket.node = node)
      (hj : job.request = (compose r.context (src.remote endpoint) endpoint s).1) :
      Acts r (.fetch node endpoint) (asked ++ [shown, .submitted number job])
  | reset (he : Supplied r .noData node shown) : Acts r (.reset node) [shown]

/-- One action after the other, each followed by what is below its node. -/
inductive Ensues (r : Renderer W) : List Action → List Effect → Prop
  | nil : Ensues r [] []
  | cons (ha : Acts r a own) (he : Emptied r (Below r a.node) below) (hr : Ensues r rest more) :
      Ensues r (a :: rest) (own ++ below ++ more)

-- ---------------------------------------------------------------------------
-- What stays the same meanwhile
-- ---------------------------------------------------------------------------

/-- The same nodes have the same sources but for their states, and the same
instances are busy. -/
structure Alike (r r' : Renderer W) : Prop where
  layout : SameLayout r r'
  busy : r'.stage.busy = r.stage.busy
  origin : ∀ key, (KeyMap.get? r'.sources key).map Source.origin =
    (KeyMap.get? r.sources key).map Source.origin

theorem Shows.alike (h : Shows xs r) (hr : Roomed r) (hm : Moves P r r') : Alike r r' where
  layout := hm.sameLayout
  busy := (hm.supplies hr).busy
  origin := fun key => by
    rw [← get?_fixedPart, ← get?_fixedPart, (h.moves hm).sources, h.sources]

omit [Widget W] in
theorem Alike.source (h : Alike r r') (hs : KeyMap.get? r'.sources key = some src') :
    ∃ src, KeyMap.get? r.sources key = some src ∧ src'.origin = src.origin := by
  have ho := h.origin key
  rw [hs, Option.map_some] at ho
  obtain ⟨src, hsrc, he⟩ := Option.map_eq_some_iff.mp ho.symm
  exact ⟨src, hsrc, he.symm⟩

omit [Widget W] in
theorem Alike.supplied (h : Alike r r') (hs : Supplied r' payload key e) :
    Supplied r payload key e := by
  obtain ⟨src', hs, rfl⟩ := hs
  obtain ⟨src, hsrc, ho⟩ := h.source hs
  exact ⟨src, hsrc, by rw [h.busy, delivery_of_origin ho]⟩

omit [Widget W] in
theorem Alike.all_supplied (h : Alike r r') (hs : List.Forall₂ (Supplied r' payload) nodes deeds) :
    List.Forall₂ (Supplied r payload) nodes deeds := hs.imp fun _ _ => h.supplied

omit [Widget W] in
theorem Alike.emptied (h : Alike r r') (he : Emptied r' (Below r' key) deeds) :
    Emptied r (Below r key) deeds := by
  obtain ⟨nodes, hn, hm, hs⟩ := he
  exact ⟨nodes, hn, fun k => (hm k).trans h.layout.below_iff, h.all_supplied hs⟩

theorem Alike.acts (h : Alike r r') (ha : Acts r' a deeds) : Acts r a deeds := by
  cases ha with
  | fetch hs hq hl hk hj =>
    obtain ⟨src, hsrc, ho⟩ := h.source hs
    rw [Source.remote_of_origin ho, h.layout.directory_eq] at hq
    rw [Source.remote_of_origin ho, h.layout.context_eq] at hj
    exact .fetch hsrc hq (h.supplied hl) hk hj
  | reset he => exact .reset (h.supplied he)

theorem Alike.ensues (h : Alike r r') (he : Ensues r' actions deeds) : Ensues r actions deeds := by
  induction he with
  | nil => exact .nil
  | cons ha he _ ih => exact .cons (h.acts ha) (h.emptied he) ih

theorem Roomed.moves (hr : Roomed r) (hm : Moves P r r') : Roomed r' := hr.supplies (hm.supplies hr)

-- ---------------------------------------------------------------------------
-- Nodes that are cleared
-- ---------------------------------------------------------------------------

theorem resetSource_traces (hr : Roomed r) (hs : KeyMap.get? r.sources key = some src) :
    Traces [delivery r.stage.busy src .noData] r.stage (resetSource key r).2.stage := by
  rw [resetSource_some hs]
  exact Source.reset_traces (hr.placed key src hs)

theorem Shows.resetAll_traces (h : Shows xs r) (hr : Roomed r) {keys : List NodeKey}
    (hk : ∀ key ∈ keys, ∃ c, KeyMap.get? r.subscriptions key = some c) :
    ∃ deeds, List.Forall₂ (Supplied r .noData) keys deeds ∧
      Traces deeds r.stage (resetAll keys r).2.stage := by
  induction keys generalizing r with
  | nil => exact ⟨[], .nil, .refl r.stage⟩
  | cons key rest ih =>
    obtain ⟨hkey, hrest⟩ := List.forall_mem_cons.mp hk
    obtain ⟨c, hc⟩ := hkey
    obtain ⟨src, hs, -⟩ := h.source_of_subscription hc
    have hm : Moves (fun _ _ => True) r (resetSource key r).2 := resetSource_moves key trivial r
    rw [← hm.sameLayout.subscriptions_eq] at hrest
    obtain ⟨deeds, hd, ht⟩ := ih (h.moves hm) (hr.moves hm) hrest
    have hall := (h.alike hr hm).all_supplied hd
    exact ⟨_ :: deeds, .cons ⟨src, hs, rfl⟩ hall, (resetSource_traces hr hs).trans ht⟩

/-- Propagation tells all that are below the pending nodes that there are no
data. They are apart, so nobody is told twice. -/
theorem Shows.propagate_traces (h : Shows xs r) (hr : Roomed r) {fresh pending : List NodeKey}
    (hf : ∀ p ∈ pending, ∀ k, ReflTransGen (Follows r) p k → k ∈ fresh)
    (ha : pending.Pairwise (Apart (Follows r))) :
    ∃ deeds, Emptied r (fun k => ∃ p ∈ pending, Below r p k) deeds ∧
      Traces deeds r.stage (propagate fresh pending r).2.stage := by
  induction fresh, pending using propagate.induct (W := W) generalizing r with
  | case1 fresh =>
    rw [propagate_nil]
    exact ⟨[], ⟨[], .nil, by simp, .nil⟩, .refl r.stage⟩
  | case3 fresh key rest hm => exact absurd (hf key List.mem_cons_self key .refl) hm
  | case2 fresh key rest hm ih =>
    rw [propagate_of_mem hm]
    have hforest := h.forest
    have hchild (c) : c ∈ followers r key ↔ Follows r key c := h.mem_followers
    obtain ⟨first, hd, ht⟩ := h.resetAll_traces hr fun _ hc => h.subscription_of_follower hc
    have hmove : Moves (fun _ _ => True) r (resetAll (followers r key) r).2 :=
      resetAll_moves (fun _ => trivial) (followers r key) r
    have hlike := h.alike hr hmove
    have hfol := hlike.layout.follows_eq
    have hfresh : ∀ p ∈ (followers r key).reverse ++ rest, ∀ k, ReflTransGen (Follows r) p k →
        k ∈ fresh.erase key := by
      intro p hp k hpk
      obtain ⟨hne, q, hq, hqk⟩ := hforest.next_reached hchild ha hp hpk
      rw [List.mem_erase_of_ne hne]
      exact hf q hq k hqk
    have hapart := hforest.next_apart hchild (h.nodup_followers key) ha
    rw [← hfol] at hfresh hapart
    obtain ⟨more, ⟨nodes, hn, hmem, hs⟩, ht'⟩ := ih r (h.moves hmove) (hr.moves hmove) hfresh hapart
    simp only [Below, hfol] at hmem
    refine ⟨first ++ more, ⟨followers r key ++ nodes, ?_, fun k => ?_, ?_⟩, ht.trans ht'⟩
    · refine List.nodup_append.mpr ⟨h.nodup_followers key, hn, ?_⟩
      rintro k hk _ hk' rfl
      exact hforest.not_below_next hchild ha ((hchild k).mp hk) ((hmem k).mp hk')
    · rw [List.mem_append, hmem, hchild]
      exact (Forest.below_next hchild).symm
    · exact List.rel_append hd (hlike.all_supplied hs)

theorem Shows.resetFollowers_traces (h : Shows xs r) (hr : Roomed r) (key : NodeKey) :
    ∃ deeds, Emptied r (Below r key) deeds ∧
      Traces deeds r.stage (resetFollowers key r).2.stage := by
  obtain ⟨deeds, ⟨nodes, hn, hm, hs⟩, ht⟩ := h.propagate_traces hr
    (fun p hp k hk => reached_fresh (List.mem_singleton.mp hp ▸ hk)) (List.pairwise_singleton _ key)
  exact ⟨deeds, ⟨nodes, hn, by simpa using hm, hs⟩, ht⟩

-- ---------------------------------------------------------------------------
-- Actions
-- ---------------------------------------------------------------------------

/-- What an action does before it comes to those below its node. -/
theorem Shows.applyAction_traces (h : Shows xs r) (hr : Roomed r) (a : Action)
    (hc : ∃ c, KeyMap.get? r.subscriptions a.node = some c) :
    ∃ own below, Acts r a own ∧ Emptied r (Below r a.node) below ∧
      Traces (own ++ below) r.stage (applyAction a r).2.stage := by
  obtain ⟨c, hc⟩ := hc
  obtain ⟨src, hs, -⟩ := h.source_of_subscription hc
  cases a with
  | fetch node endpoint =>
    change KeyMap.get? r.sources node = some src at hs
    let act (src : Source) : Act W (Ticket × Source) := src.fetch r.context endpoint
    have hm : Moves (fun _ _ => True) r (withSource node act r).2 :=
      withSource_moves node (.fetch endpoint) trivial fun _ => rfl
    obtain ⟨below, he, hb⟩ := (h.moves hm).resetFollowers_traces (hr.moves hm) node
    obtain ⟨asked, number, ha, ht⟩ :=
      Source.fetch_traces (hr.placed node src hs) r.context endpoint
    have hstage : (withSource node act r).2.stage = (src.fetch r.context endpoint r.stage).2 := by
      rw [withSource_some act hs]
      rfl
    rw [← hstage] at ht
    exact ⟨_, below, .fetch hs ha ⟨src, hs, rfl⟩ (h.source_key hs) rfl,
      (h.alike hr hm).emptied he, ht.trans hb⟩
  | reset node =>
    have hm : Moves (fun _ _ => True) r (resetSource node r).2 := resetSource_moves node trivial r
    obtain ⟨below, he, hb⟩ := (h.moves hm).resetFollowers_traces (hr.moves hm) node
    exact ⟨_, below, .reset ⟨src, hs, rfl⟩, (h.alike hr hm).emptied he,
      (resetSource_traces hr hs).trans hb⟩

theorem Shows.applyActions_traces (h : Shows xs r) (hr : Roomed r) {actions : List Action}
    (hc : ∀ a ∈ actions, ∃ c, KeyMap.get? r.subscriptions a.node = some c) :
    ∃ deeds, Ensues r actions deeds ∧ Traces deeds r.stage (applyActions actions r).2.stage := by
  induction actions generalizing r with
  | nil => exact ⟨[], .nil, .refl r.stage⟩
  | cons a rest ih =>
    obtain ⟨hhead, hrest⟩ := List.forall_mem_cons.mp hc
    obtain ⟨own, below, ha, he, ht⟩ := h.applyAction_traces hr a hhead
    have hm : Moves (fun _ _ => True) r (applyAction a r).2 :=
      applyAction_moves (fun _ => trivial) a trivial r
    rw [← hm.sameLayout.subscriptions_eq] at hrest
    obtain ⟨more, hmore, ht'⟩ := ih (h.moves hm) (hr.moves hm) hrest
    exact ⟨own ++ below ++ more, .cons ha he ((h.alike hr hm).ensues hmore), ht.trans ht'⟩

-- ---------------------------------------------------------------------------
-- Phases of an event
-- ---------------------------------------------------------------------------

/-- The selections that are read for an event of a node. -/
def reads (r : Renderer W) (key : NodeKey) (name : String) (payload : Json) : List String :=
  match (KeyMap.get? r.mounted key).bind (·.id) with
  | none => []
  | some id => selections id name payload r.subscriptions

/-- The phases of an event: calling its handler, reading selections on the stage
as the handler has left it, and acting on what they said. Nothing comes of an
event of a node that is not mounted. -/
inductive Phases (r : Renderer W) (key : NodeKey) (name : String) (payload : Json) :
    Bool → List Effect → List Effect → List Effect → Prop
  | unmounted (hm : KeyMap.get? r.mounted key = none) : Phases r key name payload false [] [] []
  | fired (hm : KeyMap.get? r.mounted key = some m)
      (hc : Handles r.bindings r.directory r.handlers ⟨name, key, m.id, payload⟩ r.stage
        handled calling s)
      (hq : Queried r.directory s (reads r key name payload) reading)
      (he : Ensues r (reactions r key name payload) acting) :
      Phases r key name payload handled calling reading acting

/-- What an event leads to, log lines apart. The children that follow it react
in document order. No data move before all selections are read, and a handler is
called at most once, which is what the event answers. -/
structure Course (r : Renderer W) (key : NodeKey) (name : String) (payload : Json)
    (handled : Bool) (r' : Renderer W) : Prop where
  phases : ∃ calling reading acting, Phases r key name payload handled calling reading acting ∧
    Traces (calling ++ reading ++ acting) r.stage r'.stage ∧
    (∀ e ∈ calling ++ reading, e.isTransfer = false) ∧
    (calls (calling ++ reading ++ acting)).length = handled.toNat
  reacting : ∀ node, node ∈ (reactions r key name payload).map (·.node) ↔
    Subscribes r key name node
  order : ((reactions r key name payload).map (·.node)).Sublist
    ((Scene.widgets r.tree).map (·.key))

omit [Widget W] in
theorem Supplied.isTransfer (h : Supplied r payload key e) : e.isTransfer = true := by
  obtain ⟨src, -, rfl⟩ := h
  exact isTransfer_delivery ..

omit [Widget W] in
theorem Emptied.isTransfer {hit : NodeKey → Prop} (h : Emptied r hit deeds) :
    ∀ e ∈ deeds, e.isTransfer = true := by
  obtain ⟨nodes, -, -, hs⟩ := h
  clear * - hs
  induction hs with
  | nil => simp
  | cons h _ ih => exact List.forall_mem_cons.mpr ⟨h.isTransfer, ih⟩

theorem Acts.call?_eq_none (h : Acts r a deeds) : ∀ e ∈ deeds, e.call? = none := by
  cases h with
  | fetch _ hq hl =>
    intro e he
    simp only [List.mem_append, List.mem_cons, List.not_mem_nil, or_false] at he
    rcases he with he | rfl | rfl
    · exact Effect.call?_of_isInquiry (hq.isInquiry e he)
    · exact Effect.call?_of_isTransfer hl.isTransfer
    · rfl
  | reset he => simpa using Effect.call?_of_isTransfer he.isTransfer

/-- Nobody's handler is called for what follows the handler. -/
theorem Ensues.call?_eq_none (h : Ensues r actions deeds) : ∀ e ∈ deeds, e.call? = none := by
  induction h with
  | nil => simp
  | cons ha he _ ih =>
    intro e hm
    simp only [List.mem_append] at hm
    rcases hm with (hm | hm) | hm
    · exact ha.call?_eq_none e hm
    · exact Effect.call?_of_isTransfer (he.isTransfer e hm)
    · exact ih e hm

theorem Phases.isTransfer (h : Phases r key name payload handled calling reading acting) :
    ∀ e ∈ calling ++ reading, e.isTransfer = false := by
  cases h with
  | unmounted => simp
  | fired _ hc hq =>
    intro e he
    rcases List.mem_append.mp he with he | he
    · exact hc.isTransfer e he
    · exact Effect.isTransfer_of_isInquiry (hq.isInquiry e he)

theorem Phases.length_calls (h : Phases r key name payload handled calling reading acting) :
    (calls (calling ++ reading ++ acting)).length = handled.toNat := by
  cases h with
  | unmounted => rfl
  | fired _ hc hq he =>
    have hr := calls_eq_nil fun e hm => Effect.call?_of_isInquiry (hq.isInquiry e hm)
    have hact := calls_eq_nil he.call?_eq_none
    simpa only [calls_append, hr, hact, List.append_nil] using hc.length_calls

-- ---------------------------------------------------------------------------
-- Firing
-- ---------------------------------------------------------------------------

theorem fireKey_fst (hm : KeyMap.get? r.mounted key = some m) (name : String) (payload : Json) :
    (fireKey key name payload r).1 =
      (dispatch r.bindings r.directory r.handlers ⟨name, key, m.id, payload⟩ r.stage).1 := by
  simp only [fireKey, run_bind, run_get, hm]
  rfl

/-- On the stage as the handler has left it the children decide, and then act. -/
theorem Shows.cascadeFrom_traces (h : Shows xs r) (hr : Roomed r)
    (hm : KeyMap.get? r.mounted key = some m) (name : String) (payload : Json) {stage : Stage W}
    (hs : stage = (dispatch r.bindings r.directory r.handlers ⟨name, key, m.id, payload⟩
      r.stage).2) :
    ∃ reading acting, Queried r.directory stage (reads r key name payload) reading ∧
      Ensues r (reactions r key name payload) acting ∧
      Traces (reading ++ acting) stage
        (cascadeFrom ⟨name, key, m.id, payload⟩ { r with stage }).2.stage := by
  unfold cascadeFrom reads
  cases hi : m.id with
  | none =>
    have hn : reactions r key name payload = [] := by simp [reactions, hm, hi]
    simp only [hm, Option.bind_some, hi, hn]
    exact ⟨[], [], ⟨⟨[], stage, .nil, .refl stage⟩, .nil⟩, .nil, .refl stage⟩
  | some id =>
    rw [hi] at hs
    have hact : reactions r key name payload =
        (Subscriptions.actions r.directory id name payload r.subscriptions stage).1 := by
      simp [reactions, hm, hi, hs]
    simp only [hm, Option.bind_some, hi]
    obtain ⟨results, hq⟩ := actions_queries r.directory id name payload r.subscriptions stage
    obtain ⟨reading, ht, hq⟩ := hq.traces
    have hmoves : Moves (fun _ _ => True) r { r with stage := (Subscriptions.actions r.directory id
        name payload r.subscriptions stage).2 } := by
      subst hs
      exact .head (.dispatches ⟨name, key, some id, payload⟩) (.single (.decides id name payload))
    have hc : ∀ a ∈ reactions r key name payload, ∃ c,
        KeyMap.get? r.subscriptions a.node = some c := by
      intro a hma
      obtain ⟨_, _, c, _, _, hc, _⟩ := (h.mem_reactions payload).mp (List.mem_map_of_mem hma)
      exact ⟨c, hc⟩
    obtain ⟨acting, he, hta⟩ := (h.moves hmoves).applyActions_traces (hr.moves hmoves) hc
    refine ⟨reading, acting, hq, (h.alike hr hmoves).ensues he, ?_⟩
    rw [hact] at hta
    exact ht.trans hta

theorem Shows.fireKey_phases (h : Shows xs r) (hr : Roomed r) (key : NodeKey) (name : String)
    (payload : Json) : ∃ calling reading acting,
      Phases r key name payload (fireKey key name payload r).1 calling reading acting ∧
      Traces (calling ++ reading ++ acting) r.stage (fireKey key name payload r).2.stage := by
  cases hm : KeyMap.get? r.mounted key with
  | none =>
    refine ⟨[], [], [], ?_⟩
    simp only [fireKey, run_bind, run_get, hm]
    exact ⟨.unmounted hm, .warn rfl r.stage⟩
  | some m =>
    obtain ⟨calling, ht, hc⟩ := dispatch_traces r.bindings r.directory r.handlers
      ⟨name, key, m.id, payload⟩ r.stage
    obtain ⟨reading, acting, hq, he, hta⟩ := h.cascadeFrom_traces hr hm name payload rfl
    have hall := ht.trans hta
    rw [← List.append_assoc] at hall
    rw [fireKey_fst hm, fireKey_some hm]
    exact ⟨calling, reading, acting, .fired hm hc hq he, hall⟩

omit [Widget W] in
/-- Subscriptions are kept in the order of what is shown. -/
theorem subscribers_sublist (xs : List Exhibit) (p : NodeKey × Layout.Cascade → Bool) :
    (((xs.filterMap Exhibit.subscription?).filter p).map (·.1)).Sublist (xs.map Exhibit.key) := by
  refine List.Sublist.trans (List.filter_sublist.map _) ?_
  induction xs with
  | nil => exact .slnil
  | cons x rest ih =>
    cases hs : x.subscription? with
    | none => simpa [hs] using ih.cons x.key
    | some p => simpa [hs, Exhibit.fst_of_subscription? hs] using ih.cons_cons x.key

theorem Housed.reactions_sublist (h : Housed xs r) (key : NodeKey) (name : String)
    (payload : Json) : ((reactions r key name payload).map (·.node)).Sublist
      ((Scene.widgets r.tree).map (·.key)) := by
  have hk : (Scene.widgets r.tree).map (·.key) = xs.map Exhibit.key := by
    rw [h.scene, List.map_map]
    rfl
  rw [hk]
  unfold reactions
  split
  · exact List.nil_sublist _
  · rw [actions_nodes, h.shows.subscriptions]
    exact subscribers_sublist xs _

end

/-- After any run an event of a node takes its course, whether the node is
mounted or not, whatever its event is bound to and however many follow it. -/
theorem course_afterAll {W : Type} [Widget W] (library : Library W) (options : Options)
    (ops : List Operation) (key : NodeKey) (name : String) (payload : Json) :
    Course ((new library options).afterAll ops) key name payload
      (fireKey key name payload ((new library options).afterAll ops)).1
      (fireKey key name payload ((new library options).afterAll ops)).2 := by
  obtain ⟨xs, h⟩ := housed_afterAll library options ops
  obtain ⟨calling, reading, acting, hp, ht⟩ := h.shows.fireKey_phases h.roomed key name payload
  exact ⟨⟨calling, reading, acting, hp, ht, hp.isTransfer, hp.length_calls⟩,
    fun _ => h.shows.mem_reactions payload, h.reactions_sublist key name payload⟩

end Renderer

end LiveLayout.Live
