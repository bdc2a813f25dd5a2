import LiveLayout.Proofs.Asking

/-!
# What happens to a data source

Every operation of a source comes down to one of four changes: it is `fetched`
from an endpoint, `cleared`, `supplied` with its own records, or it receives a
completion. Each operation is described once, by the change it makes and by
what it adds to the traffic.
-/

namespace LiveLayout.Live

def FetchState.ofResult : Except FetchError (List Json) → FetchState
  | .ok records => .success records
  | .error error => .failed error

variable {W : Type} [Widget W]

namespace Source

/-- What does not change as long as the source is there. -/
def origin (src : Source) : Source := new src.key src.component src.feed src.cascaded src.widget

def ticket (src : Source) : Ticket := ⟨src.key, src.generation⟩

def nextTicket (src : Source) : Ticket := ⟨src.key, src.generation + 1⟩

/-- A new request is under way. -/
def fetched (src : Source) (endpoint : String) : Source :=
  { src with state := .loading, generation := src.generation + 1, lastEndpoint := some endpoint }

/-- There is nothing to show any more. -/
def cleared (src : Source) : Source :=
  { src with state := .idle, generation := src.generation + 1, lastEndpoint := none }

def supplied (src : Source) (records : List Json) : Source := { src with state := .success records }

def received (src : Source) (c : Completion) : Source :=
  if c.ticket = src.ticket then { src with state := .ofResult c.result } else src

/-- The records in the layout, if the source has them and follows nobody. -/
def ownRecords? (src : Source) : Option (List Json) :=
  match src.cascaded, src.feed with
  | false, some (.inline records) => some records
  | _, _ => none

@[simp] theorem origin_fetched (src : Source) (endpoint : String) :
    (src.fetched endpoint).origin = src.origin := rfl

@[simp] theorem origin_cleared (src : Source) : src.cleared.origin = src.origin := rfl

theorem origin_received (src : Source) (c : Completion) : (src.received c).origin = src.origin := by
  unfold received
  split <;> rfl

theorem received_elsewhere {src : Source} {c : Completion} (h : c.ticket.node ≠ src.key) :
    src.received c = src := if_neg fun ht => h (congrArg Ticket.node ht)

theorem feed_of_ownRecords? {src : Source} (h : src.ownRecords? = some records) :
    src.feed = some (.inline records) := by
  unfold ownRecords? at h
  split at h
  · next hf =>
    obtain rfl := Option.some.inj h
    exact hf
  · cases h

theorem ownRecords?_origin (src : Source) : src.origin.ownRecords? = src.ownRecords? := rfl

-- ---------------------------------------------------------------------------
-- Supplying the widget
-- ---------------------------------------------------------------------------

theorem push_traffic (h : Handle) (payload : Payload) (s : Stage W) :
    (Act.push h payload s).2.traffic = s.traffic := by
  simp only [Act.push, run_bind, run_get]
  cases s.free? h <;> rfl

theorem setState_fst (src : Source) (state : FetchState) (s : Stage W) :
    (src.setState state s).1 = { src with state } := by
  simp only [setState, run_bind]
  split <;> rfl

theorem setState_traffic (src : Source) (state : FetchState) (s : Stage W) :
    (src.setState state s).2.traffic = s.traffic := by
  have hp := push_traffic src.widget state.payload s
  simp only [setState, run_bind]
  split <;> exact hp

-- ---------------------------------------------------------------------------
-- Operations
-- ---------------------------------------------------------------------------

theorem fetch_fst (src : Source) (ctx : Context) (endpoint : String) (s : Stage W) :
    (src.fetch ctx endpoint s).1 = (src.nextTicket, src.fetched endpoint) := by
  simp only [fetch, run_bind, run_pure, setState_fst]
  rfl

/-- A fetch submits one job, for what composing gives. -/
theorem fetch_traffic (src : Source) (ctx : Context) (endpoint : String) (s : Stage W) :
    (src.fetch ctx endpoint s).2.traffic = s.traffic.submit
      ⟨src.nextTicket, (compose ctx (src.remote endpoint) endpoint s).1⟩ := by
  have hc := (compose_talk ctx (src.remote endpoint) endpoint).traffic s
  simp only [fetch, Act.submit, Act.record, run_bind, run_get, run_modify, run_pure,
    setState_traffic, hc, nextTicket]

theorem reset_fst (src : Source) (s : Stage W) : (src.reset s).1 = src.cleared :=
  setState_fst _ _ s

theorem reset_traffic (src : Source) (s : Stage W) : (src.reset s).2.traffic = s.traffic :=
  setState_traffic _ _ s

theorem apply_fst (src : Source) (c : Completion) (s : Stage W) :
    (src.apply c s).1 = (decide (c.ticket = src.ticket), src.received c) := by
  by_cases h : c.ticket = ⟨src.key, src.generation⟩
  · cases hr : c.result <;>
      simp [apply, received, ticket, h, hr, run_bind, run_map, setState_fst, FetchState.ofResult]
  · simp [apply, received, ticket, h]

theorem apply_traffic (src : Source) (c : Completion) (s : Stage W) :
    (src.apply c s).2.traffic = s.traffic := by
  by_cases h : c.ticket = ⟨src.key, src.generation⟩
  · cases hr : c.result with
    | ok records => simp [apply, h, hr, run_map, setState_traffic]
    | error error => simp [apply, h, hr, run_bind, run_map, setState_traffic, (Talk.warn _).traffic]
  · simp [apply, h]

theorem mount_waiting (src : Source) (ctx : Context) (h : src.cascaded = true ∨ src.feed = none) :
    (src.mount ctx : Act W Source) = src.setState .idle := by
  unfold mount
  rcases h with h | h
  · rw [if_pos h]
  · simp [h]

theorem mount_own (src : Source) (ctx : Context) (h : src.ownRecords? = some records) :
    (src.mount ctx : Act W Source) = src.setState (.success records) := by
  unfold ownRecords? at h
  split at h
  · next hc hf => cases h; simp [mount, hc, hf]
  · cases h

theorem mount_remote (src : Source) (ctx : Context) (hc : src.cascaded = false)
    (hf : src.feed = some (.remote r)) :
    (src.mount ctx : Act W Source) = Prod.snd <$> src.fetch ctx r.endpoint := by
  simp [mount, hc, hf]

/-- How a first load ends, and what it does to the traffic. -/
inductive Loads (src : Source) (t : Traffic) : Source → Traffic → Prop
  | waits (h : src.cascaded = true ∨ src.feed = none) : Loads src t { src with state := .idle } t
  | supplies {records : List Json} (h : src.ownRecords? = some records) :
      Loads src t (src.supplied records) t
  | fetches {r : Layout.Remote} {request : Request} (hc : src.cascaded = false)
      (hf : src.feed = some (.remote r)) :
      Loads src t (src.fetched r.endpoint) (t.submit ⟨src.nextTicket, request⟩)

/-- A load that asks for something asks with the next ticket. -/
theorem Loads.submits {src : Source} (h : Loads src t src' u) :
    u = t ∨ ∃ job, job.ticket = src.nextTicket ∧ u = t.submit job := by
  cases h with
  | waits | supplies => exact .inl rfl
  | fetches => exact .inr ⟨_, rfl, rfl⟩

theorem Loads.origin {src : Source} (h : Loads src t src' t') : src'.origin = src.origin := by
  cases h <;> rfl

theorem mount_loads (src : Source) (ctx : Context) (s : Stage W) :
    Loads src s.traffic (src.mount ctx s).1 (src.mount ctx s).2.traffic := by
  by_cases hw : src.cascaded = true ∨ src.feed = none
  · rw [mount_waiting src ctx hw, setState_fst, setState_traffic]
    exact .waits hw
  · obtain ⟨hc, hf⟩ := not_or.mp hw
    have hc : src.cascaded = false := by simpa using hc
    obtain ⟨feed, hf⟩ := Option.ne_none_iff_exists'.mp hf
    cases feed with
    | inline records =>
      have ho : src.ownRecords? = some records := by simp [ownRecords?, hc, hf]
      rw [mount_own src ctx ho, setState_fst, setState_traffic]
      exact .supplies ho
    | remote r =>
      rw [mount_remote src ctx hc hf, run_map, fetch_fst, fetch_traffic]
      exact .fetches hc hf

theorem refresh_again (src : Source) (ctx : Context) (hl : src.lastEndpoint = some endpoint) :
    (src.refresh ctx : Act W (Bool × Source)) =
      (fun p => (true, p.2)) <$> src.fetch ctx endpoint := by
  simp [refresh, hl]

theorem refresh_nothing (src : Source) (ctx : Context) (hl : src.lastEndpoint = none)
    (hc : src.cascaded = true) :
    (src.refresh ctx : Act W (Bool × Source)) =
      (fun _ => (false, src)) <$> Act.warn (.nothingToRefresh src.component) := by
  simp [refresh, hl, hc]

theorem refresh_first (src : Source) (ctx : Context) (hl : src.lastEndpoint = none)
    (hc : src.cascaded = false) :
    (src.refresh ctx : Act W (Bool × Source)) = (true, ·) <$> src.mount ctx := by
  simp [refresh, hl, hc]

/-- Refreshing, by what there is to load again. -/
theorem refresh_cases (src : Source) (ctx : Context) (s : Stage W) :
    (∃ endpoint request, src.lastEndpoint = some endpoint ∧
      (src.refresh ctx s).1 = (true, src.fetched endpoint) ∧
      (src.refresh ctx s).2.traffic = s.traffic.submit ⟨src.nextTicket, request⟩) ∨
    (src.lastEndpoint = none ∧ src.cascaded = true ∧ (src.refresh ctx s).1 = (false, src) ∧
      (src.refresh ctx s).2.traffic = s.traffic) ∨
    (src.lastEndpoint = none ∧ src.cascaded = false ∧
      src.refresh ctx s = ((true, (src.mount ctx s).1), (src.mount ctx s).2)) := by
  cases hl : src.lastEndpoint with
  | some endpoint =>
    rw [refresh_again src ctx hl, run_map, fetch_fst]
    exact .inl ⟨endpoint, _, rfl, rfl, fetch_traffic src ctx endpoint s⟩
  | none =>
    cases hc : src.cascaded with
    | true =>
      rw [refresh_nothing src ctx hl hc]
      exact .inr (.inl ⟨rfl, rfl, rfl, rfl⟩)
    | false =>
      rw [refresh_first src ctx hl hc]
      exact .inr (.inr ⟨rfl, rfl, rfl⟩)

end Source

end LiveLayout.Live
