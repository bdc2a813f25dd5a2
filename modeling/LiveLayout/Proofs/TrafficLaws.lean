import LiveLayout.Proofs.SourceLaws

/-!
# What is known of a ticket

The traffic tells of each ticket how its request stands: it was never asked,
its answer has not been handed on, or this is the result. `standing` reads that
off the jobs and the completions that no longer wait, whoever holds the ticket.
Sound traffic has one job for each ticket and at most one completion, which is
of that job.
-/

namespace LiveLayout.Live

theorem find?_of_nodup {β : Type} [DecidableEq β] {f : α → β} {l : List α} (hl : (l.map f).Nodup)
    (ha : a ∈ l) : l.find? (fun x => f x = f a) = some a := by
  induction l with
  | nil => cases ha
  | cons b rest ih =>
    simp only [List.map_cons, List.nodup_cons] at hl
    rcases List.mem_cons.mp ha with rfl | ha
    · simp
    · have hb : f b ≠ f a := fun h => hl.1 (h ▸ List.mem_map_of_mem ha)
      rw [List.find?_cons_of_neg (by simpa using hb)]
      exact ih hl.2 ha

namespace Traffic

/-- Completions that wait to be applied, with the numbers of their jobs. -/
def waiting (t : Traffic) : List (Nat × Completion) :=
  t.completed.drop (t.completed.length - t.queue.length)

/-- Completions that were handed on. -/
def delivered (t : Traffic) : List (Nat × Completion) :=
  t.completed.take (t.completed.length - t.queue.length)

def tickets (t : Traffic) : List Ticket := t.jobs.map (·.ticket)

/-- How the request of a ticket stands. -/
def standing (t : Traffic) (ticket : Ticket) : FetchState :=
  if ticket ∈ t.tickets then
    match t.delivered.find? (·.2.ticket = ticket) with
    | some p => .ofResult p.2.result
    | none => .loading
  else .idle

structure Sound (t : Traffic) : Prop where
  unique : t.tickets.Nodup
  answered : (t.completed.map (·.2.ticket)).Nodup
  owed : ∀ p ∈ t.completed, ∃ job, t.jobs[p.1]? = some job ∧ p.2.ticket = job.ticket
  queued : t.waiting.map (·.2) = t.queue

theorem delivered_append_waiting (t : Traffic) : t.delivered ++ t.waiting = t.completed :=
  List.take_append_drop _ _

theorem mem_completed_of_delivered {t : Traffic} (h : p ∈ t.delivered) : p ∈ t.completed :=
  List.mem_of_mem_take h

theorem Sound.empty : Sound empty := ⟨.nil, .nil, by simp [Traffic.empty], rfl⟩

theorem Sound.ticket_mem {t : Traffic} (hs : t.Sound) (hp : p ∈ t.completed) :
    p.2.ticket ∈ t.tickets := by
  obtain ⟨job, hj, ht⟩ := hs.owed p hp
  exact ht ▸ List.mem_map_of_mem (List.mem_of_getElem? hj)

theorem Sound.find?_delivered {t : Traffic} (hs : t.Sound) (hp : p ∈ t.delivered) :
    t.delivered.find? (·.2.ticket = p.2.ticket) = some p := by
  refine find?_of_nodup (f := fun p : Nat × Completion => p.2.ticket) ?_ hp
  exact hs.answered.sublist ((List.take_sublist _ _).map _)

-- ---------------------------------------------------------------------------
-- How a ticket stands
-- ---------------------------------------------------------------------------

theorem standing_of_delivered {t : Traffic} (hs : t.Sound) (hp : p ∈ t.delivered) :
    t.standing p.2.ticket = .ofResult p.2.result := by
  rw [standing, if_pos (hs.ticket_mem (mem_completed_of_delivered hp)), hs.find?_delivered hp]

theorem standing_of_undelivered {t : Traffic} (ht : ticket ∈ t.tickets)
    (hn : ∀ p ∈ t.delivered, p.2.ticket ≠ ticket) : t.standing ticket = .loading := by
  have hf : t.delivered.find? (·.2.ticket = ticket) = none := by
    simpa [List.find?_eq_none] using hn
  rw [standing, if_pos ht, hf]

theorem standing_of_unasked {t : Traffic} (ht : ticket ∉ t.tickets) :
    t.standing ticket = .idle := if_neg ht

theorem ofResult_ne_loading (result : Except FetchError (List Json)) :
    FetchState.ofResult result ≠ .loading := by cases result <;> simp [FetchState.ofResult]

theorem ofResult_ne_idle (result : Except FetchError (List Json)) :
    FetchState.ofResult result ≠ .idle := by cases result <;> simp [FetchState.ofResult]

/-- The three ways in which a ticket can stand. -/
theorem standing_cases {t : Traffic} (hs : t.Sound) (ticket : Ticket) :
    (ticket ∉ t.tickets ∧ t.standing ticket = .idle) ∨
    (ticket ∈ t.tickets ∧ (∀ p ∈ t.delivered, p.2.ticket ≠ ticket) ∧ t.standing ticket = .loading) ∨
    (∃ p ∈ t.delivered, p.2.ticket = ticket ∧ t.standing ticket = .ofResult p.2.result) := by
  by_cases ht : ticket ∈ t.tickets
  · by_cases hn : ∀ p ∈ t.delivered, p.2.ticket ≠ ticket
    · exact .inr (.inl ⟨ht, hn, standing_of_undelivered ht hn⟩)
    · simp only [Classical.not_forall, Classical.not_not] at hn
      obtain ⟨p, hp, rfl⟩ := hn
      exact .inr (.inr ⟨p, hp, rfl, standing_of_delivered hs hp⟩)
  · exact .inl ⟨ht, standing_of_unasked ht⟩

theorem standing_eq_idle {t : Traffic} (hs : t.Sound) :
    t.standing ticket = .idle ↔ ticket ∉ t.tickets := by
  rcases standing_cases hs ticket with ⟨ht, h⟩ | ⟨ht, -, h⟩ | ⟨p, hp, rfl, h⟩
  · simp [ht, h]
  · simp [ht, h]
  · simp [h, ofResult_ne_idle, hs.ticket_mem (mem_completed_of_delivered hp)]

theorem standing_eq_loading {t : Traffic} (hs : t.Sound) :
    t.standing ticket = .loading ↔
      ticket ∈ t.tickets ∧ ∀ p ∈ t.delivered, p.2.ticket ≠ ticket := by
  rcases standing_cases hs ticket with ⟨ht, h⟩ | ⟨ht, hn, h⟩ | ⟨p, hp, rfl, h⟩
  · simp [ht, h]
  · exact ⟨fun _ => ⟨ht, hn⟩, fun _ => h⟩
  · rw [h]
    exact ⟨fun h => absurd h (ofResult_ne_loading _), fun hn => absurd rfl (hn.2 p hp)⟩

theorem standing_eq_ofResult {t : Traffic} (hs : t.Sound) :
    t.standing ticket = .ofResult result ↔
      ∃ p ∈ t.delivered, p.2.ticket = ticket ∧ p.2.result = result := by
  constructor
  · intro he
    rcases standing_cases hs ticket with ⟨-, h⟩ | ⟨-, -, h⟩ | ⟨p, hp, ht, h⟩
    · exact absurd (he.symm.trans h) (ofResult_ne_idle _)
    · exact absurd (he.symm.trans h) (ofResult_ne_loading _)
    · refine ⟨p, hp, ht, ?_⟩
      have hr := h.symm.trans he
      cases hp : p.2.result <;> cases result <;> simp_all [FetchState.ofResult]
  · rintro ⟨p, hp, rfl, rfl⟩
    exact standing_of_delivered hs hp

/-- How tickets stand depends on the jobs and on what was handed on only. -/
theorem standing_congr {t u : Traffic} (ht : t.Sound) (hu : u.Sound) (hj : t.jobs = u.jobs)
    (hd : ∀ p, p ∈ t.delivered ↔ p ∈ u.delivered) (ticket : Ticket) :
    t.standing ticket = u.standing ticket := by
  have hk : t.tickets = u.tickets := congrArg (List.map _) hj
  rcases standing_cases hu ticket with ⟨hm, h⟩ | ⟨hm, hn, h⟩ | ⟨p, hp, rfl, h⟩
  · rw [h, standing_of_unasked (hk ▸ hm)]
  · rw [h, standing_of_undelivered (hk ▸ hm) fun p hp => hn p ((hd p).mp hp)]
  · rw [h, standing_of_delivered ht ((hd p).mpr hp)]

-- ---------------------------------------------------------------------------
-- Submitting
-- ---------------------------------------------------------------------------

theorem tickets_submit (t : Traffic) (job : Job) :
    (t.submit job).tickets = t.tickets ++ [job.ticket] := by
  simp [tickets, submit]

theorem Sound.submit {t : Traffic} (hs : t.Sound) (hn : job.ticket ∉ t.tickets) :
    (t.submit job).Sound where
  unique := by
    rw [tickets_submit, List.nodup_append]
    refine ⟨hs.unique, by simp, fun a ha b hb hab => hn ?_⟩
    obtain rfl := List.mem_singleton.mp hb
    exact hab ▸ ha
  answered := hs.answered
  owed p hp := by
    obtain ⟨found, hj, ht⟩ := hs.owed p hp
    exact ⟨found, List.getElem?_append_left (List.getElem?_eq_some_iff.mp hj).1 ▸ hj, ht⟩
  queued := hs.queued

theorem standing_submit_self {t : Traffic} (hs : t.Sound) (hn : job.ticket ∉ t.tickets) :
    (t.submit job).standing job.ticket = .loading := by
  refine standing_of_undelivered (by simp [tickets_submit]) fun p hp h => hn ?_
  exact h ▸ hs.ticket_mem (mem_completed_of_delivered hp)

theorem standing_submit_of_ne {t : Traffic} (hn : ticket ≠ job.ticket) :
    (t.submit job).standing ticket = t.standing ticket := by
  have hm : ticket ∈ (t.submit job).tickets ↔ ticket ∈ t.tickets := by simp [tickets_submit, hn]
  simp only [standing, hm]
  rfl

-- ---------------------------------------------------------------------------
-- Completing
-- ---------------------------------------------------------------------------

theorem complete?_eq_some {t u : Traffic} (h : t.complete? number response = some u) :
    ∃ job, t.openJob? number = some job ∧ u = { t with
      completed := t.completed ++ [(number, job.complete response)]
      queue := t.queue ++ [job.complete response] } := by
  obtain ⟨job, hj, rfl⟩ := Option.map_eq_some_iff.mp h
  exact ⟨job, hj, rfl⟩

theorem openJob?_eq_some {t : Traffic} :
    t.openJob? number = some job ↔
      t.jobs[number]? = some job ∧ ∀ p ∈ t.completed, p.1 ≠ number := by
  have hb : t.completed.any (·.1 == number) = true ↔ ¬∀ p ∈ t.completed, p.1 ≠ number := by simp
  unfold openJob?
  split
  · next h => exact ⟨fun hj => (nomatch hj), fun hj => absurd hj.2 (hb.mp h)⟩
  · next h => exact ⟨fun hj => ⟨hj, Classical.not_not.mp (mt hb.mpr h)⟩, And.left⟩

theorem delivered_complete {t u : Traffic} (h : t.complete? number response = some u) :
    u.delivered = t.delivered := by
  obtain ⟨job, -, rfl⟩ := complete?_eq_some h
  have hl : t.completed.length - t.queue.length ≤ t.completed.length := Nat.sub_le _ _
  simp [delivered, List.take_append_of_le_length hl]

theorem waiting_complete {t u : Traffic} (h : t.complete? number response = some u) :
    ∃ c, u.waiting = t.waiting ++ [(number, c)] ∧ u.queue = t.queue ++ [c] := by
  obtain ⟨job, -, rfl⟩ := complete?_eq_some h
  have hl : t.completed.length - t.queue.length ≤ t.completed.length := Nat.sub_le _ _
  exact ⟨_, by simp [waiting, List.drop_append_of_le_length hl], rfl⟩

theorem Sound.complete {t u : Traffic} (hs : t.Sound) (h : t.complete? number response = some u) :
    u.Sound := by
  have hw := waiting_complete h
  obtain ⟨job, hj, rfl⟩ := complete?_eq_some h
  obtain ⟨hj, hopen⟩ := openJob?_eq_some.mp hj
  refine ⟨hs.unique, ?_, ?_, ?_⟩
  · -- a completion with the ticket of the job would be of its number
    rw [List.map_append, List.nodup_append]
    refine ⟨hs.answered, by simp, fun a ha b hb hab => ?_⟩
    obtain ⟨p, hp, rfl⟩ := List.mem_map.mp ha
    obtain rfl : b = job.ticket := by simpa [Job.complete] using hb
    obtain ⟨other, ho, ht⟩ := hs.owed p hp
    refine hopen p hp ?_
    have hn : t.tickets[p.1]? = t.tickets[number]? := by
      simp [tickets, ho, hj, ← ht, hab]
    have hlt : p.1 < t.tickets.length := by
      simpa [tickets] using (List.getElem?_eq_some_iff.mp ho).1
    exact (List.getElem?_inj hlt hs.unique).mp hn
  · intro p hp
    rcases List.mem_append.mp hp with hp | hp
    · exact hs.owed p hp
    · obtain rfl := List.mem_singleton.mp hp
      exact ⟨job, hj, rfl⟩
  · obtain ⟨c, hw, hq⟩ := hw
    rw [hw, hq, List.map_append, hs.queued]
    rfl

-- ---------------------------------------------------------------------------
-- Handing on
-- ---------------------------------------------------------------------------

theorem delivered_drain (t : Traffic) : t.drain.2.delivered = t.completed := by
  simp [delivered, drain]

theorem Sound.drain {t : Traffic} (hs : t.Sound) : t.drain.2.Sound :=
  ⟨hs.unique, hs.answered, hs.owed, by simp [waiting, Traffic.drain]⟩

theorem Sound.queue_nodup {t : Traffic} (hs : t.Sound) : (t.queue.map (·.ticket)).Nodup := by
  rw [← hs.queued, List.map_map]
  exact hs.answered.sublist ((List.drop_sublist _ _).map _)

/-- Handing on the queue decides for the tickets in it, and for no others. -/
theorem standing_drain {t : Traffic} (hs : t.Sound) (ticket : Ticket) :
    t.drain.2.standing ticket = match t.queue.find? (·.ticket = ticket) with
      | some c => .ofResult c.result
      | none => t.standing ticket := by
  cases hq : t.queue.find? (·.ticket = ticket) with
  | some c =>
    obtain ⟨p, hp, rfl⟩ : ∃ p ∈ t.waiting, p.2 = c := by
      have hc := List.mem_of_find?_eq_some hq
      rw [← hs.queued] at hc
      simpa using hc
    have ht : p.2.ticket = ticket := by simpa using List.find?_some hq
    have hm : p ∈ t.drain.2.delivered := by
      rw [delivered_drain]
      exact List.mem_of_mem_drop hp
    exact ht ▸ standing_of_delivered hs.drain hm
  | none =>
    have hd : ∀ p ∈ t.completed, p.2.ticket = ticket → p ∈ t.delivered := by
      intro p hp ht
      rw [← t.delivered_append_waiting] at hp
      refine (List.mem_append.mp hp).resolve_right fun hw => ?_
      have hc : p.2 ∈ t.queue := hs.queued ▸ List.mem_map_of_mem hw
      have := List.find?_eq_none.mp hq p.2 hc
      simp [ht] at this
    rcases standing_cases hs ticket with ⟨hm, h⟩ | ⟨hm, hn, h⟩ | ⟨p, hp, rfl, h⟩
    · exact h ▸ standing_of_unasked hm
    · refine h ▸ standing_of_undelivered hm fun p hp ht => ?_
      rw [delivered_drain] at hp
      exact hn p (hd p hp ht) ht
    · refine h ▸ standing_of_delivered hs.drain ?_
      rw [delivered_drain]
      exact mem_completed_of_delivered hp

end Traffic

-- ---------------------------------------------------------------------------
-- Receiving
-- ---------------------------------------------------------------------------

namespace Source

/-- Of completions for different tickets a source takes the one for its own. -/
theorem foldl_received (src : Source) {cs : List Completion} (hn : (cs.map (·.ticket)).Nodup) :
    cs.foldl received src = match cs.find? (·.ticket = src.ticket) with
      | some c => { src with state := .ofResult c.result }
      | none => src := by
  induction cs generalizing src with
  | nil => rfl
  | cons c rest ih =>
    simp only [List.map_cons, List.nodup_cons] at hn
    by_cases h : c.ticket = src.ticket
    · have hr : rest.find? (·.ticket = src.ticket) = none := by
        rw [List.find?_eq_none]
        intro d hd hdt
        exact hn.1 (h ▸ of_decide_eq_true hdt ▸ List.mem_map_of_mem hd)
      have hs : src.received c = { src with state := .ofResult c.result } := if_pos h
      have ht : (src.received c).ticket = src.ticket := by rw [hs]; rfl
      rw [List.foldl_cons, ih _ hn.2, ht, hr, List.find?_cons_of_pos (by simpa using h)]
      exact hs
    · have hs : src.received c = src := if_neg h
      rw [List.foldl_cons, hs, ih _ hn.2, List.find?_cons_of_neg (by simpa using h)]

end Source

end LiveLayout.Live
