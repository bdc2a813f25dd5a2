import LiveLayout.Proofs.TrafficLaws
import LiveLayout.Proofs.Turns

/-!
# States that are due

A source that agrees with the traffic is in the state in which its ticket
stands, has no job later than its generation, and asks for nothing if it has
records of its own. Where all sources agree, and no job is for a node to come,
the renderer is settled; every operation leaves it so.
-/

namespace LiveLayout.Live

namespace Source

structure Agrees (t : Traffic) (src : Source) : Prop where
  past : ∀ job ∈ t.jobs, job.ticket.node = src.key → job.ticket.generation ≤ src.generation
  due : src.ownRecords? = none → src.state = t.standing src.ticket
  own : ∀ records, src.ownRecords? = some records →
    src.state = .success records ∧ src.lastEndpoint = none ∧
      ∀ job ∈ t.jobs, job.ticket.node ≠ src.key

section
variable {t u : Traffic} {src src' : Source}

/-- A later generation was never asked for. -/
theorem Agrees.unasked (h : src.Agrees t) : src.nextTicket ∉ t.tickets := by
  intro hm
  obtain ⟨job, hj, ht⟩ := List.mem_map.mp hm
  have hle := h.past job hj (by rw [ht]; rfl)
  rw [ht] at hle
  exact Nat.not_succ_le_self _ hle

theorem Agrees.fetched (hs : t.Sound) (h : src.Agrees t) (ho : src.ownRecords? = none)
    (endpoint : String) (request : Request) :
    (src.fetched endpoint).Agrees (t.submit ⟨src.nextTicket, request⟩) where
  past job hj hn := by
    rcases List.mem_append.mp hj with hj | hj
    · exact Nat.le_succ_of_le (h.past job hj hn)
    · obtain rfl := List.mem_singleton.mp hj
      exact Nat.le_refl _
  due _ := (Traffic.standing_submit_self hs h.unasked).symm
  own records hr := by
    rw [← ownRecords?_origin, origin_fetched, ownRecords?_origin, ho] at hr
    cases hr

theorem Agrees.cleared (h : src.Agrees t) (ho : src.ownRecords? = none) :
    src.cleared.Agrees t where
  past job hj hn := Nat.le_succ_of_le (h.past job hj hn)
  due _ := (Traffic.standing_of_unasked h.unasked).symm
  own records hr := by
    rw [← ownRecords?_origin, origin_cleared, ownRecords?_origin, ho] at hr
    cases hr

/-- Jobs of other nodes are no concern of a source. -/
theorem Agrees.submit (h : src.Agrees t) (hn : job.ticket.node ≠ src.key) :
    src.Agrees (t.submit job) := by
  have hj : ∀ other ∈ (t.submit job).jobs, other.ticket.node = src.key → other ∈ t.jobs := by
    intro other ho he
    refine (List.mem_append.mp ho).resolve_right fun hm => hn ?_
    rw [← List.mem_singleton.mp hm, he]
  refine ⟨fun other ho he => h.past other (hj other ho he) he, fun ho => ?_, fun records hr => ?_⟩
  · rw [h.due ho, Traffic.standing_submit_of_ne]
    exact fun he => hn (he ▸ rfl)
  · obtain ⟨hst, hl, hno⟩ := h.own records hr
    exact ⟨hst, hl, fun other ho he => hno other (hj other ho he) he⟩

theorem Agrees.congr (h : src.Agrees t) (hj : u.jobs = t.jobs) (hd : u.delivered = t.delivered) :
    src.Agrees u := by
  have hst : u.standing src.ticket = t.standing src.ticket := by
    have hk : u.tickets = t.tickets := congrArg (List.map _) hj
    unfold Traffic.standing
    rw [hk, hd]
  exact ⟨hj ▸ h.past, fun ho => hst ▸ h.due ho, hj ▸ h.own⟩

/-- A first load leaves a source in the state that is due. -/
theorem Loads.agrees (hl : src.Loads t src' u) (hs : t.Sound)
    (hp : ∀ job ∈ t.jobs, job.ticket.node = src.key → job.ticket.generation ≤ src.generation)
    (hw : src.cascaded = true ∨ src.feed = none → t.standing src.ticket = .idle)
    (ho : ∀ records, src.ownRecords? = some records →
      src.lastEndpoint = none ∧ ∀ job ∈ t.jobs, job.ticket.node ≠ src.key) :
    src'.Agrees u := by
  cases hl with
  | waits h =>
    have hn : src.ownRecords? = none := by
      unfold ownRecords?
      rcases h with h | h <;> simp [h]
    refine ⟨hp, fun _ => (hw h).symm, fun records hr => ?_⟩
    exact absurd (hn.symm.trans hr) (by simp)
  | @supplies records h =>
    refine ⟨hp, fun hn => absurd (h.symm.trans hn) (by simp), fun other hr => ?_⟩
    obtain rfl : records = other := Option.some.inj (h.symm.trans hr)
    exact ⟨rfl, ho records h⟩
  | @fetches r request hc hf =>
    have hn : src.ownRecords? = none := by simp [ownRecords?, hc, hf]
    have ha : ({ src with state := t.standing src.ticket } : Source).Agrees t :=
      ⟨hp, fun _ => rfl, fun records hr => absurd (hn.symm.trans hr) (by simp)⟩
    exact ha.fetched hs hn r.endpoint request

/-- Receiving what was in the queue leaves a source in the state that is due. -/
theorem Agrees.received (hs : t.Sound) (h : src.Agrees t) :
    (t.queue.foldl Source.received src).Agrees t.drain.2 := by
  have hst := Traffic.standing_drain hs src.ticket
  rw [foldl_received src hs.queue_nodup]
  cases hq : t.queue.find? (·.ticket = src.ticket) with
  | none =>
    rw [hq] at hst
    exact ⟨h.past, fun ho => (h.due ho).trans hst.symm, h.own⟩
  | some c =>
    rw [hq] at hst
    refine ⟨h.past, fun _ => hst.symm, fun records hr => ?_⟩
    -- a source with records of its own has no job, so nothing was for it
    have hc : c ∈ t.queue := List.mem_of_find?_eq_some hq
    have ht : c.ticket = src.ticket := by simpa using List.find?_some hq
    obtain ⟨p, hp, rfl⟩ := List.mem_map.mp (hs.queued ▸ hc)
    obtain ⟨job, hj, hjt⟩ := hs.owed p (List.mem_of_mem_drop hp)
    refine absurd ?_ ((h.own records hr).2.2 job (List.mem_of_getElem? hj))
    rw [← hjt, ht]
    rfl

end

end Source

namespace Renderer

structure Settled (r : Renderer W) : Prop where
  sound : r.stage.traffic.Sound
  given : ∀ job ∈ r.stage.traffic.jobs, job.ticket.node.ordinal < r.nextKey
  agree : ∀ key src, KeyMap.get? r.sources key = some src →
    src.key = key ∧ src.Agrees r.stage.traffic

section
variable {W : Type} {r r' : Renderer W}

theorem settled_new (library : Library W) (options : Options) :
    Settled (new library options) where
  sound := .empty
  given := fun _ hj => (nomatch hj)
  agree := fun _ _ hs => (nomatch hs)

/-- Only sources, keys and the traffic matter. -/
theorem Settled.mono (h : Settled r) (hk : r.nextKey ≤ r'.nextKey)
    (hs : ∀ key src, KeyMap.get? r'.sources key = some src → KeyMap.get? r.sources key = some src)
    (ht : r'.stage.traffic = r.stage.traffic) : Settled r' := by
  refine ⟨ht ▸ h.sound, fun job hj => ?_, fun key src hg => ?_⟩
  · exact Nat.lt_of_lt_of_le (h.given job (ht ▸ hj)) hk
  · exact ht ▸ h.agree key src (hs key src hg)

/-- A source is put in that agrees, and the job of its node, if any, with it. -/
theorem Settled.putSource {stage : Stage W} (h : Settled r)
    (ho : src.key = key ∧ src.Agrees stage.traffic) (hk : key.ordinal < r.nextKey)
    (hn : ticket.node = key ∧ ticket ∉ r.stage.traffic.tickets)
    (ht : stage.traffic = r.stage.traffic ∨
      ∃ job, job.ticket = ticket ∧ stage.traffic = r.stage.traffic.submit job) :
    Settled (r.putSource key src stage) := by
  obtain ⟨hnode, hnew⟩ := hn
  have hother {other src'} (hne : key ≠ other) (hg : KeyMap.get? r.sources other = some src') :
      src'.key = other ∧ src'.Agrees stage.traffic := by
    obtain ⟨hok, hoa⟩ := h.agree other src' hg
    refine ⟨hok, ?_⟩
    rcases ht with ht | ⟨job, rfl, ht⟩
    · exact ht ▸ hoa
    · exact ht ▸ hoa.submit (hnode ▸ hok ▸ hne)
  refine ⟨?_, fun job hj => ?_, fun other src' hg => ?_⟩
  · rcases ht with ht | ⟨job, rfl, ht⟩
    · exact (ht ▸ h.sound : stage.traffic.Sound)
    · exact (ht ▸ h.sound.submit hnew : stage.traffic.Sound)
  · change job ∈ stage.traffic.jobs at hj
    rcases ht with ht | ⟨new, rfl, ht⟩
    · exact h.given job (ht ▸ hj)
    · rw [ht] at hj
      rcases List.mem_append.mp hj with hj | hj
      · exact h.given job hj
      · exact List.mem_singleton.mp hj ▸ hnode ▸ hk
  · rw [get?_putSource] at hg
    split at hg
    · next he =>
      obtain rfl := Option.some.inj hg
      exact he ▸ ho
    · next hne => exact hother hne hg

theorem Settled.stir (h : Settled r) (hx : Shows xs r) (hs : Stir r r') : Settled r' := by
  cases hs with
  | talk ht => exact h.mono (Nat.le_refl _) (fun _ _ hg => hg) ht
  | @fetch key src request endpoint stage hs hc ht =>
    obtain ⟨hk, ha⟩ := h.agree key src hs
    have ho : src.ownRecords? = none := by
      refine Option.eq_none_iff_forall_not_mem.mpr fun records hr => ?_
      rcases hc with hc | hc
      · simp [Source.ownRecords?, hc] at hr
      · rw [(ha.own records hr).2.1] at hc
        cases hc
    refine h.putSource ⟨hk, ?_⟩ (hx.key_lt hs) ⟨hk, ha.unasked⟩ (.inr ⟨_, rfl, ht⟩)
    exact ht ▸ ha.fetched h.sound ho _ _
  | clear hs hc ht =>
    obtain ⟨hk, ha⟩ := h.agree _ _ hs
    refine h.putSource ⟨hk, ?_⟩ (hx.key_lt hs) ⟨hk, ha.unasked⟩ (.inl ht)
    exact ht ▸ ha.cleared (by simp [Source.ownRecords?, hc])
  | @load key src src' stage hs he hc hl =>
    obtain ⟨hk, ha⟩ := h.agree key src hs
    have hk' : src'.key = key := (congrArg Source.key hl.origin).trans hk
    refine h.putSource ⟨hk', ?_⟩ (hx.key_lt hs) ⟨hk, ha.unasked⟩ hl.submits
    refine hl.agrees h.sound ha.past (fun hw => ?_) fun records hr => (ha.own records hr).2
    rcases hw with hw | hw
    · exact absurd (hc.symm.trans hw) (by simp)
    · exact absurd hw (hx.feed_of_source hs hc)

theorem Settled.stirs (h : Settled r) (hx : Shows xs r) (hs : Stirs r r') : Settled r' := by
  induction hs with
  | refl => exact h
  | tail hst hs ih => exact ih.stir (hx.stirs hst) hs

theorem Settled.mounts (h : Settled r) (hk : x.key = ⟨r.nextKey⟩) (hm : Mounts r x r') :
    Settled r' := by
  have hnew : ∀ job ∈ r.stage.traffic.jobs, job.ticket.node ≠ x.key := by
    intro job hj he
    have hlt := h.given job hj
    rw [he, hk] at hlt
    exact Nat.lt_irrefl _ hlt
  have hr : Settled { r with nextKey := r.nextKey + 1 } :=
    h.mono (Nat.le_succ _) (fun _ _ hg => hg) rfl
  cases hm with
  | plain _ ht => exact hr.mono (Nat.le_refl _) (fun _ _ hg => hg) ht
  | @loading src stage hs hl =>
    have hsk : src.key = x.key := congrArg Source.key hl.origin
    have hun : ∀ generation, (⟨x.key, generation⟩ : Ticket) ∉ r.stage.traffic.tickets := by
      intro generation hm
      obtain ⟨job, hj, ht⟩ := List.mem_map.mp hm
      exact hnew job hj (by rw [ht])
    have ha : src.Agrees stage.traffic :=
      hl.agrees h.sound (fun job hj he => absurd he (hnew job hj))
        (fun _ => Traffic.standing_of_unasked (hun _)) fun _ _ => ⟨rfl, hnew⟩
    have hp := hr.putSource ⟨hsk, ha⟩ (hk ▸ Nat.lt_succ_self _) ⟨rfl, hun _⟩ hl.submits
    exact hp.mono (Nat.le_refl _) (fun _ _ hg => hg) rfl

theorem Settled.mountsAll (h : Settled r) (hm : MountsAll r xs r') : Settled r' := by
  induction hm with
  | none => exact h
  | talk ht _ ih => exact ih (h.mono (Nat.le_refl _) (fun _ _ hg => hg) ht)
  | mount hk hm _ ih => exact ih (h.mounts hk hm)

/-- A renderer that shows just what it keeps, in the states that are due. -/
def Sane (r : Renderer W) : Prop := (∃ xs, Shows xs r) ∧ Settled r

theorem sane_new (library : Library W) (options : Options) : Sane (new library options) :=
  ⟨⟨[], shows_new library options⟩, settled_new library options⟩

end

variable {W : Type} [Widget W] {r r' : Renderer W}

theorem Settled.turn (h : Settled r) (hx : Shows xs r) (ht : Turn xs r op ys r') : Settled r' := by
  cases ht with
  | stirs _ hs => exact h.stirs hx hs
  | takes _ key =>
    rw [unmountKey_run]
    cases hm : KeyMap.get? r.mounted key with
    | none => exact h
    | some m =>
      refine h.mono (Nat.le_refl _) (fun other src hg => ?_) rfl
      change KeyMap.get? (KeyMap.erase r.sources key) other = some src at hg
      rw [KeyMap.get?_erase] at hg
      split at hg
      · cases hg
      · exact hg
  | clears => exact h.mono (Nat.le_refl _) (fun _ _ hg => (nomatch hg)) rfl
  | rejects => exact h
  | @shows concerns _ _ _ _ handlers hc hm =>
    have hg : Settled (ground handlers concerns r) :=
      h.mono (Nat.le_refl _) (fun _ _ hg => (nomatch hg)) (toldConcerns_traffic ..)
    exact (hg.mountsAll hm).mono (Nat.le_refl _) (fun _ _ hg => hg) rfl
  | completes number response =>
    rw [complete_run]
    cases hc : r.stage.traffic.complete? number response with
    | none => exact h
    | some u =>
      have hj : u.jobs = r.stage.traffic.jobs := by
        obtain ⟨job, -, rfl⟩ := Traffic.complete?_eq_some hc
        rfl
      refine ⟨h.sound.complete hc, fun job hm => h.given job (hj ▸ hm), fun key src hg => ?_⟩
      obtain ⟨hk, ha⟩ := h.agree key src hg
      exact ⟨hk, ha.congr hj (Traffic.delivered_complete hc)⟩
  | pumps =>
    have hd : Shows xs (drained r) := hx.of_fixedPart rfl _
    obtain ⟨⟨_, _, hl⟩, -, ht, hg⟩ := hd.applyAll r.stage.traffic.queue
    rw [pump_snd]
    refine ⟨?_, ?_, fun key src hs => ?_⟩
    · rw [ht]
      exact h.sound.drain
    · rw [ht, hl]
      exact h.given
    · rw [hg] at hs
      obtain ⟨old, ho, rfl⟩ := Option.map_eq_some_iff.mp hs
      obtain ⟨hk, ha⟩ := h.agree key old ho
      have hr := ha.received h.sound
      rw [ht]
      refine ⟨?_, hr⟩
      rw [← hk, Source.foldl_received old h.sound.queue_nodup]
      split <;> rfl

theorem Sane.after (h : Sane r) (op : Operation) : Sane (r.after op) := by
  obtain ⟨⟨xs, hx⟩, hs⟩ := h
  obtain ⟨ys, ht, hy⟩ := hx.turn op
  exact ⟨⟨ys, hy⟩, hs.turn hx ht⟩

theorem Sane.afterAll (h : Sane r) (ops : List Operation) : Sane (r.afterAll ops) := by
  induction ops generalizing r with
  | nil => exact h
  | cons op ops ih => exact ih (h.after op)

theorem Reachable.sane {library : Library W} {options : Options}
    (h : Reachable library options r) : Sane r := by
  induction h with
  | new => exact sane_new ..
  | after op _ ih => exact ih.after op

theorem Reachable.carries {library : Library W} {options : Options}
    (h : Reachable library options r) : Carries (Renderer.new library options) r := by
  induction h with
  | new => exact .refl _
  | after op hr ih =>
    obtain ⟨⟨xs, hx⟩, -⟩ := hr.sane
    obtain ⟨ys, ht, -⟩ := hx.turn op
    exact ih.trans (ht.carries hx)

end Renderer

end LiveLayout.Live
