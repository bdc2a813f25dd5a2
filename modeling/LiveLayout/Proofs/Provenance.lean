import Mathlib.Data.List.Induction
import LiveLayout.Proofs.Settling

/-!
# Where data come from

A state of a data source is told by its latest request alone: it is loading
until the answer to it was pumped, and then it is just what completing that job
with its own response gave. The ledger of a run says which answers there were
and which of them were pumped.
-/

namespace LiveLayout.Live

-- ---------------------------------------------------------------------------
-- Traffic that only grows
-- ---------------------------------------------------------------------------

namespace Traffic

/-- More jobs, and nothing else. -/
def Grows (t u : Traffic) : Prop := ∃ more, u = { t with jobs := t.jobs ++ more }

theorem Grows.refl (t : Traffic) : t.Grows t := ⟨[], by rw [List.append_nil]⟩

theorem Grows.trans {t u v : Traffic} (h : t.Grows u) (h' : u.Grows v) : t.Grows v := by
  obtain ⟨more, rfl⟩ := h
  obtain ⟨yet, rfl⟩ := h'
  exact ⟨more ++ yet, by rw [List.append_assoc]⟩

theorem grows_submit (t : Traffic) (job : Job) : t.Grows (t.submit job) := ⟨[job], rfl⟩

end Traffic

theorem Source.Loads.grows {src : Source} (h : src.Loads t src' u) : t.Grows u := by
  rcases h.submits with rfl | ⟨job, -, rfl⟩
  · exact .refl _
  · exact Traffic.grows_submit ..

namespace Renderer

section
variable {W : Type} {r r' : Renderer W}

theorem Stir.grows (h : Stir r r') : r.stage.traffic.Grows r'.stage.traffic := by
  cases h with
  | talk ht | clear _ _ ht => exact ht ▸ Traffic.Grows.refl _
  | fetch _ _ ht => exact ht ▸ Traffic.grows_submit ..
  | load _ _ _ hl => exact hl.grows

theorem Stirs.grows (h : Stirs r r') : r.stage.traffic.Grows r'.stage.traffic := by
  induction h with
  | refl => exact .refl _
  | tail _ hs ih => exact ih.trans hs.grows

theorem MountsAll.grows (h : MountsAll r xs r') : r.stage.traffic.Grows r'.stage.traffic := by
  induction h with
  | none => exact .refl _
  | talk ht _ ih => exact ht ▸ ih
  | mount _ hm _ ih =>
    refine Traffic.Grows.trans ?_ ih
    cases hm with
    | plain _ ht => exact ht ▸ Traffic.Grows.refl _
    | loading _ hl => exact hl.grows

end

variable {W : Type} [Widget W]

-- ---------------------------------------------------------------------------
-- Answers in a run
-- ---------------------------------------------------------------------------

/-- In the course of the run a job is completed with a response. -/
def Completed (r : Renderer W) (ops : List Operation) (number : Nat)
    (response : Except FetchError Json) : Prop :=
  ∃ first last, ops = first ++ .complete number response :: last ∧
    (perform (.complete number response) (r.afterAll first)).1 = .said true

/-- In the course of the run a job is completed with a response, and pumped
later on. -/
def Handed (r : Renderer W) (ops : List Operation) (number : Nat)
    (response : Except FetchError Json) : Prop :=
  ∃ first last, ops = first ++ .pump :: last ∧ Completed r first number response

section
variable {r : Renderer W} {ops : List Operation} {number : Nat}
  {response : Except FetchError Json}

theorem completed_nil : ¬Completed r [] number response := by
  rintro ⟨first, last, he, -⟩
  simp at he

theorem completed_cons {op : Operation} :
    Completed r (op :: ops) number response ↔
      (op = .complete number response ∧ (perform op r).1 = .said true) ∨
        Completed (r.after op) ops number response := by
  constructor
  · rintro ⟨first, last, he, hr⟩
    cases first with
    | nil =>
      obtain ⟨rfl, -⟩ := List.cons.inj he
      exact .inl ⟨rfl, hr⟩
    | cons op' first =>
      obtain ⟨rfl, rfl⟩ := List.cons.inj he
      exact .inr ⟨first, last, rfl, hr⟩
  · rintro (⟨rfl, hr⟩ | ⟨first, last, rfl, hr⟩)
    · exact ⟨[], ops, rfl, hr⟩
    · exact ⟨op :: first, last, rfl, hr⟩

theorem completed_append {more : List Operation} :
    Completed r (ops ++ more) number response ↔
      Completed r ops number response ∨ Completed (r.afterAll ops) more number response := by
  induction ops generalizing r with
  | nil => simp [completed_nil]
  | cons op ops ih => simp [completed_cons, ih, or_assoc]

theorem completed_concat {op : Operation} :
    Completed r (ops ++ [op]) number response ↔ Completed r ops number response ∨
      op = .complete number response ∧ (perform op (r.afterAll ops)).1 = .said true := by
  simp [completed_append, completed_cons, completed_nil]

/-- An operation that completes nothing. -/
theorem completed_skip {op : Operation} (ho : ∀ number response, op ≠ .complete number response) :
    Completed r (ops ++ [op]) number response ↔ Completed r ops number response := by
  rw [completed_concat]
  exact or_iff_left fun he => ho _ _ he.1

/-- What stands at a place of a longer list stands at its end or before. -/
theorem append_singleton_cases {l first last : List α} (h : l ++ [a] = first ++ b :: last) :
    (l = first ∧ a = b) ∨ ∃ middle, l = first ++ b :: middle := by
  rcases List.eq_nil_or_concat last with rfl | ⟨middle, c, rfl⟩
  · obtain ⟨rfl, hc⟩ := List.append_inj' h rfl
    exact .inl ⟨rfl, (List.cons.inj hc).1⟩
  · rw [List.concat_eq_append, ← List.cons_append, ← List.append_assoc] at h
    exact .inr ⟨middle, (List.append_inj' h rfl).1⟩

theorem handed_concat {op : Operation} :
    Handed r (ops ++ [op]) number response ↔ Handed r ops number response ∨
      op = .pump ∧ Completed r ops number response := by
  constructor
  · rintro ⟨first, last, he, hr⟩
    rcases append_singleton_cases he with ⟨rfl, rfl⟩ | ⟨middle, rfl⟩
    · exact .inr ⟨rfl, hr⟩
    · exact .inl ⟨first, middle, rfl, hr⟩
  · rintro (⟨first, last, rfl, hr⟩ | ⟨rfl, hr⟩)
    · exact ⟨first, last ++ [op], by simp, hr⟩
    · exact ⟨ops, [], rfl, hr⟩

/-- An operation that hands nothing on. -/
theorem handed_skip {op : Operation} (ho : op ≠ .pump) :
    Handed r (ops ++ [op]) number response ↔ Handed r ops number response := by
  rw [handed_concat]
  exact or_iff_left fun he => ho he.1

theorem Handed.completed (h : Handed r ops number response) : Completed r ops number response := by
  obtain ⟨first, last, rfl, hc⟩ := h
  exact completed_append.mpr (.inl hc)

/-- A pump hands on all that was completed. -/
theorem handed_pump : Handed r (ops ++ [.pump]) number response ↔
    Completed r ops number response := by
  rw [handed_concat]
  exact ⟨fun hd => hd.elim Handed.completed And.right, fun hd => .inr ⟨rfl, hd⟩⟩

theorem said_complete :
    (perform (.complete number response) r).1 = .said true ↔
      ∃ u, r.stage.traffic.complete? number response = some u := by
  have hp : (perform (.complete number response) r).1 =
      .said (Act.complete number response r.stage).1 := rfl
  rw [hp, complete_run]
  cases r.stage.traffic.complete? number response <;> simp

theorem completed_refused {n : Nat} {resp : Except FetchError Json}
    (hu : (r.afterAll ops).stage.traffic.complete? number response = none) :
    Completed r (ops ++ [.complete number response]) n resp ↔ Completed r ops n resp := by
  rw [completed_concat, said_complete, Operation.complete.injEq]
  refine or_iff_left ?_
  rintro ⟨⟨rfl, rfl⟩, u, hs⟩
  cases hu.symm.trans hs

theorem completed_accepted {n : Nat} {resp : Except FetchError Json}
    (hu : (r.afterAll ops).stage.traffic.complete? number response = some u) :
    Completed r (ops ++ [.complete number response]) n resp ↔
      Completed r ops n resp ∨ number = n ∧ response = resp := by
  rw [completed_concat, said_complete, Operation.complete.injEq]
  exact or_congr_right (and_iff_left ⟨u, hu⟩)

end

-- ---------------------------------------------------------------------------
-- The ledger
-- ---------------------------------------------------------------------------

/-- What the traffic knows of completions is what happened in the run. -/
structure Ledger (r : Renderer W) (ops : List Operation) (t : Traffic) : Prop where
  known : ∀ number response, Completed r ops number response → number < t.jobs.length
  completed : ∀ number c, (number, c) ∈ t.completed ↔ ∃ job response,
    t.jobs[number]? = some job ∧ Completed r ops number response ∧ job.complete response = c
  delivered : ∀ number c, (number, c) ∈ t.delivered ↔ ∃ job response,
    t.jobs[number]? = some job ∧ Handed r ops number response ∧ job.complete response = c

section
variable {r₀ : Renderer W} {ops : List Operation} {t u : Traffic}

theorem Ledger.grows (h : Ledger r₀ ops t) (hg : t.Grows u)
    (hc : ∀ number response, op ≠ .complete number response) (hp : op ≠ .pump) :
    Ledger r₀ (ops ++ [op]) u := by
  obtain ⟨more, rfl⟩ := hg
  have hjobs {number response} (hd : Completed r₀ ops number response) :
      (t.jobs ++ more)[number]? = t.jobs[number]? :=
    List.getElem?_append_left (h.known _ _ hd)
  refine ⟨fun number response hd => ?_, fun number c => ?_, fun number c => ?_⟩
  · rw [List.length_append]
    exact Nat.lt_of_lt_of_le (h.known _ _ ((completed_skip hc).mp hd)) (Nat.le_add_right ..)
  · refine (h.completed number c).trans (exists₂_congr fun job response => ?_)
    rw [completed_skip hc]
    exact and_congr_left fun hd => by rw [hjobs hd.1]
  · refine (h.delivered number c).trans (exists₂_congr fun job response => ?_)
    rw [handed_skip hp]
    exact and_congr_left fun hd => by rw [hjobs hd.1.completed]

theorem Ledger.complete (h : Ledger r₀ ops (r₀.afterAll ops).stage.traffic) (number : Nat)
    (response : Except FetchError Json) :
    Ledger r₀ (ops ++ [.complete number response])
      (Act.complete number response (r₀.afterAll ops).stage).2.traffic := by
  have hh {n resp} : Handed r₀ (ops ++ [.complete number response]) n resp ↔
      Handed r₀ ops n resp := handed_skip fun he => (nomatch he)
  rw [complete_run]
  cases hu : (r₀.afterAll ops).stage.traffic.complete? number response with
  | none =>
    have hcc {n resp} : Completed r₀ (ops ++ [.complete number response]) n resp ↔
        Completed r₀ ops n resp := completed_refused hu
    exact ⟨fun n resp hd => h.known n resp (hcc.mp hd), by simpa only [hcc] using h.completed,
      by simpa only [hh] using h.delivered⟩
  | some u =>
    have hd := Traffic.delivered_complete hu
    have hcc {n resp} : Completed r₀ (ops ++ [.complete number response]) n resp ↔
        Completed r₀ ops n resp ∨ number = n ∧ response = resp := completed_accepted hu
    obtain ⟨job, ho, rfl⟩ := Traffic.complete?_eq_some hu
    have hj := (Traffic.openJob?_eq_some.mp ho).1
    refine ⟨fun n resp hn => ?_, fun n c => ?_, fun n c => ?_⟩
    · rcases hcc.mp hn with hn | ⟨rfl, -⟩
      · exact h.known n resp hn
      · exact (List.getElem?_eq_some_iff.mp hj).1
    · simp only [List.mem_append, List.mem_singleton, Prod.mk.injEq, h.completed, hcc]
      constructor
      · rintro (⟨other, resp, hg, hc, rfl⟩ | ⟨rfl, rfl⟩)
        · exact ⟨other, resp, hg, .inl hc, rfl⟩
        · exact ⟨job, response, hj, .inr ⟨rfl, rfl⟩, rfl⟩
      · rintro ⟨other, resp, hg, hc | ⟨rfl, rfl⟩, rfl⟩
        · exact .inl ⟨other, resp, hg, hc, rfl⟩
        · obtain rfl : job = other := Option.some.inj (hj.symm.trans hg)
          exact .inr ⟨rfl, rfl⟩
    · rw [hd]
      simpa only [hh] using h.delivered n c

theorem Ledger.pump (h : Ledger r₀ ops t) : Ledger r₀ (ops ++ [.pump]) t.drain.2 := by
  have hcc {number response} : Completed r₀ (ops ++ [.pump]) number response ↔
      Completed r₀ ops number response := completed_skip fun _ _ he => (nomatch he)
  refine ⟨fun number response hd => h.known _ _ (hcc.mp hd), fun number c => ?_, fun number c => ?_⟩
  · simp only [hcc]
    exact h.completed number c
  · rw [Traffic.delivered_drain]
    simp only [handed_pump]
    exact h.completed number c

end

theorem ledger_nil {r₀ : Renderer W} (ht : r₀.stage.traffic = .empty) :
    Ledger r₀ [] r₀.stage.traffic := by
  rw [ht]
  refine ⟨fun _ _ h => absurd h completed_nil, fun number c => ?_, fun number c => ?_⟩
  · simp [Traffic.empty, completed_nil]
  · simp [Traffic.delivered, Traffic.empty]

theorem ledger_afterAll (library : Library W) (options : Options) (ops : List Operation) :
    Ledger (new library options) ops ((new library options).afterAll ops).stage.traffic := by
  induction ops using List.reverseRecOn with
  | nil => exact ledger_nil rfl
  | append_singleton ops op ih =>
    obtain ⟨⟨xs, hx⟩, -⟩ := (sane_new library options).afterAll ops
    obtain ⟨ys, ht, -⟩ := hx.turn op
    have ha : (new library options).afterAll (ops ++ [op]) =
        ((new library options).afterAll ops).after op := by
      rw [afterAll_append, afterAll_cons, afterAll_nil]
    rw [ha]
    generalize hr : ((new library options).afterAll ops).after op = r' at ht
    cases ht with
    | stirs ho hs =>
      exact ih.grows hs.grows (by rintro _ _ rfl; cases ho) (by rintro rfl; cases ho)
    | takes ho key =>
      have hg : (unmountKey key ((new library options).afterAll ops)).2.stage.traffic =
          ((new library options).afterAll ops).stage.traffic := by
        rw [unmountKey_run]
        split <;> rfl
      rw [hg]
      exact ih.grows (.refl _) (by rintro _ _ rfl; cases ho) (by rintro rfl; cases ho)
    | clears => exact ih.grows (.refl _) (fun _ _ he => (nomatch he)) (fun he => (nomatch he))
    | rejects => exact ih.grows (.refl _) (fun _ _ he => (nomatch he)) (fun he => (nomatch he))
    | @shows concerns _ _ _ _ handlers hc hm =>
      have hg := hm.grows
      rw [show (ground handlers concerns ((new library options).afterAll ops)).stage.traffic = _
        from toldConcerns_traffic ..] at hg
      exact ih.grows hg (fun _ _ he => (nomatch he)) (fun he => (nomatch he))
    | completes number response => exact ih.complete number response
    | pumps =>
      have hd : Shows xs (drained ((new library options).afterAll ops)) := hx.of_fixedPart rfl _
      rw [pump_snd, (hd.applyAll _).2.2.1]
      exact ih.pump

-- ---------------------------------------------------------------------------
-- Sources
-- ---------------------------------------------------------------------------

/-- The state of a source is told by the job of its ticket, if there is one. -/
structure Traced (r₀ : Renderer W) (ops : List Operation) (src : Source) : Prop where
  loading : src.state = .loading ↔ ∃ number job,
    (r₀.afterAll ops).stage.traffic.jobs[number]? = some job ∧ job.ticket = src.ticket ∧
      ∀ response, ¬Handed r₀ ops number response
  success : ∀ records, src.state = .success records ↔ ∃ number job response,
    (r₀.afterAll ops).stage.traffic.jobs[number]? = some job ∧ job.ticket = src.ticket ∧
      Handed r₀ ops number response ∧ (job.complete response).result = .ok records
  failed : ∀ error, src.state = .failed error ↔ ∃ number job response,
    (r₀.afterAll ops).stage.traffic.jobs[number]? = some job ∧ job.ticket = src.ticket ∧
      Handed r₀ ops number response ∧ (job.complete response).result = .error error
  idle : src.state = .idle ↔
    ∀ job ∈ (r₀.afterAll ops).stage.traffic.jobs, job.ticket ≠ src.ticket

theorem Ledger.traced {r₀ : Renderer W}
    (h : Ledger r₀ ops (r₀.afterAll ops).stage.traffic)
    (hs : (r₀.afterAll ops).stage.traffic.Sound)
    (hd : src.state = (r₀.afterAll ops).stage.traffic.standing src.ticket) :
    Traced r₀ ops src := by
  have hof : ∀ result, src.state = .ofResult result ↔ ∃ number job response,
      (r₀.afterAll ops).stage.traffic.jobs[number]? = some job ∧ job.ticket = src.ticket ∧
        Handed r₀ ops number response ∧ (job.complete response).result = result := by
    intro result
    rw [hd, Traffic.standing_eq_ofResult hs]
    constructor
    · rintro ⟨⟨number, c⟩, hp, ht, hr⟩
      obtain ⟨job, response, hj, hh, rfl⟩ := (h.delivered number c).mp hp
      exact ⟨number, job, response, hj, ht, hh, hr⟩
    · rintro ⟨number, job, response, hj, ht, hh, hr⟩
      exact ⟨(number, job.complete response),
        (h.delivered ..).mpr ⟨job, response, hj, hh, rfl⟩, ht, hr⟩
  refine ⟨?_, fun records => hof (.ok records), fun error => hof (.error error), ?_⟩
  · rw [hd, Traffic.standing_eq_loading hs]
    constructor
    · rintro ⟨hm, hn⟩
      obtain ⟨job, hj, ht⟩ := List.mem_map.mp hm
      obtain ⟨number, hg⟩ := List.mem_iff_getElem?.mp hj
      refine ⟨number, job, hg, ht, fun response hh => ?_⟩
      exact hn _ ((h.delivered ..).mpr ⟨job, response, hg, hh, rfl⟩) ht
    · rintro ⟨number, job, hj, ht, hn⟩
      refine ⟨ht ▸ List.mem_map_of_mem (List.mem_of_getElem? hj), ?_⟩
      rintro ⟨other, c⟩ hp hc
      obtain ⟨found, response, hg, hh, rfl⟩ := (h.delivered other c).mp hp
      -- one ticket is of one job, so the answer was to this one
      have hlt : other < (r₀.afterAll ops).stage.traffic.tickets.length := by
        simpa [Traffic.tickets] using (List.getElem?_eq_some_iff.mp hg).1
      have he : other = number := by
        refine (List.getElem?_inj hlt hs.unique).mp ?_
        simp only [Traffic.tickets, List.getElem?_map, hg, hj, Option.map_some]
        exact congrArg some (hc.trans ht.symm)
      exact hn response (he ▸ hh)
  · rw [hd, Traffic.standing_eq_idle hs, Traffic.tickets, List.mem_map]
    constructor
    · exact fun hn job hj ht => hn ⟨job, hj, ht⟩
    · rintro hn ⟨job, hj, ht⟩
      exact hn job hj ht

/-- After any run no ticket was given twice, and each source is in the state
that the job of its own ticket accounts for. One that has records in the layout
and follows nobody shows these, and never asked. -/
theorem traced_afterAll (library : Library W) (options : Options) (ops : List Operation) :
    ((new library options).afterAll ops).stage.traffic.tickets.Nodup ∧
      ∀ key src, KeyMap.get? ((new library options).afterAll ops).sources key = some src →
        src.ticket = ⟨key, src.generation⟩ ∧
        (src.ownRecords? = none → Traced (new library options) ops src) ∧
        ∀ records, src.ownRecords? = some records → src.state = .success records ∧
          ∀ job ∈ ((new library options).afterAll ops).stage.traffic.jobs,
            job.ticket.node ≠ key := by
  obtain ⟨-, hs⟩ := (sane_new library options).afterAll ops
  refine ⟨hs.sound.unique, fun key src hg => ?_⟩
  obtain ⟨rfl, ha⟩ := hs.agree key src hg
  refine ⟨rfl, fun ho => (ledger_afterAll library options ops).traced hs.sound (ha.due ho), ?_⟩
  intro records hr
  obtain ⟨hst, -, hn⟩ := ha.own records hr
  exact ⟨hst, hn⟩

end Renderer

end LiveLayout.Live
