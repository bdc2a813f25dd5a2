import LiveLayout.Proofs.Arguments

/-!
# What a request is made of

The check reads off a request which expressions are in it: those of the headers,
then those of the query, then those of the body, each as deep as they may be and
in the order in which they are written. When the request is composed just these
are evaluated, in this order. None is left out because another one failed, and
each finds the instances as the one before left them. What has no value is null
in a list and left out of a map, and all else of the body keeps its place.
-/

namespace LiveLayout.Live

open Layout (Remote)

/-- What of a result can be sent. -/
def Resolved.sent : Resolved → Option Json
  | .value v => some v
  | .undefined | .reference _ => none

/-- Said about a part of a request that has no value. -/
def Warning.isOmission : Warning → Bool
  | .cannotSend _ | .omitted .. | .emptyBody _ => true
  | _ => false

-- ---------------------------------------------------------------------------
-- Evaluating one after the other
-- ---------------------------------------------------------------------------

/-- Texts are evaluated one after the other, each on the stage as the one before
left it, with these results. All that is said in between is what is omitted. -/
inductive Queries {W : Type} [Widget W] (d : Directory) :
    Stage W → List String → List Resolved → Stage W → Prop
  | nil : Queries d s [] [] s
  | remark (hw : w.isOmission = true) (h : Queries d (Act.warn w s).2 sources results s') :
      Queries d s sources results s'
  | evaluate (h : Queries d (evaluate d source s).2 sources results s') :
      Queries d s (source :: sources) ((evaluate d source s).1 :: results) s'

section
variable {W : Type} [Widget W] {d : Directory} {s s' s'' : Stage W}

theorem Queries.append (h : Queries d s sources results s')
    (h' : Queries d s' more moreResults s'') :
    Queries d s (sources ++ more) (results ++ moreResults) s'' := by
  induction h with
  | nil => exact h'
  | remark hw _ ih => exact .remark hw (ih h')
  | evaluate _ ih => exact .evaluate (ih h')

theorem Queries.thenWarn (h : Queries d s sources results s') (hw : w.isOmission = true) :
    Queries d s sources results (Act.warn w s').2 := by
  simpa using h.append (.remark hw .nil)

/-- The journal tells what was evaluated, and in which order. -/
theorem Queries.journal (h : Queries d s sources results s') :
    ∃ said, s'.journal = s.journal ++ said ∧ evaluations said = sources ∧
      ∀ e ∈ said, Evaluates d (· ∈ sources) e := by
  induction h with
  | nil => exact ⟨[], by simp [evaluations]⟩
  | @remark w s _ _ _ hw _ ih =>
    obtain ⟨said, hj, ht, hp⟩ := ih
    refine ⟨.warned w :: said, by simp [hj, Act.warn, Act.record], ht, ?_⟩
    have ha : (Effect.warned w).isAside = true := by cases w <;> first | rfl | cases hw
    exact List.forall_mem_cons.mpr ⟨.aside ha, hp⟩
  | @evaluate source s sources _ _ _ ih =>
    obtain ⟨first, hf, ht, hp⟩ :=
      (evaluate_notes d source).said (evaluate_reports (T := (· ∈ source :: sources)) d (by simp)) s
    obtain ⟨said, hj, ht', hp'⟩ := ih
    refine ⟨first ++ said, by rw [hj, hf, List.append_assoc], ?_, fun e he => ?_⟩
    · rw [evaluations, List.filterMap_append]
      exact congrArg₂ (· ++ ·) ht ht'
    · rcases List.mem_append.mp he with he | he
      · exact hp e he
      · exact (hp' e he).mono fun _ => List.mem_cons_of_mem _

end

-- ---------------------------------------------------------------------------
-- Filling settings in
-- ---------------------------------------------------------------------------

mutual
/-- What is sent for a setting when the expressions in it, in the order in which
they are written, have these results. -/
inductive Fills : Setting → List Resolved → Option Json → Prop where
  | expression {source : String} {result : Resolved} :
      Fills (.expression source) [result] result.sent
  | list {items : List Setting} {results : List Resolved} {values : List Json}
      (h : FillsItems items results values) : Fills (.list items) results (some (.array values))
  | map {entries : List (String × Setting)} {results : List Resolved}
      {values : List (String × Json)} (h : FillsEntries entries results values) :
      Fills (.map entries) results (some (.object values))
  | null : Fills .null [] (some .null)
  | bool {b : Bool} : Fills (.bool b) [] (some (.bool b))
  | number {n : Number} : Fills (.number n) [] (some (.number n))
  | string {s : String} : Fills (.string s) [] (some (.string s))

/-- One value for each item, and null for those without. -/
inductive FillsItems : List Setting → List Resolved → List Json → Prop where
  | nil : FillsItems [] [] []
  | cons {item : Setting} {rest : List Setting} {first more : List Resolved} {v : Option Json}
      {values : List Json} (h : Fills item first v) (hr : FillsItems rest more values) :
      FillsItems (item :: rest) (first ++ more) (v.getD .null :: values)

/-- The entries that have a value, in their order. -/
inductive FillsEntries :
    List (String × Setting) → List Resolved → List (String × Json) → Prop where
  | nil : FillsEntries [] [] []
  | kept {name : String} {item : Setting} {rest : List (String × Setting)}
      {first more : List Resolved} {v : Json} {values : List (String × Json)}
      (h : Fills item first (some v)) (hr : FillsEntries rest more values) :
      FillsEntries ((name, item) :: rest) (first ++ more) ((name, v) :: values)
  | dropped {name : String} {item : Setting} {rest : List (String × Setting)}
      {first more : List Resolved} {values : List (String × Json)}
      (h : Fills item first none) (hr : FillsEntries rest more values) :
      FillsEntries ((name, item) :: rest) (first ++ more) values
end

/-- Only an expression can be without a value. -/
theorem Fills.eq_none_iff (h : Fills item results v) :
    v = none ↔ ∃ source result, item = .expression source ∧ results = [result] ∧
      result.sent = none := by
  cases h with
  | expression => simp
  | _ => simp

/-- What is sent for the body that is written, if there is one. -/
inductive FillsBody : Option Setting → List Resolved → Option Json → Prop
  | absent : FillsBody none [] none
  | filled (h : Fills body results v) : FillsBody (some body) results v

theorem FillsBody.eq_none_iff (h : FillsBody body results v) :
    v = none ↔ body = none ∨ ∃ source result, body = some (.expression source) ∧
      results = [result] ∧ result.sent = none := by
  cases h with
  | absent => simp
  | filled h => simp [h.eq_none_iff]

/-- What each of the named settings comes to. -/
inductive FillsPairs : Fields Setting → List Resolved → List (String × Option Json) → Prop
  | nil : FillsPairs [] [] []
  | cons (h : Fills item first v) (hr : FillsPairs rest more outcomes) :
      FillsPairs ((name, item) :: rest) (first ++ more) ((name, v) :: outcomes)

/-- A header or a parameter of the query, unless it has no value, or null. -/
def sentPair? : String × Option Json → Option (String × String)
  | (_, none) | (_, some .null) => none
  | (name, some v) => some (name, v.plainText)

-- ---------------------------------------------------------------------------
-- Composing
-- ---------------------------------------------------------------------------

variable {W : Type} [Widget W]

theorem evaluateToSend_fills (d : Directory) (source : String) (s : Stage W) :
    Queries d s [source] [(evaluate d source s).1] (evaluateToSend d source s).2 ∧
      (evaluateToSend d source s).1 = (evaluate d source s).1.sent := by
  have hq : Queries d s [source] [(evaluate d source s).1] (evaluate d source s).2 := .evaluate .nil
  simp only [evaluateToSend, run_bind]
  cases hr : (evaluate d source s).1 with
  | reference =>
    rw [hr] at hq
    exact ⟨hq.thenWarn rfl, rfl⟩
  | undefined | value =>
    rw [hr] at hq
    exact ⟨hq, rfl⟩

mutual
theorem resolveWithin_fills (d : Directory) (item : Setting) (s : Stage W) :
    ∃ results, Queries d s item.expressions results (resolveWithin d item s).2 ∧
      Fills item results (resolveWithin d item s).1 := by
  cases item with
  | expression source =>
    obtain ⟨hq, hv⟩ := evaluateToSend_fills d source s
    exact ⟨_, hq, hv ▸ .expression⟩
  | list items =>
    obtain ⟨results, hq, hf⟩ := resolveItems_fills d items s
    exact ⟨results, hq, .list hf⟩
  | map entries =>
    obtain ⟨results, hq, hf⟩ := resolveEntries_fills d entries s
    exact ⟨results, hq, .map hf⟩
  | null => exact ⟨[], .nil, .null⟩
  | bool => exact ⟨[], .nil, .bool⟩
  | number => exact ⟨[], .nil, .number⟩
  | string => exact ⟨[], .nil, .string⟩

theorem resolveItems_fills (d : Directory) (items : List Setting) (s : Stage W) :
    ∃ results, Queries d s (Setting.itemExpressions items) results (resolveItems d items s).2 ∧
      FillsItems items results (resolveItems d items s).1 := by
  cases items with
  | nil => exact ⟨[], .nil, .nil⟩
  | cons item rest =>
    obtain ⟨first, hq, hf⟩ := resolveWithin_fills d item s
    obtain ⟨more, hq', hf'⟩ := resolveItems_fills d rest (resolveWithin d item s).2
    exact ⟨first ++ more, hq.append hq', .cons hf hf'⟩

theorem resolveEntries_fills (d : Directory) (entries : List (String × Setting)) (s : Stage W) :
    ∃ results,
      Queries d s (Setting.entryExpressions entries) results (resolveEntries d entries s).2 ∧
      FillsEntries entries results (resolveEntries d entries s).1 := by
  cases entries with
  | nil => exact ⟨[], .nil, .nil⟩
  | cons p rest =>
    obtain ⟨first, hq, hf⟩ := resolveWithin_fills d p.2 s
    obtain ⟨more, hq', hf'⟩ := resolveEntries_fills d rest (resolveWithin d p.2 s).2
    refine ⟨first ++ more, hq.append hq', ?_⟩
    simp only [resolveEntries, run_bind, run_pure]
    cases hv : (resolveWithin d p.2 s).1 with
    | none => exact .dropped (hv ▸ hf) hf'
    | some v => exact .kept (hv ▸ hf) hf'
end

/-- Of the named settings those are sent that come to something. -/
theorem composePairs_fills (d : Directory) (part : RequestPart) (pairs : Fields Setting)
    (s : Stage W) : ∃ results outcomes,
      Queries d s (Setting.entryExpressions pairs) results (composePairs d part pairs s).2 ∧
      FillsPairs pairs results outcomes ∧
      (composePairs d part pairs s).1 = outcomes.filterMap sentPair? := by
  induction pairs generalizing s with
  | nil => exact ⟨[], [], .nil, .nil, rfl⟩
  | cons p rest ih =>
    obtain ⟨first, hq, hf⟩ := resolveWithin_fills d p.2 s
    obtain ⟨more, outcomes, hq', hf', hp⟩ := ih (resolveWithin d p.2 s).2
    obtain ⟨omitted, others, hqo, hfo, hpo⟩ :=
      ih (Act.warn (.omitted part p.1) (resolveWithin d p.2 s).2).2
    have hskip := (hq.thenWarn (w := .omitted part p.1) rfl).append hqo
    simp only [composePairs, run_bind]
    cases hv : (resolveWithin d p.2 s).1 with
    | none => exact ⟨_, (p.1, none) :: others, hskip, .cons (hv ▸ hf) hfo, hpo⟩
    | some v =>
      rw [hv] at hf
      cases v with
      | null => exact ⟨_, (p.1, some .null) :: others, hskip, .cons hf hfo, hpo⟩
      | _ => exact ⟨_, (p.1, some _) :: outcomes, hq.append hq', .cons hf hf', congrArg _ hp⟩

/-- Whether a header or a parameter of the query is left out or not, those
behind it are evaluated. -/
theorem composePairs_queries (d : Directory) (part : RequestPart) (pairs : Fields Setting)
    (s : Stage W) : ∃ results,
      Queries d s (Setting.entryExpressions pairs) results (composePairs d part pairs s).2 := by
  obtain ⟨results, _, hq, -, -⟩ := composePairs_fills d part pairs s
  exact ⟨results, hq⟩

theorem composeBody_fills (d : Directory) (endpoint : String) (body : Option Setting)
    (s : Stage W) : ∃ results,
      Queries d s ((body.map Setting.expressions).getD []) results
        (composeBody d endpoint body s).2 ∧
      FillsBody body results (composeBody d endpoint body s).1 := by
  cases body with
  | none => exact ⟨[], .nil, .absent⟩
  | some body =>
    obtain ⟨results, hq, hf⟩ := resolveWithin_fills d body s
    refine ⟨results, ?_, ?_⟩
    · simp only [composeBody, run_bind]
      split
      · exact hq.thenWarn rfl
      · exact hq
    · have hv : (composeBody d endpoint (some body) s).1 = (resolveWithin d body s).1 := by
        simp only [composeBody, run_bind]
        split <;> rfl
      exact hv ▸ .filled hf

/-- A request is composed by evaluating the expressions that are in it, each
once, in the order of headers, query and body. The body is filled with the
results, and there is none just if none is written or all of it is one
expression without a value. -/
theorem compose_queries (ctx : Context) (r : Remote) (endpoint : String) (s : Stage W) :
    ∃ others results,
      Queries ctx.directory s r.expressions (others ++ results) (compose ctx r endpoint s).2 ∧
      (∃ said, (compose ctx r endpoint s).2.journal = s.journal ++ said ∧
        evaluations said = r.expressions ∧
        ∀ e ∈ said, Evaluates ctx.directory (· ∈ r.expressions) e) ∧
      FillsBody r.body results (compose ctx r endpoint s).1.body ∧
      ((compose ctx r endpoint s).1.body = none ↔ r.body = none ∨
        ∃ source result, r.body = some (.expression source) ∧ results = [result] ∧
          ∀ v, result ≠ .value v) := by
  obtain ⟨headers, hh⟩ := composePairs_queries ctx.directory .header r.headers s
  obtain ⟨query, hq⟩ := composePairs_queries ctx.directory .query r.query
    (composePairs ctx.directory .header r.headers s).2
  obtain ⟨body, hb, hf⟩ := composeBody_fills ctx.directory endpoint r.body
    (composePairs ctx.directory .query r.query
      (composePairs ctx.directory .header r.headers s).2).2
  have hall : Queries ctx.directory s r.expressions (headers ++ query ++ body)
      (compose ctx r endpoint s).2 := (hh.append hq).append hb
  have hsent : ∀ result : Resolved, result.sent = none ↔ ∀ v, result ≠ .value v := fun result => by
    cases result <;> simp [Resolved.sent]
  have hnone := hf.eq_none_iff
  simp only [hsent] at hnone
  exact ⟨headers ++ query, body, hall, hall.journal, hf, hnone⟩

end LiveLayout.Live
