import Mathlib
import LiveLayout.Proofs.Parsing

/-!
# Where reading stops

A text that is no expression is reported with a place in it. What stands before
that place is the beginning of an expression: with some other text after it, it
is one. Each reader here stops with such a place, seen from what it reads. The
readers around it put what they have read already in front, and what closes
their brackets behind.
-/

namespace LiveLayout.Expression

open Text (isBlank dropBlanks isAlphabetic)

-- ---------------------------------------------------------------------------
-- Beginnings
-- ---------------------------------------------------------------------------

/-- Goes on to a text of the grammar. -/
def Starts (P : List Char → α → Prop) (cs : List Char) : Prop := ∃ more a, P (cs ++ more) a

/-- What a reader reported about the characters it was given. -/
inductive Stopped (P : List Char → α → Prop) (cs : List Char) : Stop → Prop where
  | missingPrefix : Stopped P cs .missingPrefix
  | missingId (front : List Char) {left : List Char} :
      cs = front ++ left → Starts P front → Stopped P cs (.missingId left)
  | missingMethod (front : List Char) {left : List Char} :
      cs = front ++ left → Starts P front → Stopped P cs (.missingMethod left)
  | unexpected (front : List Char) {found : Char} {after : List Char} :
      cs = front ++ found :: after → Starts P front → Stopped P cs (.unexpected found after)
  | unterminated {what : Construct} : Starts P cs → Stopped P cs (.unterminated what)
  | chainedCall : Stopped P cs .chainedCall
  | nestedExpression : Stopped P cs .nestedExpression

section
variable {P : List Char → α → Prop} {Q : List Char → β → Prop} {cs ws : List Char}

theorem starts_of (h : P cs a) : Starts P cs := ⟨[], a, by simpa using h⟩

theorem Starts.within (h : Starts P cs) (lead tail : List Char)
    (hq : ∀ text a, P text a → ∃ b, Q (lead ++ (text ++ tail)) b) : Starts Q (lead ++ cs) := by
  obtain ⟨more, a, ha⟩ := h
  obtain ⟨b, hb⟩ := hq _ a ha
  exact ⟨more ++ tail, b, by simpa using hb⟩

/-- A construct that stops in its part stops at the same place. -/
theorem Stopped.within (h : Stopped P cs stop) (lead tail : List Char)
    (hq : ∀ text a, P text a → ∃ b, Q (lead ++ (text ++ tail)) b) : Stopped Q (lead ++ cs) stop := by
  cases h with
  | missingPrefix => exact .missingPrefix
  | missingId front hcs hs => exact .missingId (lead ++ front) (by simp [hcs]) (hs.within lead tail hq)
  | missingMethod front hcs hs =>
    exact .missingMethod (lead ++ front) (by simp [hcs]) (hs.within lead tail hq)
  | unexpected front hcs hs =>
    exact .unexpected (lead ++ front) (by simp [hcs]) (hs.within lead tail hq)
  | unterminated hs => exact .unterminated (hs.within lead tail hq)
  | chainedCall => exact .chainedCall
  | nestedExpression => exact .nestedExpression

end

-- ---------------------------------------------------------------------------
-- What stands between blanks
-- ---------------------------------------------------------------------------

/-- With blanks in front. -/
def Led (P : List Char → α → Prop) (cs : List Char) (a : α) : Prop :=
  ∃ ws text, Blanks ws ∧ P text a ∧ cs = ws ++ text

/-- A list of something, with blanks around. -/
def Filled (P : List Char → α → Prop) (cs : List Char) (as : List α) : Prop :=
  ∃ ws text ws', Blanks ws ∧ Series P text as ∧ Blanks ws' ∧ cs = ws ++ (text ++ ws')

section
variable {P : List Char → α → Prop} {cs ws rest : List Char} {a : α} {as : List α}

theorem Blanks.led (hw : Blanks ws) (h : P cs a) : Led P (ws ++ cs) a := ⟨ws, cs, hw, h, rfl⟩

theorem Led.filled (h : Led P cs a) (hw : Blanks ws) : Filled P (cs ++ ws) [a] := by
  obtain ⟨us, text, hu, ht, rfl⟩ := h
  exact ⟨us, text, ws, hu, .last ht, hw, by simp⟩

theorem Led.more (h : Led P cs a) (hw : Blanks ws) (hr : Filled P rest as) :
    Filled P (cs ++ (ws ++ ',' :: rest)) (a :: as) := by
  obtain ⟨us, text, hu, ht, rfl⟩ := h
  obtain ⟨vs, tail, ws', hv, hs, hw', rfl⟩ := hr
  exact ⟨us, _, ws', hu, .more ht hw hv hs, hw', by simp⟩

theorem Filled.listed (h : Filled P cs as) : Listed P cs as := by
  obtain ⟨ws, text, ws', hw, hs, hw', rfl⟩ := h
  exact .some hw hs hw'

theorem Stopped.filled (h : Stopped (Led P) cs stop) : Stopped (Filled P) cs stop := by
  simpa using h.within [] [] fun text a ht => ⟨[a], by simpa using ht.filled blanks_nil⟩

theorem Stopped.listed (h : Stopped (Filled P) cs stop) : Stopped (Listed P) cs stop := by
  simpa using h.within [] [] fun text as ht => ⟨as, by simpa using ht.listed⟩

end

-- ---------------------------------------------------------------------------
-- Running into an error
-- ---------------------------------------------------------------------------

theorem map_eq_error {x : Except Stop α} {f : α → β} (h : x.map f = .error stop) :
    x = .error stop := by
  cases x with
  | error => cases h; rfl
  | ok => cases h

theorem bind_eq_error {x : Except Stop α} {f : α → Except Stop β} (h : (x >>= f) = .error stop) :
    x = .error stop ∨ ∃ a, x = .ok a ∧ f a = .error stop := by
  cases x with
  | error => cases h; exact .inl rfl
  | ok a => exact .inr ⟨a, rfl, h⟩

/-- After a member, a list stops at what is neither a comma nor the end, or in
what comes after the comma. -/
theorem next_stops {P : List Char → α → Prop} {text left : List Char} {a : α} {what : Construct}
    {close : Char} {one : β} {more : List Char → Except Stop (β × List Char)}
    (h : (match dropBlanks left with
      | [] => Except.error (Stop.unterminated what)
      | c :: rest =>
        if c = ',' then more rest
        else if c = close then pure (one, rest)
        else Except.error (Stop.unexpected c rest)) = .error stop)
    (ht : Led P text a)
    (hmore : ∀ ws rest, left = ws ++ ',' :: rest → more rest = .error stop →
      Stopped (Filled P) rest stop) : Stopped (Filled P) (text ++ left) stop := by
  obtain ⟨ws, hw, hleft⟩ := exists_blanks left
  have hhere : Starts (Filled P) (text ++ ws) := starts_of (ht.filled hw)
  cases hd : dropBlanks left with
  | nil =>
    simp only [hd] at h hleft
    cases h
    rw [hleft, List.append_nil]
    exact .unterminated hhere
  | cons c rest =>
    rw [hd] at h hleft
    dsimp only at h
    split at h
    next hc =>
      subst hc
      have hrest := (hmore ws rest hleft h).within (text ++ (ws ++ [','])) [] fun rest as hr =>
        ⟨a :: as, by simpa using ht.more hw hr⟩
      simpa [hleft] using hrest
    next =>
      split at h
      next => cases h
      next =>
        cases h
        exact .unexpected _ (by simp [hleft]) hhere

-- ---------------------------------------------------------------------------
-- Strings and keys
-- ---------------------------------------------------------------------------

/-- Only a string that is not closed stops its reader, and every such string
can be closed. -/
theorem readQuoted_stops {quote : Char} {cs : List Char}
    (h : readQuoted quote cs = .error stop) :
    stop = .unterminated .string ∧ ∃ more text, Quoted quote (cs ++ more) text := by
  fun_induction readQuoted quote cs with
  | case1 => cases h; exact ⟨rfl, [], [], .done⟩
  | case2 => cases h; exact ⟨rfl, ['\\'], ['\\'], .escaped (by decide) (by decide) .done⟩
  | case3 c cs _ ih =>
    obtain ⟨rfl, more, text, hm⟩ := ih (map_eq_error h)
    refine ⟨rfl, more, ?_⟩
    by_cases hn : c = 'n'
    · subst hn; exact ⟨_, .newline hm⟩
    · by_cases ht : c = 't'
      · subst ht; exact ⟨_, .tab hm⟩
      · exact ⟨_, .escaped hn ht hm⟩
  | case4 => cases h
  | case5 c cs hlast hmore hq ih =>
    obtain ⟨rfl, more, text, hm⟩ := ih (map_eq_error h)
    refine ⟨rfl, more, c :: text, .plain hq (fun hc => ?_) hm⟩
    cases cs with
    | nil => exact hlast hc rfl
    | cons d ds => exact hmore d ds hc rfl

theorem readString_stops {quote : Char} (hq : quote = '"' ∨ quote = '\'') {cs : List Char}
    (h : readString quote cs = .error stop) :
    stop = .unterminated .string ∧ ∃ more s, Str (quote :: (cs ++ more)) s := by
  obtain ⟨hstop, more, text, hm⟩ := readQuoted_stops (map_eq_error h)
  exact ⟨hstop, more ++ [quote], _, by simpa using Str.mk hq hm⟩

theorem key_a : Key ['a'] "a" := .bare (by decide) ⟨by simp, by simp; decide⟩

theorem readKey_stops {cs : List Char} (h : readKey cs = .error stop) : Stopped Key cs stop := by
  have hhere : Starts Key [] := ⟨['a'], "a", key_a⟩
  cases cs with
  | nil => cases h; exact .unterminated hhere
  | cons c cs =>
    simp only [readKey] at h
    split at h
    next hq =>
      obtain ⟨rfl, more, s, hs⟩ := readString_stops hq h
      exact .unterminated ⟨more, s, .quoted hs⟩
    next =>
      split at h
      next => cases h
      next => cases h; exact .unexpected [] rfl hhere

-- ---------------------------------------------------------------------------
-- Literals
-- ---------------------------------------------------------------------------

theorem readNumber_stops {c : Char} {cs : List Char} (h : readNumber c cs = .error stop) :
    stop = .unexpected c cs := by
  simp only [readNumber] at h
  split at h
  next => cases h
  next => exact (Except.error.inj h).symm

theorem readWord_stops {c : Char} {cs : List Char} (h : readWord c cs = .error stop) :
    stop = .unexpected c cs := by
  simp only [readWord] at h
  split at h
  next => cases h
  next => exact (Except.error.inj h).symm

/-- Any literal does for what is still to come. -/
theorem literal_null : Literal ['n', 'u', 'l', 'l'] .null := .word .null

/-- A key makes an entry with any literal. -/
theorem entry_of_key {ws name us : List Char} {key : String} (hw : Blanks ws) (hk : Key name key)
    (hu : Blanks us) : Led Entry (ws ++ (name ++ (us ++ [':', 'n', 'u', 'l', 'l']))) (key, .null) :=
  hw.led (.mk hk hu blanks_nil literal_null)

-- The bounds on the fuel are those under which the readers get to the end of a
-- text of the grammar. Without them a reader could stop for lack of fuel.
mutual
theorem readLiteral_stops : ∀ {fuel : Nat} {cs : List Char} {stop : Stop},
    readLiteral fuel cs = .error stop → 3 * cs.length < fuel → Stopped (Led Literal) cs stop
  | 0, _, _, _, hf => absurd hf (Nat.not_lt_zero _)
  | fuel + 1, cs, stop, h, hf => by
    obtain ⟨ws, hw, hcs⟩ := exists_blanks cs
    have hhere : Starts (Led Literal) ws := ⟨_, _, hw.led literal_null⟩
    simp only [readLiteral] at h
    cases hd : dropBlanks cs with
    | nil =>
      simp only [hd] at h hcs
      cases h
      rw [hcs, List.append_nil]
      exact .unterminated hhere
    | cons c rest =>
      rw [hd] at h hcs
      have hlen : rest.length < cs.length := by
        rw [hcs, List.length_append, List.length_cons]
        omega
      dsimp only at h
      split at h
      next hq =>
        obtain ⟨rfl, more, s, hs⟩ := readString_stops hq (map_eq_error h)
        rw [hcs]
        exact .unterminated ⟨more, .string s, by simpa using hw.led (Literal.string hs)⟩
      next =>
      split at h
      next hc =>
        subst hc
        have hi := (readItems_stops (map_eq_error h) (by omega)).within (Q := Led Literal)
          (ws ++ ['[']) [']'] fun text items hl =>
            ⟨.array items, by simpa using hw.led (Literal.array hl)⟩
        rw [hcs]
        simpa using hi
      next =>
      split at h
      next hc =>
        subst hc
        have he := (readEntries_stops (map_eq_error h) (by omega)).within (Q := Led Literal)
          (ws ++ ['{']) ['}'] fun text entries hl => ⟨.object (Fields.ofPairs entries), by
            simpa using hw.led (Literal.object hl (gathers_ofPairs entries))⟩
        rw [hcs]
        simpa using he
      next =>
      split at h
      next => cases h; exact .nestedExpression
      next =>
      split at h
      next => obtain rfl := readNumber_stops h; exact .unexpected ws hcs hhere
      next =>
      split at h
      next => obtain rfl := readWord_stops h; exact .unexpected ws hcs hhere
      next => cases h; exact .unexpected ws hcs hhere

theorem readItems_stops : ∀ {fuel : Nat} {what : Construct} {close : Char} {cs : List Char}
    {stop : Stop}, readItems fuel what close cs = .error stop → 3 * cs.length + 2 < fuel →
      Stopped (Listed Literal) cs stop
  | 0, _, _, _, _, _, hf => absurd hf (Nat.not_lt_zero _)
  | fuel + 1, what, close, cs, stop, h, hf => by
    simp only [readItems] at h
    split at h
    next => cases h
    next => exact (readItemsFrom_stops h (by omega)).listed

theorem readItemsFrom_stops : ∀ {fuel : Nat} {what : Construct} {close : Char} {cs : List Char}
    {stop : Stop}, readItemsFrom fuel what close cs = .error stop → 3 * cs.length + 1 < fuel →
      Stopped (Filled Literal) cs stop
  | 0, _, _, _, _, _, hf => absurd hf (Nat.not_lt_zero _)
  | fuel + 1, what, close, cs, stop, h, hf => by
    simp only [readItemsFrom] at h
    rcases bind_eq_error h with hi | ⟨⟨item, left⟩, hi, hnext⟩
    · exact (readLiteral_stops hi (by omega)).filled
    · obtain ⟨ws, text, hw, ht, rfl⟩ := readLiteral_sound hi
      dsimp only at hnext
      have hstop := next_stops hnext (hw.led ht) fun us rest hleft hmore => by
        rcases bind_eq_error hmore with hr | ⟨_, _, hpure⟩
        · refine readItemsFrom_stops hr ?_
          simp [hleft] at hf
          omega
        · cases hpure
      simpa using hstop

theorem readEntries_stops : ∀ {fuel : Nat} {cs : List Char} {stop : Stop},
    readEntries fuel cs = .error stop → 3 * cs.length + 2 < fuel → Stopped (Listed Entry) cs stop
  | 0, _, _, _, hf => absurd hf (Nat.not_lt_zero _)
  | fuel + 1, cs, stop, h, hf => by
    simp only [readEntries] at h
    split at h
    next => cases h
    next => exact (readEntriesFrom_stops h (by omega)).listed

theorem readEntriesFrom_stops : ∀ {fuel : Nat} {cs : List Char} {stop : Stop},
    readEntriesFrom fuel cs = .error stop → 3 * cs.length + 1 < fuel →
      Stopped (Filled Entry) cs stop
  | 0, _, _, _, hf => absurd hf (Nat.not_lt_zero _)
  | fuel + 1, cs, stop, h, hf => by
    simp only [readEntriesFrom] at h
    obtain ⟨ws, hw, hcs⟩ := exists_blanks cs
    rcases bind_eq_error h with hk | ⟨⟨key, left⟩, hk, hcolon⟩
    · rw [hcs]
      exact ((readKey_stops hk).within ws [':', 'n', 'u', 'l', 'l'] fun name key hn =>
        ⟨_, entry_of_key hw hn blanks_nil⟩).filled
    obtain ⟨name, hkey, hname⟩ := readKey_sound hk
    obtain ⟨us, hu, hleft⟩ := exists_blanks left
    rw [hname] at hcs
    dsimp only at hcolon
    have hhere : Starts (Led Entry) (ws ++ (name ++ us)) :=
      ⟨[':', 'n', 'u', 'l', 'l'], _, by simpa using entry_of_key hw hkey hu⟩
    cases hd : dropBlanks left with
    | nil =>
      simp only [hd] at hcolon hleft
      cases hcolon
      rw [hcs, hleft, List.append_nil]
      exact (Stopped.unterminated hhere).filled
    | cons c rest =>
      rw [hd] at hcolon hleft
      dsimp only at hcolon
      split at hcolon
      next =>
        cases hcolon
        exact (Stopped.unexpected _ (by simp [hcs, hleft]) hhere).filled
      next hc =>
        obtain rfl : c = ':' := by simpa using hc
        have hlen : rest.length < cs.length := by simp [hcs, hleft]; omega
        rcases bind_eq_error hcolon with hl | ⟨⟨value, left⟩, hl, hnext⟩
        · have hv := (readLiteral_stops hl (by omega)).within (Q := Led Entry)
            (ws ++ (name ++ (us ++ [':']))) [] fun text v hv => ⟨(key, v), by
              obtain ⟨vs, text, hv, ht, rfl⟩ := hv
              simpa using hw.led (Entry.mk hkey hu hv ht)⟩
          have hstop := hv.filled
          simpa [hcs, hleft] using hstop
        · obtain ⟨vs, text, hv, ht, hrest⟩ := readLiteral_sound hl
          have hentry := hw.led (Entry.mk hkey hu hv ht)
          dsimp only at hnext
          have hstop := next_stops hnext hentry fun xs tail hafter hmore => by
            rcases bind_eq_error hmore with hr | ⟨_, _, hpure⟩
            · refine readEntriesFrom_stops hr ?_
              simp [hrest, hafter] at hlen
              omega
            · cases hpure
          simpa [hcs, hleft, hrest] using hstop
end

-- ---------------------------------------------------------------------------
-- Expressions
-- ---------------------------------------------------------------------------

theorem call_of_method {method ws : List Char} (hm : Run isNameChar method) (hw : Blanks ws) :
    Call (method ++ (ws ++ ['(', ')'])) ⟨String.ofList method, []⟩ :=
  .mk hm hw (.none blanks_nil) blanks_nil

theorem readCall_stops {cs : List Char} (h : readCall cs = .error stop) : Stopped Call cs stop := by
  obtain ⟨method, left, hs, rfl, hm⟩ := exists_run isNameChar cs
  obtain ⟨ws, hw, hleft⟩ := exists_blanks left
  simp only [readCall, hs, List.isEmpty_iff] at h
  split at h
  next hempty =>
    subst hempty
    cases h
    have hrun : Run isNameChar ['m'] := ⟨by simp, by simp; decide⟩
    exact .missingMethod [] rfl ⟨['m', '(', ')'], _, call_of_method hrun blanks_nil⟩
  next hne =>
    have hhere : Starts Call (method ++ ws) :=
      ⟨['(', ')'], _, by simpa using call_of_method ⟨hne, hm⟩ hw⟩
    cases hd : dropBlanks left with
    | nil =>
      simp only [hd] at h hleft
      cases h
      rw [hleft, List.append_nil]
      exact .unterminated hhere
    | cons c rest =>
      rw [hd] at h hleft
      dsimp only at h
      split at h
      next => cases h; exact .unexpected _ (by simp [hleft]) hhere
      next hc =>
        obtain rfl : c = '(' := by simpa using hc
        rcases bind_eq_error h with ha | ⟨⟨args, after⟩, ha, hend⟩
        · have hargs := (readItems_stops ha (by omega)).within (Q := Call)
            (method ++ (ws ++ ['('])) [')'] fun text args hl => ⟨⟨String.ofList method, args⟩, by
              simpa using Call.mk ⟨hne, hm⟩ hw hl blanks_nil⟩
          simpa [hleft] using hargs
        · obtain ⟨text, ht, rfl⟩ := readArguments_eq_ok.mp ha
          obtain ⟨ws', hw', hafter⟩ := exists_blanks after
          cases hd' : dropBlanks after with
          | nil => simp [hd', pure, Except.pure] at hend
          | cons d rest =>
            rw [hd'] at hend hafter
            dsimp only at hend
            split at hend
            next => cases hend; exact .chainedCall
            next =>
              cases hend
              exact .unexpected _ (by simp [hleft, hafter]) (starts_of (.mk ⟨hne, hm⟩ hw ht hw'))

theorem readExpression_stops {cs : List Char} (h : readExpression cs = .error stop) :
    Stopped Derives cs stop := by
  unfold readExpression at h
  split at h
  next rest =>
    obtain ⟨name, left, hs, rfl, hn⟩ := exists_run isIdChar rest
    simp only [hs, List.isEmpty_iff] at h
    split at h
    next hempty =>
      subst hempty
      cases h
      have hrun : Run isIdChar ['a'] := ⟨by simp, by simp; decide⟩
      exact .missingId ['$'] rfl ⟨['a'], _, .reference hrun⟩
    next hne =>
      split at h
      next => cases h
      next c after =>
        split at h
        next hc =>
          subst hc
          have hcall := (readCall_stops (map_eq_error h)).within (Q := Derives)
            ('$' :: (name ++ ['.'])) [] fun text call hc => ⟨⟨String.ofList name, some call⟩, by
              simpa using Derives.call ⟨hne, hn⟩ hc⟩
          simpa using hcall
        next =>
          cases h
          exact .unexpected ('$' :: name) rfl (starts_of (.reference ⟨hne, hn⟩))
  next => cases h; exact .missingPrefix

-- ---------------------------------------------------------------------------
-- Problems
-- ---------------------------------------------------------------------------

def Problem.input : Problem → String
  | .missingPrefix input | .missingId input _ | .missingMethod input _ | .unexpected input _ _
  | .unterminated input _ | .chainedCall input | .nestedExpression input => input

/-- With some text after it, it is an expression. -/
def Viable (cs : List Char) : Prop := ∃ more e, parse (String.ofList (cs ++ more)) = .ok e

/-- The place that a problem names is in the text, with the character it names,
and up to there nothing was wrong. -/
def Problem.Located (cs : List Char) : Problem → Prop
  | .unexpected _ found pos => cs[pos]? = some found ∧ Viable (cs.take pos)
  | .missingId _ pos | .missingMethod _ pos => pos ≤ cs.length ∧ Viable (cs.take pos)
  | .unterminated _ _ => Viable cs
  | .missingPrefix _ | .chainedCall _ | .nestedExpression _ => True

theorem Starts.viable {cs : List Char} (h : Starts Derives cs) : Viable cs := by
  obtain ⟨more, e, he⟩ := h
  exact ⟨more, e, parse_ofList he⟩

theorem Stopped.located {cs : List Char} (h : Stopped Derives cs stop) :
    (stop.problem cs).Located cs := by
  cases h with
  | missingPrefix | chainedCall | nestedExpression => trivial
  | unterminated hs => exact hs.viable
  | @missingId front left hcs hs | @missingMethod front left hcs hs =>
    have hpos : cs.length - left.length = front.length := by simp [hcs]
    refine ⟨Nat.sub_le .., ?_⟩
    rw [hpos, hcs, List.take_left]
    exact hs.viable
  | @unexpected front found after hcs hs =>
    have hpos : cs.length - (after.length + 1) = front.length := by simp [hcs]
    simp only [Stop.problem, Problem.Located, hpos]
    subst hcs
    simpa using hs.viable

/-- What is wrong with a text is reported where it is. -/
theorem parse_located {source : String} {problem : Problem} (h : parse source = .error problem) :
    problem.input = String.ofList (Text.trim source.toList) ∧
      problem.Located (Text.trim source.toList) := by
  rw [parse] at h
  cases hr : readExpression (Text.trim source.toList) with
  | ok => simp [hr, Except.mapError] at h
  | error stop =>
    obtain rfl : stop.problem (Text.trim source.toList) = problem := by
      simpa [hr, Except.mapError] using h
    exact ⟨by cases stop <;> rfl, (readExpression_stops hr).located⟩

theorem parse_located_unknownWord :
    parse " $grid.select([\"a\", tru])" =
        .error (.unexpected "$grid.select([\"a\", tru])" 't' 19) ∧
      "$grid.select([\"a\", tru])".toList[19]? = some 't' ∧
      Viable "$grid.select([\"a\", ".toList := by
  have herror : parse " $grid.select([\"a\", tru])" =
      .error (.unexpected "$grid.select([\"a\", tru])" 't' 19) := by cbv
  have htrim : Text.trim " $grid.select([\"a\", tru])".toList =
      "$grid.select([\"a\", tru])".toList := by cbv
  have hfront : "$grid.select([\"a\", tru])".toList.take 19 = "$grid.select([\"a\", ".toList := by cbv
  have hlocated := (parse_located herror).2
  rw [htrim] at hlocated
  obtain ⟨hfound, hviable⟩ := hlocated
  exact ⟨herror, hfound, hfront ▸ hviable⟩

end LiveLayout.Expression
