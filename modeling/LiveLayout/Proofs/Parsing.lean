import Mathlib.Data.List.Basic
import Mathlib.Data.List.Induction
import Mathlib.Data.List.TakeDrop
import Mathlib.Data.List.TakeWhile
import LiveLayout.Proofs.Grammar

/-!
# Reading expressions, both ways

The readers accept the texts of the grammar, with what these mean, and no other
text. One way, what a reader took off the front of a text is such a text. The
other way, a reader that is given such a text, and after it something that
could not belong to it, takes exactly that text.
-/

namespace LiveLayout

-- ---------------------------------------------------------------------------
-- Gathering entries
-- ---------------------------------------------------------------------------

namespace Fields

theorem ofPairs_append_singleton (pairs : List (String × α)) (p : String × α) :
    ofPairs (pairs ++ [p]) = put (ofPairs pairs) p.1 p.2 := by
  simp [ofPairs, putAll]

theorem nodup_put {fields : Fields α} (h : (names fields).Nodup) (name : String) (v : α) :
    (names (put fields name v)).Nodup := by
  rw [names_put]
  by_cases hn : name ∈ names fields
  · simpa [hn] using h
  · have ha : ∀ a ∈ names fields, a ≠ name := fun a ha he => hn (he ▸ ha)
    simpa [hn, List.nodup_append, h] using ha

theorem nodup_ofPairs (pairs : List (String × α)) : (names (ofPairs pairs)).Nodup := by
  induction pairs using List.reverseRecOn with
  | nil => exact List.nodup_nil
  | append_singleton pairs p ih =>
    rw [ofPairs_append_singleton]
    exact nodup_put ih p.1 p.2

theorem mem_ofPairs {pairs : List (String × α)} {p : String × α}
    (h : p ∈ ofPairs pairs) : p ∈ pairs := by
  induction pairs using List.reverseRecOn with
  | nil => cases h
  | append_singleton pairs q ih =>
    rw [ofPairs_append_singleton] at h
    rcases mem_put h with h | rfl
    · exact List.mem_append_left _ (ih h)
    · simp

/-- Fields are told by their names and what is found under them. -/
theorem eq_of_get? {fields others : Fields α} (hn : names fields = names others)
    (hd : (names fields).Nodup) (hg : ∀ key, get? fields key = get? others key) :
    fields = others := by
  induction fields generalizing others with
  | nil => cases others with
    | nil => rfl
    | cons => simp [names] at hn
  | cons p rest ih =>
    cases others with
    | nil => simp [names] at hn
    | cons q others =>
      obtain ⟨k, v⟩ := p
      obtain ⟨k', w⟩ := q
      obtain ⟨rfl, hr⟩ : k = k' ∧ names rest = names others := by simpa [names] using hn
      obtain ⟨hk, hd⟩ := List.nodup_cons.mp hd
      have hv : v = w := by simpa [get?] using hg k
      have hrest : rest = others := by
        refine ih hr hd fun key => ?_
        by_cases hkey : k = key
        · subst hkey
          rw [get?_eq_none.mpr hk, get?_eq_none.mpr (hr ▸ hk)]
        · simpa [get?, hkey] using hg key
      rw [hv, hrest]

end Fields

namespace Expression

open Text (isBlank dropBlanks isAlphabetic isAlphanumeric)

-- powers are those of the core library, whatever else is in scope
attribute [local instance (high)] instPowNat

theorem gathers_ofPairs (entries : List (String × α)) : Gathers entries (Fields.ofPairs entries) := by
  induction entries using List.reverseRecOn with
  | nil => exact ⟨rfl, fun _ => rfl⟩
  | append_singleton entries p ih =>
    refine ⟨?_, fun key => ?_⟩
    · rw [Fields.ofPairs_append_singleton, Fields.names_put, ih.names]
      simp only [List.mem_eraseDups, List.map_append, List.eraseDups_append]
      by_cases h : p.1 ∈ entries.map (·.1) <;> simp [List.removeAll, List.eraseDups_cons, h]
    · rw [Fields.ofPairs_append_singleton, Fields.get?_put, ih.values]
      simp [Fields.get?]

theorem gathers_iff {entries : List (String × α)} {fields : Fields α} :
    Gathers entries fields ↔ fields = Fields.ofPairs entries := by
  refine ⟨fun h => ?_, fun h => h ▸ gathers_ofPairs entries⟩
  have hp := gathers_ofPairs entries
  have hn : fields.names = (Fields.ofPairs entries).names := h.names.trans hp.names.symm
  refine Fields.eq_of_get? hn (hn ▸ Fields.nodup_ofPairs entries) fun key => ?_
  rw [h.values, hp.values]

-- ---------------------------------------------------------------------------
-- Which characters can meet
-- ---------------------------------------------------------------------------

/-- Can be part of a word, a bare key or a number. -/
def inRun (c : Char) : Bool := isNameChar c || isNumberChar c

/-- Separates or closes. -/
def isMark (c : Char) : Bool := c ∈ [',', ':', '(', ')', ']', '}']

/-- The code points of the blanks. -/
def blankCodes : List Nat :=
  [9, 10, 11, 12, 13, 0x20, 0x85, 0xA0, 0x1680, 0x2000, 0x2001, 0x2002, 0x2003, 0x2004, 0x2005,
    0x2006, 0x2007, 0x2008, 0x2009, 0x200A, 0x2028, 0x2029, 0x202F, 0x205F, 0x3000]

theorem mem_blankCodes {c : Char} (h : isBlank c = true) : c.toNat ∈ blankCodes := by
  simp only [isBlank, Bool.or_eq_true, Bool.and_eq_true, decide_eq_true_eq, beq_iff_eq] at h
  simp only [blankCodes, List.mem_cons, List.not_mem_nil, or_false]
  omega

theorem inRun_blankCodes : ∀ n ∈ blankCodes, inRun (Char.ofNat n) = false := by decide +kernel

theorem inRun_of_isBlank {c : Char} (h : isBlank c = true) : inRun c = false := by
  have hn := inRun_blankCodes c.toNat (mem_blankCodes h)
  rwa [Char.ofNat_toNat] at hn

theorem isBlank_of_inRun {c : Char} (h : inRun c = true) : isBlank c = false :=
  Bool.eq_false_iff.mpr fun hb => by simp [inRun_of_isBlank hb] at h

theorem isMark_cases {c : Char} (h : isMark c = true) :
    c = ',' ∨ c = ':' ∨ c = '(' ∨ c = ')' ∨ c = ']' ∨ c = '}' := by
  simpa [isMark] using h

theorem inRun_of_isMark {c : Char} (h : isMark c = true) : inRun c = false := by
  rcases isMark_cases h with rfl | rfl | rfl | rfl | rfl | rfl <;> decide

theorem isBlank_of_isMark {c : Char} (h : isMark c = true) : isBlank c = false := by
  rcases isMark_cases h with rfl | rfl | rfl | rfl | rfl | rfl <;> decide

theorem isNameChar_of_startsKey {c : Char} (h : startsKey c = true) : isNameChar c = true := by
  simp only [startsKey, Bool.or_eq_true] at h
  rcases h with h | h <;> simp [isNameChar, isAlphanumeric, h]

theorem isNumberChar_of_startsNumber {c : Char} (h : startsNumber c = true) :
    isNumberChar c = true := by
  simp only [startsNumber, Bool.or_eq_true] at h
  rcases h with (h | h) | h <;> simp [isNumberChar, h]

/-- Nothing of a run is next. -/
def Ended (cs : List Char) : Prop := ∀ c, cs.head? = some c → inRun c = false

/-- Something is next that is no blank, separates nothing and closes nothing. -/
def Opens (cs : List Char) : Prop := ∃ c rest, cs = c :: rest ∧ isBlank c = false ∧ isMark c = false

theorem ended_mark {c : Char} (hc : isMark c = true) (rest : List Char) : Ended (c :: rest) := by
  intro d hd
  obtain rfl : c = d := by simpa using hd
  exact inRun_of_isMark hc

theorem Blanks.ended {ws : List Char} (hw : Blanks ws) {rest : List Char} (hr : Ended rest) :
    Ended (ws ++ rest) := by
  cases ws with
  | nil => exact hr
  | cons w ws =>
    intro c hc
    obtain rfl : w = c := by simpa using hc
    exact inRun_of_isBlank (hw w List.mem_cons_self)

theorem opens_of_inRun {c : Char} (hc : inRun c = true) (rest : List Char) : Opens (c :: rest) := by
  refine ⟨c, rest, rfl, isBlank_of_inRun hc, Bool.eq_false_iff.mpr fun hm => ?_⟩
  simp [inRun_of_isMark hm] at hc

-- ---------------------------------------------------------------------------
-- Blanks and runs
-- ---------------------------------------------------------------------------

theorem exists_blanks (cs : List Char) : ∃ ws, Blanks ws ∧ cs = ws ++ dropBlanks cs :=
  ⟨cs.takeWhile isBlank, fun _ h => List.mem_takeWhile_imp h, List.takeWhile_append_dropWhile.symm⟩

theorem blanks_nil : Blanks [] := fun _ h => nomatch h

theorem Blanks.dropBlanks_append {ws : List Char} (hw : Blanks ws) (cs : List Char) :
    dropBlanks (ws ++ cs) = dropBlanks cs :=
  List.dropWhile_append_of_pos hw

theorem Blanks.dropBlanks_cons {ws : List Char} (hw : Blanks ws) {c : Char} (hc : isBlank c = false)
    (rest : List Char) : dropBlanks (ws ++ c :: rest) = c :: rest := by
  rw [hw.dropBlanks_append, Text.dropBlanks_of_solid hc]

theorem exists_run (p : Char → Bool) (cs : List Char) :
    ∃ text left, cs.span p = (text, left) ∧ cs = text ++ left ∧ ∀ c ∈ text, p c = true :=
  ⟨cs.takeWhile p, cs.dropWhile p, List.span_eq_takeWhile_dropWhile ..,
    List.takeWhile_append_dropWhile.symm, fun _ h => List.mem_takeWhile_imp h⟩

theorem span_run {p : Char → Bool} {text rest : List Char} (ht : ∀ c ∈ text, p c = true)
    (hr : ∀ c, rest.head? = some c → p c = false) : (text ++ rest).span p = (text, rest) := by
  rw [List.span_eq_takeWhile_dropWhile, List.takeWhile_append_of_pos ht,
    List.dropWhile_append_of_pos ht]
  cases rest with
  | nil => simp
  | cons c rest => simp [hr c rfl]

-- ---------------------------------------------------------------------------
-- Strings, words, numbers and keys
-- ---------------------------------------------------------------------------

theorem readQuoted_complete {quote : Char} (hq : quote ≠ '\\') {cs text : List Char}
    (h : Quoted quote cs text) (rest : List Char) :
    readQuoted quote (cs ++ quote :: rest) = .ok (text, rest) := by
  induction h with
  | done => simp [readQuoted, hq]
  | plain hc hb _ ih => simp [readQuoted, hc, hb, ih, Except.map]
  | newline _ ih => simp [readQuoted, ih, Except.map]
  | tab _ ih => simp [readQuoted, ih, Except.map]
  | escaped hn ht _ ih => simp [readQuoted, hn, ht, ih, Except.map]

theorem map_eq_ok {x : Except Stop (α × List Char)} {f : α → β} {b : β} {left : List Char}
    (h : (x.map fun (a, left) => (f a, left)) = .ok (b, left)) :
    ∃ a, x = .ok (a, left) ∧ b = f a := by
  cases x with
  | error => cases h
  | ok r =>
    obtain ⟨rfl, rfl⟩ : f r.1 = b ∧ r.2 = left := by simpa [Except.map] using h
    exact ⟨r.1, rfl, rfl⟩

theorem readQuoted_sound {quote : Char} {cs text rest : List Char}
    (h : readQuoted quote cs = .ok (text, rest)) :
    ∃ body, Quoted quote body text ∧ cs = body ++ quote :: rest := by
  fun_induction readQuoted quote cs generalizing text with
  | case1 => cases h
  | case2 => cases h
  | case3 c cs e =>
    rename_i ih
    obtain ⟨text, ht, rfl⟩ := map_eq_ok h
    obtain ⟨body, hb, rfl⟩ := ih ht
    refine ⟨'\\' :: c :: body, ?_, rfl⟩
    by_cases hn : c = 'n'
    · subst hn; exact .newline hb
    · by_cases htab : c = 't'
      · subst htab; exact .tab hb
      · simpa [e, hn, htab] using Quoted.escaped hn htab hb
  | case4 cs =>
    obtain ⟨rfl, rfl⟩ : [] = text ∧ cs = rest := by simpa using h
    exact ⟨[], .done, rfl⟩
  | case5 c cs hlast hmore hq ih =>
    obtain ⟨text, ht, rfl⟩ := map_eq_ok h
    obtain ⟨body, hb, rfl⟩ := ih ht
    refine ⟨c :: body, .plain hq (fun hc => ?_) hb, rfl⟩
    cases hr : body ++ quote :: rest with
    | nil => simp at hr
    | cons d ds => exact hmore d ds hc hr

theorem readString_eq_ok {quote : Char} (hq : quote = '"' ∨ quote = '\'') {cs rest : List Char}
    {s : String} : readString quote cs = .ok (s, rest) ↔
      ∃ text, Str (quote :: text) s ∧ cs = text ++ rest := by
  constructor
  · intro h
    obtain ⟨text, ht, rfl⟩ := map_eq_ok h
    obtain ⟨body, hb, rfl⟩ := readQuoted_sound ht
    exact ⟨body ++ [quote], .mk hq hb, by simp⟩
  · rintro ⟨text, ht, rfl⟩
    cases ht with
    | mk _ hb =>
      have hne : quote ≠ '\\' := by rcases hq with rfl | rfl <;> decide
      simp [readString, readQuoted_complete hne hb, Except.map]

theorem word?_eq_some {name : List Char} {v : Json} : word? name = some v ↔ Word name v := by
  constructor
  · intro h
    simp only [word?] at h
    split at h
    next hn =>
      obtain rfl : name = ['t', 'r', 'u', 'e'] := by simpa using congrArg String.toList hn
      cases h
      exact .true
    next hn =>
      obtain rfl : name = ['f', 'a', 'l', 's', 'e'] := by simpa using congrArg String.toList hn
      cases h
      exact .false
    next hn =>
      obtain rfl : name = ['n', 'u', 'l', 'l'] := by simpa using congrArg String.toList hn
      cases h
      exact .null
    next hn =>
      obtain rfl : name = "undefined".toList := by simpa using congrArg String.toList hn
      cases h
      exact .undefined
    next => cases h
  · rintro (_ | _ | _ | _) <;> rfl

theorem fitsWord_iff {n : Int} : fitsWord n = true ↔ -2 ^ (63 : Nat) ≤ n ∧ n < 2 ^ (63 : Nat) := by
  simp [fitsWord]

theorem number?_eq_some {text : List Char} {n : Number} : number? text = some n ↔ Numeral text n := by
  have hw : ∀ i, (Numeric.integer? text).filter fitsWord = some i ↔ IsWord text i := by
    intro i
    rw [Option.filter_eq_some_iff, fitsWord_iff]
    rfl
  unfold number?
  constructor
  · intro h
    split at h
    next i hi =>
      cases h
      exact .int ((hw i).mp hi)
    next hnone =>
      obtain ⟨x, hx, rfl⟩ := Option.map_eq_some_iff.mp h
      obtain ⟨hd, hfin⟩ := Option.filter_eq_some_iff.mp hx
      obtain ⟨d, hd, rfl⟩ := Option.map_eq_some_iff.mp hd
      exact .real (fun i hi => by simp [(hw i).mpr hi] at hnone) ‹_› hfin
  · intro h
    cases h with
    | int hi => simp [(hw _).mpr hi]
    | real hn hd hfin =>
      have hnone : (Numeric.integer? text).filter fitsWord = none :=
        Option.eq_none_iff_forall_ne_some.mpr fun i hi => hn i ((hw i).mp hi)
      have hreal : ((Numeric.decimal? text).map (·.toBinary .double)).filter (·.isFinite) = some _ :=
        Option.filter_eq_some_iff.mpr ⟨Option.map_eq_some_iff.mpr ⟨_, hd, rfl⟩, hfin⟩
      simp only [hnone, hreal, Option.map_some]

theorem exists_run_cons {p : Char → Bool} {c : Char} (hc : p c = true) (cs : List Char) :
    ∃ text left, (c :: cs).span p = (c :: text, left) ∧ cs = text ++ left ∧ Run p (c :: text) := by
  obtain ⟨text, left, hs, ht, hp⟩ := exists_run p cs
  rw [List.span_eq_takeWhile_dropWhile] at hs ⊢
  obtain ⟨hl, hr⟩ := Prod.mk.inj hs
  refine ⟨text, left, by simp [hc, hl, hr], ht, by simp, fun d hd => ?_⟩
  rcases List.mem_cons.mp hd with rfl | hd
  · exact hc
  · exact hp d hd

theorem Ended.number {rest : List Char} (h : Ended rest) :
    ∀ c, rest.head? = some c → isNumberChar c = false :=
  fun c hc => (Bool.or_eq_false_iff.mp (h c hc)).2

theorem Ended.name {rest : List Char} (h : Ended rest) :
    ∀ c, rest.head? = some c → isNameChar c = false :=
  fun c hc => (Bool.or_eq_false_iff.mp (h c hc)).1

theorem readNumber_sound {c : Char} {cs rest : List Char} {v : Json} (hc : startsNumber c = true)
    (h : readNumber c cs = .ok (v, rest)) : ∃ text, Literal (c :: text) v ∧ cs = text ++ rest := by
  obtain ⟨text, left, hs, rfl, hr⟩ := exists_run_cons (isNumberChar_of_startsNumber hc) cs
  simp only [readNumber, hs] at h
  cases hn : number? (c :: text) with
  | none =>
    rw [hn] at h
    cases h
  | some n =>
    rw [hn] at h
    obtain ⟨rfl, rfl⟩ := Prod.mk.inj (Except.ok.inj h)
    exact ⟨text, .number hc hr (number?_eq_some.mp hn), rfl⟩

theorem readNumber_complete {c : Char} {text rest : List Char} {n : Number}
    (hr : Run isNumberChar (c :: text)) (hn : Numeral (c :: text) n) (he : Ended rest) :
    readNumber c (text ++ rest) = .ok (.number n, rest) := by
  have hs : (c :: (text ++ rest)).span isNumberChar = (c :: text, rest) := span_run hr.2 he.number
  simp only [readNumber, hs, number?_eq_some.mpr hn]

theorem readWord_sound {c : Char} {cs rest : List Char} {v : Json} (hc : isAlphabetic c = true)
    (h : readWord c cs = .ok (v, rest)) : ∃ text, Word (c :: text) v ∧ cs = text ++ rest := by
  have hname : isNameChar c = true := isNameChar_of_startsKey (by simp [startsKey, hc])
  obtain ⟨text, left, hs, rfl, -⟩ := exists_run_cons hname cs
  simp only [readWord, hs] at h
  cases hw : word? (c :: text) with
  | none => simp [hw] at h
  | some w =>
    obtain ⟨rfl, rfl⟩ : w = v ∧ left = rest := by simpa [hw] using h
    exact ⟨text, word?_eq_some.mp hw, rfl⟩

theorem isNameChar_of_word {text : List Char} {v : Json} (h : Word text v) :
    ∀ c ∈ text, isNameChar c = true := by
  have ha : text.all isNameChar = true := by cases h <;> decide
  exact List.all_eq_true.mp ha

theorem readWord_complete {c : Char} {text rest : List Char} {v : Json} (hw : Word (c :: text) v)
    (he : Ended rest) : readWord c (text ++ rest) = .ok (v, rest) := by
  have hs : (c :: (text ++ rest)).span isNameChar = (c :: text, rest) :=
    span_run (isNameChar_of_word hw) he.name
  simp only [readWord, hs, word?_eq_some.mpr hw]

theorem readKey_sound {cs rest : List Char} {key : String} (h : readKey cs = .ok (key, rest)) :
    ∃ text, Key text key ∧ cs = text ++ rest := by
  cases cs with
  | nil => cases h
  | cons c cs =>
    simp only [readKey] at h
    split at h
    next hq =>
      obtain ⟨text, ht, rfl⟩ := (readString_eq_ok hq).mp h
      exact ⟨c :: text, .quoted ht, rfl⟩
    next =>
      split at h
      next hc =>
        obtain ⟨text, left, hs, rfl, hr⟩ := exists_run_cons (isNameChar_of_startsKey hc) cs
        rw [hs] at h
        obtain ⟨rfl, rfl⟩ := Prod.mk.inj (Except.ok.inj h)
        exact ⟨c :: text, .bare hc hr, rfl⟩
      next => cases h

theorem readKey_complete {text rest : List Char} {key : String} (h : Key text key)
    (he : Ended rest) : readKey (text ++ rest) = .ok (key, rest) := by
  cases h with
  | quoted hs =>
    cases hs with
    | @mk quote cs text hq hb =>
      simpa [readKey, hq] using (readString_eq_ok hq).mpr ⟨cs ++ [quote], .mk hq hb, by simp⟩
  | @bare c cs hc hr =>
    have hs : (c :: (cs ++ rest)).span isNameChar = (c :: cs, rest) := span_run hr.2 he.name
    have hq : ¬(c = '"' ∨ c = '\'') := by rintro (rfl | rfl) <;> exact absurd hc (by decide)
    have hk : (isAlphabetic c || c == '_') = true := hc
    simp only [List.cons_append, readKey, hq, hk, hs, if_true, if_false]

-- ---------------------------------------------------------------------------
-- Literals: what is read is of the grammar
-- ---------------------------------------------------------------------------

theorem bind_eq_ok {x : Except Stop α} {f : α → Except Stop β} {b : β} (h : (x >>= f) = .ok b) :
    ∃ a, x = .ok a ∧ f a = .ok b := by
  cases x with
  | error => cases h
  | ok a => exact ⟨a, rfl, h⟩

/-- A closing bracket that is next closes a list of nothing. -/
theorem listed_nothing {P : List Char → α → Prop} {cs : List Char} {close : Char}
    (h : (dropBlanks cs).head? = some close) :
    ∃ text, Listed P text [] ∧ cs = text ++ close :: (dropBlanks cs).tail := by
  obtain ⟨ws, hw, hcs⟩ := exists_blanks cs
  obtain ⟨rest, hr⟩ := List.head?_eq_some_iff.mp h
  exact ⟨ws, .none hw, by rwa [hr] at hcs ⊢⟩

/-- After a member of a list come more of them or the end of the list. -/
theorem next_cases {left last : List Char} {what : Construct} {close : Char} {one all : α}
    {more : List Char → Except Stop (α × List Char)}
    (h : (match dropBlanks left with
      | [] => Except.error (Stop.unterminated what)
      | c :: rest =>
        if c = ',' then more rest
        else if c = close then pure (one, rest)
        else Except.error (Stop.unexpected c rest)) = .ok (all, last)) :
    ∃ ws, Blanks ws ∧ ((∃ rest, left = ws ++ ',' :: rest ∧ more rest = .ok (all, last)) ∨
      (left = ws ++ close :: last ∧ all = one)) := by
  obtain ⟨ws, hw, hleft⟩ := exists_blanks left
  refine ⟨ws, hw, ?_⟩
  cases hd : dropBlanks left with
  | nil => simp [hd] at h
  | cons c rest =>
    rw [hd] at h hleft
    dsimp only at h
    split at h
    next hc => exact .inl ⟨rest, hc ▸ hleft, h⟩
    next =>
      split at h
      next hc =>
        cases h
        exact .inr ⟨hc ▸ hleft, rfl⟩
      next => cases h

mutual
theorem readLiteral_sound : ∀ {fuel : Nat} {cs rest : List Char} {v : Json},
    readLiteral fuel cs = .ok (v, rest) →
      ∃ ws text, Blanks ws ∧ Literal text v ∧ cs = ws ++ (text ++ rest)
  | 0, _, _, _, h => by simp [readLiteral] at h
  | fuel + 1, cs, rest, v, h => by
    obtain ⟨ws, hw, hcs⟩ := exists_blanks cs
    simp only [readLiteral] at h
    cases hd : dropBlanks cs with
    | nil => simp [hd] at h
    | cons c after =>
      rw [hd] at h hcs
      simp only at h
      have hfront : ∀ {text}, Literal (c :: text) v → after = text ++ rest →
          ∃ ws text, Blanks ws ∧ Literal text v ∧ cs = ws ++ (text ++ rest) :=
        fun {text} hl ha => ⟨ws, c :: text, hw, hl, by rw [hcs, ha]; rfl⟩
      split at h
      next hq =>
        obtain ⟨s, hs, rfl⟩ := map_eq_ok h
        obtain ⟨text, ht, ha⟩ := (readString_eq_ok hq).mp hs
        exact hfront (.string ht) ha
      next =>
      split at h
      next hc =>
        subst hc
        obtain ⟨items, hi, rfl⟩ := map_eq_ok h
        obtain ⟨text, ht, ha⟩ := readItems_sound hi
        exact hfront (.array ht) (by simp [ha])
      next =>
      split at h
      next hc =>
        subst hc
        obtain ⟨entries, he, rfl⟩ := map_eq_ok (f := fun es => Json.object (Fields.ofPairs es)) h
        obtain ⟨text, ht, ha⟩ := readEntries_sound he
        exact hfront (.object ht (gathers_ofPairs entries)) (by simp [ha])
      next =>
      split at h
      next => cases h
      next =>
      split at h
      next hc =>
        obtain ⟨text, ht, ha⟩ := readNumber_sound hc h
        exact hfront ht ha
      next =>
      split at h
      next hc =>
        obtain ⟨text, ht, ha⟩ := readWord_sound hc h
        exact hfront (.word ht) ha
      next => cases h

theorem readItems_sound : ∀ {fuel : Nat} {what : Construct} {close : Char} {cs rest : List Char}
    {items : List Json}, readItems fuel what close cs = .ok (items, rest) →
      ∃ text, Listed Literal text items ∧ cs = text ++ close :: rest
  | 0, _, _, _, _, _, h => by simp [readItems] at h
  | fuel + 1, what, close, cs, rest, items, h => by
    simp only [readItems] at h
    split at h
    next hc =>
      obtain ⟨rfl, rfl⟩ := Prod.mk.inj (Except.ok.inj h)
      exact listed_nothing hc
    next =>
      obtain ⟨ws, text, ws', hw, ht, hw', rfl⟩ := readItemsFrom_sound h
      exact ⟨ws ++ (text ++ ws'), .some hw ht hw', by simp⟩

theorem readItemsFrom_sound : ∀ {fuel : Nat} {what : Construct} {close : Char}
    {cs rest : List Char} {items : List Json},
    readItemsFrom fuel what close cs = .ok (items, rest) →
      ∃ ws text ws', Blanks ws ∧ Series Literal text items ∧ Blanks ws' ∧
        cs = ws ++ (text ++ (ws' ++ close :: rest))
  | 0, _, _, _, _, _, h => by simp [readItemsFrom] at h
  | fuel + 1, what, close, cs, rest, items, h => by
    simp only [readItemsFrom] at h
    obtain ⟨⟨item, left⟩, hi, hnext⟩ := bind_eq_ok h
    obtain ⟨ws, text, hw, ht, rfl⟩ := readLiteral_sound hi
    obtain ⟨ws', hw', ⟨after, rfl, hmore⟩ | ⟨rfl, rfl⟩⟩ := next_cases hnext
    · obtain ⟨⟨items, left⟩, hr, hpure⟩ := bind_eq_ok hmore
      obtain ⟨rfl, rfl⟩ := Prod.mk.inj (Except.ok.inj hpure)
      obtain ⟨us, text', us', hu, ht', hu', rfl⟩ := readItemsFrom_sound hr
      exact ⟨ws, _, us', hw, .more ht hw' hu ht', hu', by simp⟩
    · exact ⟨ws, text, ws', hw, .last ht, hw', rfl⟩

theorem readEntries_sound : ∀ {fuel : Nat} {cs rest : List Char} {entries : List (String × Json)},
    readEntries fuel cs = .ok (entries, rest) →
      ∃ text, Listed Entry text entries ∧ cs = text ++ '}' :: rest
  | 0, _, _, _, h => by simp [readEntries] at h
  | fuel + 1, cs, rest, entries, h => by
    simp only [readEntries] at h
    split at h
    next hc =>
      obtain ⟨rfl, rfl⟩ := Prod.mk.inj (Except.ok.inj h)
      exact listed_nothing hc
    next =>
      obtain ⟨ws, text, ws', hw, ht, hw', rfl⟩ := readEntriesFrom_sound h
      exact ⟨ws ++ (text ++ ws'), .some hw ht hw', by simp⟩

theorem readEntriesFrom_sound : ∀ {fuel : Nat} {cs rest : List Char}
    {entries : List (String × Json)}, readEntriesFrom fuel cs = .ok (entries, rest) →
      ∃ ws text ws', Blanks ws ∧ Series Entry text entries ∧ Blanks ws' ∧
        cs = ws ++ (text ++ (ws' ++ '}' :: rest))
  | 0, _, _, _, h => by simp [readEntriesFrom] at h
  | fuel + 1, cs, rest, entries, h => by
    simp only [readEntriesFrom] at h
    obtain ⟨⟨key, left⟩, hk, hcolon⟩ := bind_eq_ok h
    obtain ⟨ws, hw, hcs⟩ := exists_blanks cs
    obtain ⟨name, hkey, hname⟩ := readKey_sound hk
    obtain ⟨us, hu, hleft⟩ := exists_blanks left
    rw [hname] at hcs
    cases hd : dropBlanks left with
    | nil => simp [hd] at hcolon
    | cons c after =>
      rw [hd] at hleft hcolon
      dsimp only at hcolon
      split at hcolon
      next => cases hcolon
      next hc =>
        obtain rfl : c = ':' := by simpa using hc
        obtain ⟨⟨value, left⟩, hl, hnext⟩ := bind_eq_ok hcolon
        obtain ⟨vs, text, hv, ht, rfl⟩ := readLiteral_sound hl
        have hentry : Entry (name ++ (us ++ ':' :: (vs ++ text))) (key, value) := .mk hkey hu hv ht
        obtain ⟨ws', hw', ⟨after, rfl, hmore⟩ | ⟨rfl, rfl⟩⟩ := next_cases hnext
        · obtain ⟨⟨entries, left⟩, hr, hpure⟩ := bind_eq_ok hmore
          obtain ⟨rfl, rfl⟩ := Prod.mk.inj (Except.ok.inj hpure)
          obtain ⟨xs, text', xs', hx, ht', hx', rfl⟩ := readEntriesFrom_sound hr
          exact ⟨ws, _, xs', hw, .more hentry hw' hx ht', hx', by simp [hcs, hleft]⟩
        · exact ⟨ws, _, ws', hw, .last hentry, hw', by simp [hcs, hleft]⟩
end

-- ---------------------------------------------------------------------------
-- Literals: what is of the grammar is read
-- ---------------------------------------------------------------------------

theorem ne_of_inRun {c : Char} (hc : inRun c = true) :
    ¬(c = '"' ∨ c = '\'') ∧ c ≠ '[' ∧ c ≠ '{' ∧ c ≠ '$' := by
  refine ⟨?_, ?_, ?_, ?_⟩
  · rintro (rfl | rfl) <;> exact absurd hc (by decide)
  all_goals rintro rfl; exact absurd hc (by decide)

theorem word_cons {text : List Char} {v : Json} (h : Word text v) :
    ∃ c cs, text = c :: cs ∧ isAlphabetic c = true ∧ startsNumber c = false := by
  cases h <;> exact ⟨_, _, rfl, by decide⟩

theorem inRun_of_isAlphabetic {c : Char} (h : isAlphabetic c = true) : inRun c = true := by
  simp [inRun, isNameChar_of_startsKey (c := c) (by simp [startsKey, h])]

theorem inRun_of_startsNumber {c : Char} (h : startsNumber c = true) : inRun c = true := by
  simp [inRun, isNumberChar_of_startsNumber h]

theorem Opens.append {cs : List Char} (h : Opens cs) (rest : List Char) : Opens (cs ++ rest) := by
  obtain ⟨c, cs, rfl, hb, hm⟩ := h
  exact ⟨c, cs ++ rest, rfl, hb, hm⟩

theorem Str.opens {text : List Char} {s : String} (h : Str text s) : Opens text := by
  obtain ⟨rfl | rfl, _⟩ := h <;> exact ⟨_, _, rfl, by decide, by decide⟩

theorem Literal.opens {text : List Char} {v : Json} (h : Literal text v) : Opens text := by
  cases h with
  | word h =>
    obtain ⟨c, cs, rfl, hc, -⟩ := word_cons h
    exact opens_of_inRun (inRun_of_isAlphabetic hc) cs
  | string h => exact h.opens
  | number hc => exact opens_of_inRun (inRun_of_startsNumber hc) _
  | array => exact ⟨'[', _, rfl, by decide, by decide⟩
  | object => exact ⟨'{', _, rfl, by decide, by decide⟩

theorem Key.opens {text : List Char} {key : String} (h : Key text key) : Opens text := by
  cases h with
  | quoted h => exact h.opens
  | @bare c _ hc => exact opens_of_inRun (by simp [inRun, isNameChar_of_startsKey hc]) _

theorem Entry.opens {text : List Char} {entry : String × Json} (h : Entry text entry) :
    Opens text := by
  obtain ⟨hk⟩ := h
  exact hk.opens.append _

theorem Series.opens {P : List Char → α → Prop} (hP : ∀ cs a, P cs a → Opens cs) {text : List Char}
    {as : List α} (h : Series P text as) : Opens text := by
  cases h with
  | last ha => exact hP _ _ ha
  | more ha => exact (hP _ _ ha).append _

theorem Opens.dropBlanks_append {text : List Char} (h : Opens text) {ws : List Char}
    (hw : Blanks ws) (rest : List Char) : dropBlanks (ws ++ (text ++ rest)) = text ++ rest := by
  obtain ⟨c, cs, rfl, hb, -⟩ := h
  exact hw.dropBlanks_cons hb _

/-- A list that starts with a member is not closed at once. -/
theorem Opens.head?_ne {text : List Char} (h : Opens text) {ws : List Char} (hw : Blanks ws)
    {close : Char} (hc : isMark close = true) (rest : List Char) :
    (dropBlanks (ws ++ (text ++ rest))).head? ≠ some close := by
  rw [h.dropBlanks_append hw]
  obtain ⟨c, cs, rfl, -, hm⟩ := h
  rintro ⟨⟩
  simp [hm] at hc

/-- Once the value of an entry can be read, the entry is. -/
theorem readEntriesFrom_entry {fuel : Nat} {ws name us vs value left : List Char} {key : String}
    {v : Json} (hw : Blanks ws) (hk : Key name key) (hu : Blanks us)
    (hv : readLiteral fuel (vs ++ (value ++ left)) = .ok (v, left)) :
    readEntriesFrom (fuel + 1) (ws ++ (name ++ (us ++ ':' :: (vs ++ (value ++ left))))) =
      match dropBlanks left with
      | [] => .error (.unterminated .object)
      | c :: rest =>
        if c = ',' then do
          let (entries, left) ← readEntriesFrom fuel rest
          pure ((key, v) :: entries, left)
        else if c = '}' then pure ([(key, v)], rest)
        else .error (.unexpected c rest) := by
  have hkey : readKey (name ++ (us ++ ':' :: (vs ++ (value ++ left)))) =
      .ok (key, us ++ ':' :: (vs ++ (value ++ left))) :=
    readKey_complete hk (hu.ended (ended_mark (by decide) _))
  rw [readEntriesFrom, hk.opens.dropBlanks_append hw, hkey]
  simp only [bind, Except.bind, hu.dropBlanks_cons (c := ':') (by decide), hv]
  rfl

mutual
theorem readLiteral_complete : ∀ {fuel : Nat} {ws text rest : List Char} {v : Json},
    Literal text v → Blanks ws → Ended rest → 3 * text.length < fuel →
      readLiteral fuel (ws ++ (text ++ rest)) = .ok (v, rest)
  | 0, _, _, _, _, _, _, _, hf => absurd hf (Nat.not_lt_zero _)
  | fuel + 1, ws, text, rest, v, hl, hw, he, hf => by
    cases hl with
    | word h =>
      obtain ⟨c, cs, rfl, hc, hn⟩ := word_cons h
      obtain ⟨hq, ha, ho, hd⟩ := ne_of_inRun (inRun_of_isAlphabetic hc)
      have hnum : (c.isDigit || c == '-' || c == '.') = false := hn
      simp only [readLiteral, List.cons_append,
        hw.dropBlanks_cons (isBlank_of_inRun (inRun_of_isAlphabetic hc)), hq, ha, ho, hd, hnum, hc,
        if_false, if_true, Bool.false_eq_true]
      exact readWord_complete h he
    | string h =>
      obtain @⟨quote, cs, _, hq, hcs⟩ := h
      have hs := (readString_eq_ok hq).mpr ⟨cs ++ [quote], .mk hq hcs, (rfl : _ = _ ++ rest)⟩
      have hb : isBlank quote = false := by rcases hq with rfl | rfl <;> decide
      simp only [readLiteral, List.cons_append, hw.dropBlanks_cons hb, hq, if_true, hs, Except.map]
    | number hc hr hn =>
      obtain ⟨hq, ha, ho, hd⟩ := ne_of_inRun (inRun_of_startsNumber hc)
      have hnum : (_ || _ || _) = true := hc
      simp only [readLiteral, List.cons_append,
        hw.dropBlanks_cons (isBlank_of_inRun (inRun_of_startsNumber hc)), hq, ha, ho, hd, hnum,
        if_false, if_true]
      exact readNumber_complete hr hn he
    | @array cs items h =>
      have hi : readItems fuel .array ']' (cs ++ ']' :: rest) = .ok (items, rest) :=
        readItems_complete h (by decide) (by decide) (by simp at hf; omega)
      simp [readLiteral, hw.dropBlanks_cons, isBlank, hi, Except.map]
    | @object cs entries fields h hg =>
      have hi : readEntries fuel (cs ++ '}' :: rest) = .ok (entries, rest) :=
        readEntries_complete h (by simp at hf; omega)
      simp [readLiteral, hw.dropBlanks_cons, isBlank, hi, Except.map, gathers_iff.mp hg]

theorem readItems_complete : ∀ {fuel : Nat} {what : Construct} {close : Char}
    {text rest : List Char} {items : List Json},
    Listed Literal text items → isMark close = true → close ≠ ',' → 3 * text.length + 2 < fuel →
      readItems fuel what close (text ++ close :: rest) = .ok (items, rest)
  | 0, _, _, _, _, _, _, _, _, hf => absurd hf (Nat.not_lt_zero _)
  | fuel + 1, what, close, text, rest, items, hl, hm, hc, hf => by
    cases hl with
    | none hw => simp [readItems, hw.dropBlanks_cons (isBlank_of_isMark hm)]
    | @some ws cs ws' _ hw hs hw' =>
      have hne := (hs.opens fun _ _ => Literal.opens).head?_ne hw hm (ws' ++ close :: rest)
      simp only [List.append_assoc, readItems, hne, if_false]
      exact readItemsFrom_complete hs hw hw' hm hc (by simp at hf; omega)

theorem readItemsFrom_complete : ∀ {fuel : Nat} {what : Construct} {close : Char}
    {ws text ws' rest : List Char} {items : List Json},
    Series Literal text items → Blanks ws → Blanks ws' → isMark close = true → close ≠ ',' →
      3 * text.length + 1 < fuel →
      readItemsFrom fuel what close (ws ++ (text ++ (ws' ++ close :: rest))) = .ok (items, rest)
  | 0, _, _, _, _, _, _, _, _, _, _, _, _, hf => absurd hf (Nat.not_lt_zero _)
  | fuel + 1, what, close, ws, text, ws', rest, items, hs, hw, hw', hm, hc, hf => by
    cases hs with
    | last ha =>
      have hr : readLiteral fuel (ws ++ (text ++ (ws' ++ close :: rest))) = .ok _ :=
        readLiteral_complete ha hw (hw'.ended (ended_mark hm rest)) (by omega)
      simp [readItemsFrom, hr, hw'.dropBlanks_cons (isBlank_of_isMark hm), hc, bind, Except.bind,
        pure, Except.pure]
    | @more cs us us' tail _ as ha hu hu' hs =>
      simp only [List.length_append, List.length_cons] at hf
      have hr : readLiteral fuel
          (ws ++ (cs ++ (us ++ ',' :: (us' ++ (tail ++ (ws' ++ close :: rest)))))) = .ok _ :=
        readLiteral_complete ha hw (hu.ended (ended_mark (by decide) _)) (by omega)
      have hmore : readItemsFrom fuel what close (us' ++ (tail ++ (ws' ++ close :: rest))) =
          .ok (as, rest) :=
        readItemsFrom_complete hs hu' hw' hm hc (by omega)
      simp [readItemsFrom, hr, hu.dropBlanks_cons (c := ',') (by decide), hmore, bind, Except.bind,
        pure, Except.pure]

theorem readEntries_complete : ∀ {fuel : Nat} {text rest : List Char}
    {entries : List (String × Json)},
    Listed Entry text entries → 3 * text.length + 2 < fuel →
      readEntries fuel (text ++ '}' :: rest) = .ok (entries, rest)
  | 0, _, _, _, _, hf => absurd hf (Nat.not_lt_zero _)
  | fuel + 1, text, rest, items, hl, hf => by
    cases hl with
    | none hw => simp [readEntries, hw.dropBlanks_cons (c := '}') (by decide)]
    | @some ws cs ws' _ hw hs hw' =>
      have hne : (dropBlanks (ws ++ (cs ++ (ws' ++ '}' :: rest)))).head? ≠ some '}' :=
        (hs.opens fun _ _ => Entry.opens).head?_ne hw (by decide) _
      simp only [List.append_assoc, readEntries, hne, if_false]
      exact readEntriesFrom_complete hs hw hw' (by simp at hf; omega)

theorem readEntriesFrom_complete : ∀ {fuel : Nat} {ws text ws' rest : List Char}
    {entries : List (String × Json)},
    Series Entry text entries → Blanks ws → Blanks ws' → 3 * text.length + 1 < fuel →
      readEntriesFrom fuel (ws ++ (text ++ (ws' ++ '}' :: rest))) = .ok (entries, rest)
  | 0, _, _, _, _, _, _, _, _, hf => absurd hf (Nat.not_lt_zero _)
  | fuel + 1, ws, text, ws', rest, entries, hs, hw, hw', hf => by
    cases hs with
    | last he =>
      obtain @⟨name, us, vs, value, key, v, hk, hu, hv, hl⟩ := he
      simp only [List.length_append, List.length_cons] at hf
      have hr : readLiteral fuel (vs ++ (value ++ (ws' ++ '}' :: rest))) = .ok _ :=
        readLiteral_complete hl hv (hw'.ended (ended_mark (by decide) rest)) (by omega)
      simp only [List.append_assoc, List.cons_append, readEntriesFrom_entry hw hk hu hr,
        hw'.dropBlanks_cons (c := '}') (by decide)]
      rfl
    | @more _ xs xs' tail _ as he hx hx' hs =>
      obtain @⟨name, us, vs, value, key, v, hk, hu, hv, hl⟩ := he
      simp only [List.length_append, List.length_cons] at hf
      have hr : readLiteral fuel
          (vs ++ (value ++ (xs ++ ',' :: (xs' ++ (tail ++ (ws' ++ '}' :: rest)))))) = .ok _ :=
        readLiteral_complete hl hv (hx.ended (ended_mark (by decide) _)) (by omega)
      have hmore : readEntriesFrom fuel (xs' ++ (tail ++ (ws' ++ '}' :: rest))) = .ok (as, rest) :=
        readEntriesFrom_complete hs hx' hw' (by omega)
      simp only [List.append_assoc, List.cons_append, readEntriesFrom_entry hw hk hu hr,
        hx.dropBlanks_cons (c := ',') (by decide), if_true, hmore]
      rfl
end

-- ---------------------------------------------------------------------------
-- Expressions
-- ---------------------------------------------------------------------------

theorem readArguments_eq_ok {cs rest : List Char} {args : List Json} :
    readArguments cs = .ok (args, rest) ↔
      ∃ text, Listed Literal text args ∧ cs = text ++ ')' :: rest := by
  constructor
  · exact readItems_sound
  · rintro ⟨text, h, rfl⟩
    refine readItems_complete h (by decide) (by decide) ?_
    simp only [List.length_append, List.length_cons]
    omega

theorem readCall_sound {cs : List Char} {call : MethodCall} (h : readCall cs = .ok call) :
    Call cs call := by
  obtain ⟨method, left, hs, rfl, hm⟩ := exists_run isNameChar cs
  obtain ⟨ws, hw, hleft⟩ := exists_blanks left
  simp only [readCall, hs, List.isEmpty_iff] at h
  split at h
  next => cases h
  next hne =>
    cases hd : dropBlanks left with
    | nil => simp [hd] at h
    | cons c rest =>
      rw [hd] at h hleft
      dsimp only at h
      split at h
      next => cases h
      next hc =>
        obtain rfl : c = '(' := by simpa using hc
        obtain ⟨⟨args, after⟩, ha, hend⟩ := bind_eq_ok h
        obtain ⟨text, ht, rfl⟩ := readArguments_eq_ok.mp ha
        obtain ⟨ws', hw', hafter⟩ := exists_blanks after
        cases hd' : dropBlanks after with
        | nil =>
          rw [hd', List.append_nil] at hafter
          simp only [hd'] at hend
          cases hend
          rw [hleft, hafter]
          exact .mk ⟨hne, hm⟩ hw ht hw'
        | cons d rest => by_cases hdot : d = '.' <;> simp [hd', hdot] at hend

theorem readCall_complete {cs : List Char} {call : MethodCall} (h : Call cs call) :
    readCall cs = .ok call := by
  obtain @⟨method, ws, text, ws', args, hm, hw, ht, hw'⟩ := h
  have hs : (method ++ (ws ++ '(' :: (text ++ ')' :: ws'))).span isNameChar = (method, _) :=
    span_run hm.2 (hw.ended (ended_mark (by decide) _)).name
  have ha : readArguments (text ++ ')' :: ws') = .ok (args, ws') :=
    readArguments_eq_ok.mpr ⟨text, ht, rfl⟩
  have hend : dropBlanks ws' = [] := List.dropWhile_eq_nil_iff.mpr hw'
  simp only [readCall, hs, List.isEmpty_iff, hm.1, if_false,
    hw.dropBlanks_cons (c := '(') (by decide), ha, ne_eq, not_true_eq_false]
  simp [bind, Except.bind, hend, pure, Except.pure]

theorem readExpression_sound {cs : List Char} {e : Expression} (h : readExpression cs = .ok e) :
    Derives cs e := by
  unfold readExpression at h
  split at h
  next rest =>
    obtain ⟨name, left, hs, rfl, hn⟩ := exists_run isIdChar rest
    simp only [hs, List.isEmpty_iff] at h
    split at h
    next => cases h
    next hne =>
      split at h
      next =>
        cases h
        simpa using Derives.reference ⟨hne, hn⟩
      next c after =>
        split at h
        next hc =>
          subst hc
          cases hr : readCall after with
          | error => simp [hr, Except.map] at h
          | ok call =>
            rw [hr] at h
            cases h
            exact .call ⟨hne, hn⟩ (readCall_sound hr)
        next => cases h
  next => cases h

theorem readExpression_complete {cs : List Char} {e : Expression} (h : Derives cs e) :
    readExpression cs = .ok e := by
  cases h with
  | @reference name hn =>
    have hs : name.span isIdChar = (name, []) := by
      have hr : (name ++ []).span isIdChar = (name, []) := span_run hn.2 (by simp)
      rwa [List.append_nil] at hr
    simp only [readExpression, hs, List.isEmpty_iff, hn.1, if_false]
  | @call name cs call hn hc =>
    have hs : (name ++ '.' :: cs).span isIdChar = (name, '.' :: cs) :=
      span_run hn.2 fun c hc => by obtain rfl : '.' = c := by simpa using hc
                                   decide
    simp only [readExpression, hs, List.isEmpty_iff, hn.1, if_false, if_true, readCall_complete hc]
    rfl

theorem parse_of_derives {source : String} {e : Expression}
    (h : Derives (Text.trim source.toList) e) : parse source = .ok e := by
  rw [parse, readExpression_complete h]
  rfl

theorem derives_of_parse {source : String} {e : Expression} (h : parse source = .ok e) :
    Derives (Text.trim source.toList) e := by
  rw [parse] at h
  cases hr : readExpression (Text.trim source.toList) with
  | error => simp [hr, Except.mapError] at h
  | ok =>
    obtain rfl : _ = e := by simpa [hr, Except.mapError] using h
    exact readExpression_sound hr

theorem isBlank_of_isIdChar {c : Char} (h : isIdChar c = true) : isBlank c = false := by
  refine isBlank_of_inRun ?_
  rcases Bool.or_eq_true_iff.mp h with h | h
  · simp [inRun, h]
  · simp [inRun, isNumberChar, h]

/-- Blanks of an expression are not missed where it ends. -/
theorem derives_trim {cs : List Char} {e : Expression} (h : Derives cs e) :
    Derives (Text.trim cs) e := by
  cases h with
  | @reference name hn =>
    obtain ⟨front, c, rfl⟩ := (List.eq_nil_or_concat' name).resolve_left hn.1
    rw [Text.trim_of_solid (by decide) (isBlank_of_isIdChar (hn.2 c (by simp))) front (by simp)]
    exact .reference hn
  | @call name _ _ hn hc =>
    obtain @⟨method, ws, cs, ws', args, hm, hw, hl, hw'⟩ := hc
    have htext : '$' :: (name ++ '.' :: (method ++ (ws ++ '(' :: (cs ++ ')' :: ws')))) =
        '$' :: ((name ++ '.' :: (method ++ (ws ++ '(' :: cs))) ++ ')' :: ws') := by simp
    rw [htext, Text.trim_of_solid (by decide) (by decide) _ hw']
    simpa using Derives.call hn (.mk hm hw hl blanks_nil)

/-- A text of the grammar is read as it stands. -/
theorem parse_ofList {cs : List Char} {e : Expression} (h : Derives cs e) :
    parse (String.ofList cs) = .ok e :=
  parse_of_derives (by simpa using derives_trim h)

/-- A text is an expression just if the grammar derives it, trimmed, and what it
is read as is what the grammar says it means. -/
theorem parse_eq_ok_iff (source : String) (e : Expression) :
    parse source = .ok e ↔ Derives (Text.trim source.toList) e := by
  have hread : parse source = .ok e ↔ readExpression (Text.trim source.toList) = .ok e := by
    rw [parse]
    cases readExpression (Text.trim source.toList) <;> simp [Except.mapError]
  rw [hread]
  exact ⟨readExpression_sound, readExpression_complete⟩

end Expression

end LiveLayout
