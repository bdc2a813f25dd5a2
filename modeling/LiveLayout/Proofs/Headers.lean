import LiveLayout.Proofs.Composing
import LiveLayout.Rehearsal.Widget

/-!
# Default headers

A request carries the default headers that it does not declare itself. One that
it declares is carried as far as the declared header comes to something; if that
comes to nothing, no header of the name is left.
-/

namespace LiveLayout.Live

open Layout (Remote)

theorem sameHeader_iff :
    sameHeader a b = true ↔ a.toList.map Char.toLower = b.toList.map Char.toLower := beq_iff_eq

theorem sameHeader_refl (name : String) : sameHeader name name = true := sameHeader_iff.mpr rfl

/-- Two headers of one name are of the same name. -/
theorem sameHeader_of_both (h : sameHeader a name = true) (h' : sameHeader b name = true) :
    sameHeader a b = true :=
  sameHeader_iff.mpr ((sameHeader_iff.mp h).trans (sameHeader_iff.mp h').symm)

def Declares (declared : Fields Setting) (name : String) : Prop :=
  ∃ q ∈ declared, sameHeader q.1 name = true

/-- A declared header of the name comes to a value that is not null. -/
def Provides (outcomes : List (String × Option Json)) (name : String) : Prop :=
  ∃ own v, (own, some v) ∈ outcomes ∧ v ≠ .null ∧ sameHeader own name = true

theorem mem_undeclared {declared : Fields Setting} {defaults : Fields String} :
    p ∈ undeclared declared defaults ↔ p ∈ defaults ∧ ¬Declares declared p.1 := by
  simp [undeclared, Declares]

theorem sentPair?_some {name : String} {v : Json} (hv : v ≠ .null) :
    sentPair? (name, some v) = some (name, v.plainText) := by
  cases v <;> first | rfl | exact absurd rfl hv

theorem sentPair?_eq_some {o : String × Option Json} (h : sentPair? o = some p) :
    ∃ v, o = (p.1, some v) ∧ v ≠ .null ∧ p.2 = v.plainText := by
  obtain ⟨name, _ | v⟩ := o
  · cases h
  · have hv : v ≠ .null := by
      rintro rfl
      cases h
    rw [sentPair?_some hv] at h
    obtain rfl := Option.some.inj h
    exact ⟨v, rfl, hv, rfl⟩

/-- How a default header goes with the declared ones. -/
structure Merged (declared : Fields Setting) (outcomes : List (String × Option Json))
    (p : String × String) (headers : List (String × String)) : Prop where
  kept : ¬Declares declared p.1 → p ∈ headers
  overridden : ∀ own v, (own, some v) ∈ outcomes → v ≠ .null → sameHeader own p.1 = true →
    (own, v.plainText) ∈ headers
  alone : Declares declared p.1 → ∀ h ∈ headers, sameHeader h.1 p.1 = true →
    ∃ v, (h.1, some v) ∈ outcomes ∧ v ≠ .null ∧ h.2 = v.plainText
  reached : (∃ h ∈ headers, sameHeader h.1 p.1 = true) ↔
    ¬Declares declared p.1 ∨ Provides outcomes p.1

theorem merged {declared : Fields Setting} {defaults : Fields String} (hp : p ∈ defaults)
    (outcomes : List (String × Option Json)) :
    Merged declared outcomes p (undeclared declared defaults ++ outcomes.filterMap sentPair?) := by
  have hkept (hd : ¬Declares declared p.1) := mem_undeclared.mpr ⟨hp, hd⟩
  have hsent {own v} (ho : (own, some v) ∈ outcomes) (hv : v ≠ .null) :
      (own, v.plainText) ∈ outcomes.filterMap sentPair? :=
    List.mem_filterMap.mpr ⟨_, ho, sentPair?_some hv⟩
  have hcases {h} (hm : h ∈ undeclared declared defaults ++ outcomes.filterMap sentPair?)
      (hs : sameHeader h.1 p.1 = true) : ¬Declares declared p.1 ∨
        ∃ v, (h.1, some v) ∈ outcomes ∧ v ≠ .null ∧ h.2 = v.plainText := by
    rcases List.mem_append.mp hm with hm | hm
    · left
      rintro ⟨q, hq, hqp⟩
      exact (mem_undeclared.mp hm).2 ⟨q, hq, sameHeader_of_both hqp hs⟩
    · right
      obtain ⟨o, ho, hoh⟩ := List.mem_filterMap.mp hm
      obtain ⟨v, rfl, hv, ht⟩ := sentPair?_eq_some hoh
      exact ⟨v, ho, hv, ht⟩
  refine ⟨fun hd => List.mem_append_left _ (hkept hd),
    fun own v ho hv _ => List.mem_append_right _ (hsent ho hv),
    fun hd h hm hs => (hcases hm hs).resolve_left (not_not_intro hd), ?_, ?_⟩
  · rintro ⟨h, hm, hs⟩
    rcases hcases hm hs with hd | ⟨v, ho, hv, -⟩
    · exact .inl hd
    · exact .inr ⟨h.1, v, ho, hv, hs⟩
  · rintro (hd | ⟨own, v, ho, hv, hs⟩)
    · exact ⟨p, List.mem_append_left _ (hkept hd), sameHeader_refl p.1⟩
    · exact ⟨_, List.mem_append_right _ (hsent ho hv), hs⟩

/-- The declared headers of a request come to something or to nothing, one after
the other. A default header reaches the request just if its name is not
declared, or if one that is declared for it comes to something. -/
theorem compose_merges {W : Type} [Widget W] (ctx : Context) (r : Remote) (endpoint : String)
    (s : Stage W) : ∃ results outcomes,
      Queries ctx.directory s (Setting.entryExpressions r.headers) results
        (composePairs ctx.directory .header r.headers s).2 ∧
      FillsPairs r.headers results outcomes ∧
      ∀ p ∈ ctx.options.defaultHeaders,
        Merged r.headers outcomes p (compose ctx r endpoint s).1.headers := by
  obtain ⟨results, outcomes, hq, hf, ho⟩ := composePairs_fills ctx.directory .header r.headers s
  have hh : (compose ctx r endpoint s).1.headers =
      undeclared r.headers ctx.options.defaultHeaders ++ outcomes.filterMap sentPair? := by
    rw [← ho]
    rfl
  exact ⟨results, outcomes, hq, hf, fun p hp => hh ▸ merged hp outcomes⟩

/-- A declared header that asks somebody who is not there takes the default one
with it. -/
theorem default_header_lost :
    let options := { Options.default with defaultHeaders := [("X-Token", "default")] }
    let remote : Remote :=
      ⟨"/rows", none, [("x-token", .expression "$nobody.getValue()")], [], none⟩
    ("X-Token", "default") ∈ options.defaultHeaders ∧
      ¬∃ h ∈ (compose ⟨[], options⟩ remote "/rows" (.empty : Stage Rehearsal.StandIn)).1.headers,
        sameHeader h.1 "X-Token" = true := by
  have hn : (compose ⟨[], { Options.default with defaultHeaders := [("X-Token", "default")] }⟩
      ⟨"/rows", none, [("x-token", .expression "$nobody.getValue()")], [], none⟩ "/rows"
      (.empty : Stage Rehearsal.StandIn)).1.headers = [] := by cbv
  simp [hn]

end LiveLayout.Live
