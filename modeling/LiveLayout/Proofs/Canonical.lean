import Mathlib
import LiveLayout.Proofs.Fullness

/-!
# Layouts in full

A layout and the same layout in full are read alike: as one tree, with the same
remarks on props that are no data sources. The widgets get the props that are
written, in their order.
-/

namespace LiveLayout.Layout

open Json (Document fieldDocuments itemDocuments)
open Decoding

-- ---------------------------------------------------------------------------
-- Nodes of a value
-- ---------------------------------------------------------------------------

mutual
/-- All nodes are written as objects. -/
def objectNodes : Json → Bool
  | .object fields => kind? fields != some .container || objectChildren fields
  | _ => false
def objectChildren : List (String × Json) → Bool
  | [] => true
  | (name, v) :: rest => (name != "children" || objectNodesAmong v) && objectChildren rest
def objectNodesAmong : Json → Bool
  | .array items => objectNodesAll items
  | _ => true
def objectNodesAll : List Json → Bool
  | [] => true
  | v :: rest => objectNodes v && objectNodesAll rest
end

mutual
/-- The components in document order, as they are written. -/
def writtenComponents : Json → List (Fields Json)
  | .object fields =>
    match kind? fields with
    | some .container => writtenInFrame fields
    | some .component => [fields]
    | none => []
  | _ => []
def writtenInFrame : List (String × Json) → List (Fields Json)
  | [] => []
  | (name, v) :: rest => (if name = "children" then writtenAmong v else []) ++ writtenInFrame rest
def writtenAmong : Json → List (Fields Json)
  | .array items => writtenAll items
  | _ => []
def writtenAll : List Json → List (Fields Json)
  | [] => []
  | v :: rest => writtenComponents v ++ writtenAll rest
end

-- ---------------------------------------------------------------------------
-- Tags
-- ---------------------------------------------------------------------------

section
variable {origin : Origin}

theorem tag_held (h : tag origin d = .ok t) : tag .held d = .ok t := by
  unfold tag at h ⊢
  split at h
  · exact h
  · exact h
  · cases d <;> cases h

/-- Only the fields called `type` tell the tag. -/
theorem tagOfFields_filter (h : origin ≠ .text) (found : Option Tag) (fields : Fields Json) :
    tagOfFields origin found (fieldDocuments fields) =
      tagOfFields origin found (fieldDocuments (fields.filter (·.1 = "type"))) := by
  induction fields generalizing found with
  | nil => rfl
  | cons p rest ih =>
    by_cases hp : p.1 = "type"
    · simp only [List.filter_cons, hp, decide_true, if_true, fieldDocuments, tagOfFields, ih]
    · simp only [List.filter_cons, hp, decide_false, if_false, fieldDocuments, tagOfFields,
        hold_of_ne_text h]
      exact ih found

theorem tagOfFields_some (h : origin ≠ .text) {fields : Fields Json} {t : Tag}
    (hf : tagOfFields origin (some t) (fieldDocuments fields) = .ok found) : found = some t := by
  induction fields with
  | nil => cases hf; rfl
  | cons p rest ih =>
    simp only [fieldDocuments, tagOfFields] at hf
    split at hf
    · cases hf
    · rw [hold_of_ne_text h] at hf
      exact ih hf

theorem kind?_of_tag (h : origin ≠ .text) {fields : Fields Json}
    (hf : tagOfFields origin none (fieldDocuments fields) = .ok (some t)) : kind? fields = some t := by
  induction fields with
  | nil => cases hf
  | cons p rest ih =>
    simp only [fieldDocuments, tagOfFields] at hf
    split at hf
    · next hp =>
      obtain ⟨found, ht, hr⟩ := bind_ok.mp hf
      obtain ⟨t', ht', rfl⟩ := map_ok.mp ht
      cases tagOfFields_some h hr
      simp [kind?, Fields.get?, hp, tag_held ht', Except.toOption]
    · next hp =>
      rw [hold_of_ne_text h] at hf
      have hr := ih hf
      simpa [kind?, Fields.get?, hp] using hr

end

/-- A node in full has the tag that it had. -/
theorem tagOfFields_canonical {origin : Origin} (h : origin ≠ .text) {fields fields' : Fields Json}
    (hf : fields'.filter (·.1 = "type") = fields.filter (·.1 = "type")) :
    tagOfFields origin none (fieldDocuments fields') = tagOfFields origin none (fieldDocuments fields) := by
  rw [tagOfFields_filter h, hf, ← tagOfFields_filter h]

-- ---------------------------------------------------------------------------
-- Nodes that come to the same
-- ---------------------------------------------------------------------------

open Node (changeAll componentsAll)

/-- Nodes that are tidied to the same, with the props that are written. -/
structure Tidies (ns ns' : List Node) (written : List (Fields Json)) : Prop where
  same : changeAll Component.liftFeed ns' = changeAll Component.liftFeed ns
  props : (componentsAll (changeAll Component.liftFeed ns).1).map Component.propsJson =
    written.map handedProps

theorem Tidies.nil : Tidies [] [] [] := ⟨rfl, rfl⟩

theorem Tidies.cons (h : Tidies [n] [n'] written) (hr : Tidies ns ns' more) :
    Tidies (n :: ns) (n' :: ns') (written ++ more) where
  same := by
    have hs := h.same
    simp only [changeAll, Prod.mk.injEq, List.cons.injEq, and_true, List.append_nil] at hs
    simp only [changeAll, hs.1, hs.2, hr.same]
  props := by
    have hp := h.props
    simp only [changeAll, componentsAll, List.append_nil] at hp
    simp only [changeAll, componentsAll, List.map_append, hp, hr.props]

theorem Tidies.container (h : Tidies ns ns' written) (frame : Frame) :
    Tidies [.container frame ns] [.container frame ns'] written where
  same := by simp only [changeAll, Node.changeComponents, h.same]
  props := by
    simp only [changeAll, Node.changeComponents, componentsAll, Node.components, List.append_nil,
      h.props]

theorem Tidies.component {c c' : Component} (h : c'.liftFeed = c.liftFeed)
    (hp : c.liftFeed.1.propsJson = handedProps fields) :
    Tidies [.component c] [.component c'] [fields] where
  same := by simp only [changeAll, Node.changeComponents, h]
  props := by
    simp [changeAll, Node.changeComponents, componentsAll, Node.components, hp]

/-- Containers as far as they are decoded, alike but for children that come to
the same. -/
structure Resembles (draft draft' : ContainerDraft) (written : List (Fields Json)) : Prop where
  frame : draft' = { draft with children := draft'.children }
  given : draft'.children.isSome = draft.children.isSome
  children : Tidies (draft.children.getD []) (draft'.children.getD []) written

theorem Resembles.finish (h : Resembles draft draft' written) :
    Tidies [.container draft.finish.1 draft.finish.2] [.container draft'.finish.1 draft'.finish.2]
      written := by
  have hf : draft'.finish.1 = draft.finish.1 := by
    rw [h.frame]
    rfl
  rw [hf]
  exact h.children.container _

/-- As long as there are no children none are written. -/
theorem Resembles.written_of_none (h : Resembles draft draft' written)
    (hn : draft.children = none) : written = [] := by
  have hp := h.children.props
  simp only [hn, Option.getD_none, changeAll, componentsAll, List.map_nil] at hp
  exact List.map_eq_nil_iff.mp hp.symm

theorem frameField_children {origin : Origin} {draft e : ContainerDraft}
    (h : frameField origin draft name d = .ok e) (kids : Option (List Node)) :
    e.children = draft.children ∧
      frameField origin { draft with children := kids } name d = .ok { e with children := kids } := by
  unfold frameField at h ⊢
  split at h
  all_goals
    obtain ⟨v, hv, h⟩ := bind_ok.mp h
    cases h
    exact ⟨rfl, bind_ok.mpr ⟨v, hv, rfl⟩⟩

theorem frameField_listed {origin : Origin} (h : origin ≠ .text) (draft : ContainerDraft)
    (name : String) (v : Json) :
    frameField origin draft name (if name = "class" then listedClasses v else v).document =
      frameField origin draft name v.document := by
  split
  · next hn =>
    subst hn
    simp only [frameField, once_alike (classes_listed h v)]
  · rfl

-- ---------------------------------------------------------------------------
-- Trees
-- ---------------------------------------------------------------------------

/-- What an object is decoded as, by its tag. -/
inductive Decodes (origin : Origin) (fields : Fields Json) : Node → Prop
  | container (ht : tagOfFields origin none (fieldDocuments fields) = .ok (some .container))
      (hd : containerFields .held .empty (fieldDocuments fields) = .ok draft) :
      Decodes origin fields (.container draft.finish.1 draft.finish.2)
  | component (ht : tagOfFields origin none (fieldDocuments fields) = .ok (some .component))
      (hc : componentOfFields .held (fieldDocuments fields) none = .ok c) :
      Decodes origin fields (.component c)

theorem node_object {origin : Origin} {fields : Fields Json} :
    node origin (Json.object fields).document = .ok n ↔ Decodes origin fields n := by
  simp only [Json.document, node]
  constructor
  · intro hn
    obtain ⟨found, hf, hn⟩ := bind_ok.mp hn
    obtain ⟨_, -, hn⟩ := bind_ok.mp hn
    obtain ⟨t, ht, hn⟩ := bind_ok.mp hn
    cases found with
    | none => cases ht
    | some t' =>
      obtain rfl : t' = t := by simpa [need] using ht
      cases t' with
      | container =>
        obtain ⟨draft, hd, hn⟩ := bind_ok.mp hn
        cases hn
        exact .container hf hd
      | component =>
        obtain ⟨c, hc, rfl⟩ := map_ok.mp hn
        exact .component hf hc
  · intro h
    cases h with
    | container ht hd => simp only [ht, hd]; rfl
    | component ht hc => simp only [ht, hc]; rfl

theorem held_ne_text : Origin.held ≠ .text := fun h => (nomatch h)

mutual
/-- A node in full comes to the same. -/
theorem node_canonical {origin : Origin} (h : origin ≠ .text) (v : Json) (hd : v.distinct = true)
    (ho : objectNodes v = true) (hn : node origin v.document = .ok n) :
    ∃ n', node origin (canonical v).document = .ok n' ∧ Tidies [n] [n'] (writtenComponents v) := by
  cases v with
  | object fields =>
    cases node_object.mp hn with
    | container ht hdraft =>
      have hk := kind?_of_tag h ht
      simp only [objectNodes, hk, bne_self_eq_false, Bool.false_or] at ho
      obtain ⟨draft', hdraft', hr⟩ := frame_canonical fields (Json.distinct_object.mp hd).2 ho hdraft
        ⟨rfl, rfl, .nil⟩
      have ht' := (tagOfFields_canonical h (filter_canonicalFrame fields)).trans ht
      refine ⟨.container draft'.finish.1 draft'.finish.2, ?_, ?_⟩
      · simp only [canonical, hk]
        exact node_object.mpr (.container ht' hdraft')
      · simpa only [writtenComponents, hk, List.nil_append] using hr.finish
    | component ht hc =>
      have hk := kind?_of_tag h ht
      obtain ⟨c', hc', hl, hp⟩ := component_canonical held_ne_text hd hc
      have ht' := (tagOfFields_canonical h (filter_canonicalComponent fields)).trans ht
      refine ⟨.component c', ?_, ?_⟩
      · simp only [canonical, hk]
        exact node_object.mpr (.component ht' hc')
      · simpa only [writtenComponents, hk] using .component hl hp
  | _ => cases ho
theorem frame_canonical (fields : List (String × Json)) (hd : Json.distinctFields fields = true)
    (ho : objectChildren fields = true)
    (hf : containerFields .held draft (fieldDocuments fields) = .ok e)
    (hr : Resembles draft draft' written) :
    ∃ e', containerFields .held draft' (fieldDocuments (canonicalFrame fields)) = .ok e' ∧
      Resembles e e' (written ++ writtenInFrame fields) := by
  cases fields with
  | nil =>
    cases hf
    exact ⟨draft', rfl, by simpa [writtenInFrame] using hr⟩
  | cons p rest =>
    obtain ⟨name, v⟩ := p
    obtain ⟨hv, hrest⟩ := Bool.and_eq_true_iff.mp hd
    obtain ⟨hov, horest⟩ := Bool.and_eq_true_iff.mp ho
    simp only [fieldDocuments, containerFields] at hf
    by_cases hname : name = "children"
    · subst hname
      simp only [if_true] at hf
      split at hf
      · cases hf
      · next hgiven =>
        obtain ⟨kids, hkids, hf⟩ := bind_ok.mp hf
        obtain ⟨kids', hkids', hk⟩ := children_canonical v hv (by simpa using hov) hkids
        have hgiven' : ¬draft'.children.isSome = true := hr.given ▸ hgiven
        have hr₁ : Resembles { draft with children := some kids }
            { draft' with children := some kids' } (written ++ writtenAmong v) := by
          refine ⟨congrArg (fun e => { e with children := some kids' }) hr.frame, rfl, ?_⟩
          rw [hr.written_of_none (by simpa using hgiven)]
          exact hk
        obtain ⟨e', he', hre⟩ := frame_canonical rest hrest horest hf hr₁
        refine ⟨e', ?_, by simpa [writtenInFrame] using hre⟩
        simp only [canonicalFrame, if_true, fieldDocuments, containerFields, if_neg hgiven']
        exact bind_ok.mpr ⟨kids', hkids', he'⟩
    · rw [if_neg hname] at hf
      obtain ⟨e₁, h₁, hf⟩ := bind_ok.mp hf
      obtain ⟨hc, h₁'⟩ := frameField_children h₁ draft'.children
      rw [← hr.frame] at h₁'
      have hr₁ : Resembles e₁ { e₁ with children := draft'.children } written := by
        refine ⟨rfl, by rw [hc]; exact hr.given, ?_⟩
        rw [hc]
        exact hr.children
      obtain ⟨e', he', hre⟩ := frame_canonical rest hrest horest hf hr₁
      refine ⟨e', ?_, by simpa [writtenInFrame, hname] using hre⟩
      simp only [canonicalFrame, if_neg hname, fieldDocuments, containerFields]
      exact bind_ok.mpr ⟨_, (frameField_listed held_ne_text ..).trans h₁', he'⟩
theorem children_canonical (v : Json) (hd : v.distinct = true) (ho : objectNodesAmong v = true)
    (hn : children .held v.document = .ok ns) :
    ∃ ns', children .held (canonicalChildren v).document = .ok ns' ∧ Tidies ns ns' (writtenAmong v) := by
  cases v with
  | array items =>
    obtain ⟨ns₁, h₁, hn⟩ := bind_ok.mp hn
    cases hn
    obtain ⟨ns', hn', ht⟩ := nodes_canonical items hd ho h₁
    exact ⟨ns', bind_ok.mpr ⟨ns', hn', rfl⟩, ht⟩
  | _ => cases hn
theorem nodes_canonical (items : List Json) (hd : Json.distinctItems items = true)
    (ho : objectNodesAll items = true) (hn : nodes .held (itemDocuments items) = .ok ns) :
    ∃ ns', nodes .held (itemDocuments (canonicalItems items)) = .ok ns' ∧
      Tidies ns ns' (writtenAll items) := by
  cases items with
  | nil =>
    cases hn
    exact ⟨[], rfl, .nil⟩
  | cons v rest =>
    obtain ⟨hv, hrest⟩ := Bool.and_eq_true_iff.mp hd
    obtain ⟨hov, horest⟩ := Bool.and_eq_true_iff.mp ho
    obtain ⟨n, hnode, hn⟩ := bind_ok.mp hn
    obtain ⟨more, hmore, hn⟩ := bind_ok.mp hn
    cases hn
    obtain ⟨n', hnode', ht⟩ := node_canonical held_ne_text v hv hov hnode
    obtain ⟨more', hmore', hts⟩ := nodes_canonical rest hrest horest hmore
    exact ⟨n' :: more', bind_ok.mpr ⟨n', hnode', bind_ok.mpr ⟨more', hmore', rfl⟩⟩, ht.cons hts⟩
end

/-- A layout that can be read, with its nodes written as objects, is read just so
when it is written in full. The props that its widgets are made with are those
that are written, in their order, without the data sources that move. -/
theorem read_canonical {v : Json} {tree : Node} {strays : List StrayFeed}
    (hd : v.distinct = true) (ho : objectNodes v = true)
    (h : read (.value v) = .ok (tree, strays)) :
    read (.value (canonical v)) = .ok (tree, strays) ∧ inFull (canonical v) = true ∧
      tree.components.map Component.propsJson = (writtenComponents v).map handedProps := by
  obtain ⟨n, hn, hc⟩ := map_ok.mp h
  have hvalue : Origin.value ≠ .text := fun he => (nomatch he)
  obtain ⟨n', hn', ht⟩ := node_canonical hvalue v hd ho hn
  have hs := ht.same
  have hp := ht.props
  simp only [changeAll, hc, componentsAll, List.append_nil, Prod.mk.injEq, List.cons.injEq,
    and_true] at hs hp
  exact ⟨map_ok.mpr ⟨n', hn', Prod.ext hs.1 hs.2⟩, inFull_canonical v, hp⟩

/-- A grid and, one container further in, a form. -/
def page (classes grid form : Json) : Json := .object [
  ("type", .string "container"), ("class", classes), ("children", .array [grid,
    .object [("type", .string "container"), ("children", .array [form])]])]

/-- An address as the data source, an event by its handler's name, classes in a
string. -/
def shortGrid : Json := .object [
  ("type", .string "component"), ("component", .string "Grid"), ("id", .string "grid"),
  ("props", .object [("keyExpr", .string "id"), ("dataSource", .object [("url", .string "/rows")])]),
  ("events", .object [("click", .string "open")]), ("class", .string "wide dark")]

def fullGrid : Json := .object [
  ("type", .string "component"), ("component", .string "Grid"), ("id", .string "grid"),
  ("props", .object [("keyExpr", .string "id")]),
  ("events", .object [("click", .object [("handler", .string "open")])]),
  ("class", .array [.string "wide", .string "dark"]),
  ("dataSource", .object [("endpoint", .string "/rows")])]

/-- A request and a parent under other names. -/
def shortForm : Json := .object [
  ("type", .string "component"), ("component", .string "Form"),
  ("dataSpec", .object [("api", .string "/forms"), ("params", .object [("of", .string "row")])]),
  ("cascade", .object [("parentId", .string "grid"), ("parentEventName", .string "select"),
    ("endpointTemplate", .string "/rows/{id}"), ("parentKeyField", .string "id")])]

def fullForm : Json := .object [
  ("type", .string "component"), ("component", .string "Form"),
  ("dataSource", .object [("endpoint", .string "/forms"),
    ("queryParameters", .object [("of", .string "row")])]),
  ("cascade", .object [("parentComponent", .string "grid"), ("parentEvent", .string "select"),
    ("endpointTemplate", .string "/rows/{id}"), ("parentKeyField", .string "id")])]

def shortPage : Json := page (.string "page  tall") shortGrid shortForm

def fullPage : Json := page (.array [.string "page", .string "tall"]) fullGrid fullForm

def grid : Component :=
  ⟨"Grid", some "grid", [("keyExpr", .string "id")], [("click", ⟨"open", []⟩)],
    some (.remote (.plain "/rows")), none, [], ["wide", "dark"]⟩

def form : Component :=
  { Component.plain "Form" with
    feed := some (.remote ⟨"/forms", none, [], [("of", .string "row")], none⟩)
    cascade := some ⟨"grid", "select", "/rows/{id}", "id", none⟩ }

def pageNode : Node :=
  .container ⟨.vertical, none, [], ["page", "tall"]⟩
    [.component grid, .container ⟨.vertical, none, [], []⟩ [.component form]]

theorem read_shortPage : shortPage.distinct = true ∧ objectNodes shortPage = true ∧
    read (.value shortPage) = .ok (pageNode, []) ∧ canonical shortPage = fullPage ∧
    read (.value fullPage) = .ok (pageNode, []) := by
  have hd : shortPage.distinct = true := by cbv
  have ho : objectNodes shortPage = true := by cbv
  have hr : read (.value shortPage) = .ok (pageNode, []) := by cbv
  have hc : canonical shortPage = fullPage := by cbv
  exact ⟨hd, ho, hr, hc, hc ▸ (read_canonical hd ho hr).1⟩

end LiveLayout.Layout
