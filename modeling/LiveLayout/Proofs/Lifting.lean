import LiveLayout.Proofs.Shorthands
import LiveLayout.Proofs.ValueLaws

/-!
# Data sources among the props

A component that is written in full has its data source where it belongs. One
that stands among its props is moved there when the layout is tidied, and the
props are otherwise those that were written, in their order.
-/

namespace LiveLayout.Layout

open Json (Document fieldDocuments itemDocuments)
open Decoding

theorem bind_ok {x : Result α} {g : α → Result β} : x >>= g = .ok b ↔ ∃ a, x = .ok a ∧ g a = .ok b := by
  cases x <;> simp [bind, Except.bind]

theorem map_ok {x : Result α} {g : α → β} : x.map g = .ok b ↔ ∃ a, x = .ok a ∧ g a = b := by
  cases x <;> simp [Except.map]

-- ---------------------------------------------------------------------------
-- Records field by field
-- ---------------------------------------------------------------------------

section
variable {δ β : Type} {f : δ → String → Document → Result δ}

/-- Decodes the fields of a record in their order. -/
def decodeFields (f : δ → String → Document → Result δ) (draft : δ) (fields : Fields Json) :
    Result δ :=
  (fieldDocuments fields).foldlM (fun draft p => f draft p.1 p.2) draft

/-- The place of a field in a record. The field fills it if it is empty, and no
other of the allowed fields has to do with it. -/
structure Slot (f : δ → String → Document → Result δ) (Allowed : String → Prop) (key : String)
    (decode : Document → Result β) (place : δ → Option β) (fill : β → δ → δ) : Prop where
  own : place draft = none → f draft key d = (decode d).map fun b => fill b draft
  taken : place draft = some a → f draft key d ≠ .ok e
  place_fill : place (fill b draft) = some b
  fill_fill : fill b (fill a draft) = fill b draft
  other : Allowed name → name ≠ key → f draft name d = .ok e →
    place e = place draft ∧ ∀ b, f (fill b draft) name d = .ok (fill b e)

namespace Slot

variable {Allowed : String → Prop} {key : String} {decode : Document → Result β}
  {place : δ → Option β} {fill : β → δ → δ} {fields : Fields Json} {draft e : δ}

theorem absent (h : Slot f Allowed key decode place fill) (ha : ∀ p ∈ fields, Allowed p.1)
    (hg : Fields.get? fields key = none) (hd : decodeFields f draft fields = .ok e) :
    place e = place draft := by
  induction fields generalizing draft with
  | nil => cases hd; rfl
  | cons p rest ih =>
    obtain ⟨hp, hr⟩ := List.forall_mem_cons.mp ha
    obtain ⟨e₁, h₁, hd⟩ := bind_ok.mp hd
    by_cases hk : p.1 = key
    · simp [Fields.get?, hk] at hg
    · exact (ih hr (by simpa [Fields.get?, hk] using hg) hd).trans (h.other hp hk h₁).1

theorem absent_fill (h : Slot f Allowed key decode place fill) (ha : ∀ p ∈ fields, Allowed p.1)
    (hg : Fields.get? fields key = none) (hd : decodeFields f draft fields = .ok e) (b : β) :
    decodeFields f (fill b draft) fields = .ok (fill b e) := by
  induction fields generalizing draft with
  | nil => cases hd; rfl
  | cons p rest ih =>
    obtain ⟨hp, hr⟩ := List.forall_mem_cons.mp ha
    obtain ⟨e₁, h₁, hd⟩ := bind_ok.mp hd
    by_cases hk : p.1 = key
    · simp [Fields.get?, hk] at hg
    · refine bind_ok.mpr ⟨fill b e₁, (h.other hp hk h₁).2 b, ?_⟩
      exact ih hr (by simpa [Fields.get?, hk] using hg) hd

/-- A field that is there fills its place, which was empty. -/
theorem present (h : Slot f Allowed key decode place fill) (ha : ∀ p ∈ fields, Allowed p.1)
    (hg : Fields.get? fields key = some v) (hd : decodeFields f draft fields = .ok e) :
    place draft = none ∧ ∃ b, decode v.document = .ok b ∧ place e = some b := by
  induction fields generalizing draft v with
  | nil => cases hg
  | cons p rest ih =>
    obtain ⟨hp, hr⟩ := List.forall_mem_cons.mp ha
    obtain ⟨e₁, h₁, hd⟩ := bind_ok.mp hd
    by_cases hk : p.1 = key
    · obtain rfl : p.2 = v := by simpa [Fields.get?, hk] using hg
      replace h₁ : f draft key p.2.document = .ok e₁ := hk ▸ h₁
      cases hpl : place draft with
      | some a => exact absurd h₁ (h.taken hpl)
      | none =>
        rw [h.own hpl] at h₁
        obtain ⟨b, hb, rfl⟩ := map_ok.mp h₁
        refine ⟨rfl, b, hb, ?_⟩
        cases hgr : Fields.get? rest key with
        | none => rw [h.absent hr hgr hd, h.place_fill]
        | some w => cases h.place_fill.symm.trans (ih hr hgr hd).1
    · obtain ⟨hpl, hb⟩ := ih hr (by simpa [Fields.get?, hk] using hg) hd
      exact ⟨(h.other hp hk h₁).1.symm.trans hpl, hb⟩

/-- A field that is put into a record is the one that counts. -/
theorem put (h : Slot f Allowed key decode place fill) (ha : ∀ p ∈ fields, Allowed p.1)
    (hpl : place draft = none) (hd : decodeFields f draft fields = .ok e) {v : Json}
    (hb : decode v.document = .ok b) :
    decodeFields f draft (Fields.put fields key v) = .ok (fill b e) := by
  have hown (d : δ) (hd : place d = none) : f d key v.document = .ok (fill b d) := by
    rw [h.own hd, hb]
    rfl
  induction fields generalizing draft with
  | nil =>
    cases hd
    exact bind_ok.mpr ⟨_, hown _ hpl, rfl⟩
  | cons p rest ih =>
    obtain ⟨hp, hr⟩ := List.forall_mem_cons.mp ha
    obtain ⟨e₁, h₁, hd⟩ := bind_ok.mp hd
    by_cases hk : p.1 = key
    · replace h₁ : f draft key p.2.document = .ok e₁ := hk ▸ h₁
      rw [h.own hpl] at h₁
      obtain ⟨a, -, rfl⟩ := map_ok.mp h₁
      have hg : Fields.get? rest key = none := by
        cases hg : Fields.get? rest key with
        | none => rfl
        | some w => cases h.place_fill.symm.trans (h.present hr hg hd).1
      have hput : Fields.put (p :: rest) key v = (key, v) :: rest := by simp [Fields.put, hk]
      rw [hput]
      refine bind_ok.mpr ⟨fill b draft, hown draft hpl, ?_⟩
      exact h.fill_fill ▸ h.absent_fill hr hg hd b
    · have hput : Fields.put (p :: rest) key v = p :: Fields.put rest key v := by
        simp [Fields.put, hk]
      rw [hput]
      exact bind_ok.mpr ⟨e₁, h₁, ih hr ((h.other hp hk h₁).1.trans hpl) hd⟩

end Slot

end

-- ---------------------------------------------------------------------------
-- Props and data source of a component
-- ---------------------------------------------------------------------------

section
variable {origin : Origin}

theorem slot_props : Slot (componentField origin) (fun _ => True) "props" (map setting)
    ComponentDraft.props fun b draft => { draft with props := some b } where
  own := by
    intro draft d hp
    simp only [componentField, once, hp]
    cases map setting d <;> rfl
  taken := by
    intro draft a d e hp
    simp only [componentField, once, hp]
    intro he
    cases he
  place_fill := rfl
  fill_fill := rfl
  other := by
    intro name draft d e _ hn he
    unfold componentField at he ⊢
    split at he
    case h_3 => exact absurd rfl hn
    all_goals
      obtain ⟨v, hv, he⟩ := bind_ok.mp he
      cases he
      exact ⟨rfl, fun b => bind_ok.mpr ⟨v, hv, rfl⟩⟩

theorem slot_feed : Slot (componentField origin) (· ≠ "dataSpec") "dataSource"
    (optional (feed origin)) ComponentDraft.feed fun b draft => { draft with feed := some b } where
  own := by
    intro draft d hp
    simp only [componentField, once, hp]
    cases optional (feed origin) d <;> rfl
  taken := by
    intro draft a d e hp
    simp only [componentField, once, hp]
    intro he
    cases he
  place_fill := rfl
  fill_fill := rfl
  other := by
    intro name draft d e ha hn he
    unfold componentField at he ⊢
    split at he
    case h_5 => exact absurd rfl hn
    case h_6 => exact absurd rfl ha
    all_goals
      obtain ⟨v, hv, he⟩ := bind_ok.mp he
      cases he
      exact ⟨rfl, fun b => bind_ok.mpr ⟨v, hv, rfl⟩⟩

end

-- ---------------------------------------------------------------------------
-- What is decoded
-- ---------------------------------------------------------------------------

def ComponentDraft.component (draft : ComponentDraft) (name : String) : Component :=
  ⟨name, draft.id.join, draft.props.getD [], draft.events.getD [], draft.feed.join,
    draft.cascade.join, draft.style.getD [], draft.classes.getD []⟩

def ComponentDraft.empty : ComponentDraft := ⟨none, none, none, none, none, none, none, none⟩

theorem componentOfFields_ok {origin : Origin} {fields : Fields Json} :
    componentOfFields origin (fieldDocuments fields) none = .ok c ↔
      ∃ draft name, decodeFields (componentField origin) .empty fields = .ok draft ∧
        draft.name = some name ∧ draft.component name = c := by
  simp only [componentOfFields, bind_ok]
  constructor
  · rintro ⟨draft, hd, _, -, name, hn, hc⟩
    refine ⟨draft, name, hd, ?_, by injection hc⟩
    cases hdn : draft.name with
    | none => simp [need, hdn, fail] at hn
    | some other => simpa [need, hdn] using hn
  · rintro ⟨draft, name, hd, hn, rfl⟩
    exact ⟨draft, hd, (), rfl, name, by simp [need, hn], rfl⟩

theorem setting_document {v : Json} (h : v.distinct = true) :
    setting v.document = .ok (.ofJson v) := by
  simp [setting, json, Json.value_document v h, Except.map]

theorem entries_settings {fields : Fields Json} (h : Json.distinctFields fields = true) :
    entries setting (fieldDocuments fields) = .ok (Fields.mapValues Setting.ofJson fields) := by
  induction fields with
  | nil => rfl
  | cons p rest ih =>
    obtain ⟨hv, hr⟩ := Bool.and_eq_true_iff.mp h
    simp only [fieldDocuments, entries, setting_document hv, ih hr]
    rfl

/-- Props are read as they are written. -/
theorem settings_document {fields : Fields Json} (h : (Json.object fields).distinct = true) :
    map setting (Json.object fields).document = .ok (Fields.mapValues Setting.ofJson fields) := by
  obtain ⟨hn, hf⟩ := Json.distinct_object.mp h
  have hm : (Fields.names (Fields.mapValues Setting.ofJson fields)).Nodup := by
    simpa [Fields.names, Fields.mapValues, Function.comp_def] using hn
  simp only [Json.document, map, entries_settings hf]
  show Except.ok (Fields.ofPairs _) = _
  rw [Fields.ofPairs_of_nodup hm]

theorem mapValues_settings (fields : Fields Json) :
    Fields.mapValues Setting.toJson (Fields.mapValues Setting.ofJson fields) = fields := by
  simp [Fields.mapValues, Function.comp_def, Setting.toJson_ofJson]

-- ---------------------------------------------------------------------------
-- Data sources
-- ---------------------------------------------------------------------------

theorem feed_origin {origin : Origin} (h : origin ≠ .text) (d : Document) :
    feed origin d = feed .value d := by
  simp only [feed, byShape, hold_of_ne_text h]
  rfl

theorem items_json {items : List Json} (h : Json.distinctItems items = true) :
    Decoding.items json (itemDocuments items) = .ok items := by
  induction items with
  | nil => rfl
  | cons v rest ih =>
    obtain ⟨hv, hr⟩ := Bool.and_eq_true_iff.mp h
    simp only [itemDocuments, Decoding.items, json, Json.value_document v hv, ih hr]
    rfl

theorem feed_array {items : List Json} (h : Json.distinctItems items = true) :
    feed .value (Json.array items).document = .ok (.inline items) := by
  have hl : list json (Json.array items).document = .ok items := by
    simp only [Json.document, list, items_json h]
    rfl
  simp only [feed, byShape, List.findSome?_cons, hl]
  rfl

theorem feed_object (fields : Fields Json) :
    feed .value (Json.object fields).document =
      match remote .lent (Json.object fields).document with
      | .ok r => .ok (.remote r)
      | .error _ => fail (.noVariant "DataSpec") := by
  have hl : list json (Json.object fields).document = fail (.invalidType .map "a sequence") := rfl
  simp only [feed, byShape, List.findSome?_cons, hl]
  cases remote .lent (Json.object fields).document <;> rfl

/-- A value is a data source just if it is decoded as one. -/
theorem isFeed_iff {v : Json} (h : v.distinct = true) :
    isFeed v = true ↔ ∃ f, feed .value v.document = .ok f := by
  cases v with
  | array items => simp [isFeed, feed_array h]
  | object fields =>
    rw [feed_object, isFeed]
    cases remote .lent (Json.object fields).document <;> simp [Except.toOption, fail]
  | _ => exact ⟨fun hf => (nomatch hf), fun ⟨f, hf⟩ => (nomatch hf)⟩

-- ---------------------------------------------------------------------------
-- Components
-- ---------------------------------------------------------------------------

/-- The props that are written. -/
def authoredProps (fields : Fields Json) : Fields Json :=
  match Fields.get? fields "props" with
  | some (.object props) => props
  | _ => []

/-- The props that a widget is made with: those written, without a data source
that is moved. -/
def handedProps (fields : Fields Json) : Fields Json :=
  if (liftable? (fullFields fields)).isSome then Fields.erase (authoredProps fields) "dataSource"
  else authoredProps fields

theorem fullFields_allowed (fields : Fields Json) : ∀ p ∈ fullFields fields, p.1 ≠ "dataSpec" := by
  intro p hp
  obtain ⟨q, -, rfl⟩ := List.mem_map.mp hp
  simp only [mainName, componentAliases, Fields.get?]
  split
  · simp
  · next hn => exact fun he => hn he.symm

theorem get?_fullFields_props (fields : Fields Json) :
    Fields.get? (fullFields fields) "props" = Fields.get? fields "props" := by
  rw [← Fields.get?_filter_self, filter_fullFields (by decide) (fun _ => rfl), Fields.get?_filter_self]

section
variable {origin : Origin} {fields : Fields Json}

/-- The props of a component are those that are written. -/
theorem props_of_fields (hd : ∀ p ∈ fields, p.2.distinct = true)
    (hf : decodeFields (componentField origin) .empty fields = .ok draft) :
    draft.props.getD [] = Fields.mapValues Setting.ofJson (authoredProps fields) := by
  unfold authoredProps
  cases hg : Fields.get? fields "props" with
  | none =>
    have hp := slot_props.absent (fun _ _ => trivial) hg hf
    simp [hp, ComponentDraft.empty, Fields.mapValues]
  | some v =>
    obtain ⟨-, b, hb, hp⟩ := slot_props.present (fun _ _ => trivial) hg hf
    cases v with
    | object props =>
      rw [settings_document (hd _ (Fields.mem_of_get? hg))] at hb
      cases hb
      simp [hp]
    | _ => cases hb

/-- A component has a data source unless there is none or null for it. -/
theorem feed_of_fields (ha : ∀ p ∈ fields, p.1 ≠ "dataSpec")
    (hf : decodeFields (componentField origin) .empty fields = .ok draft) :
    draft.feed.join = none ↔ (Fields.get? fields "dataSource").getD .null = .null := by
  cases hg : Fields.get? fields "dataSource" with
  | none =>
    have hp := slot_feed.absent ha hg hf
    simp [hp, ComponentDraft.empty]
  | some v =>
    obtain ⟨-, b, hb, hp⟩ := slot_feed.present ha hg hf
    rw [optional_document] at hb
    cases v with
    | null =>
      cases hb
      simp [hp]
    | _ =>
      obtain ⟨f, -, rfl⟩ := map_ok.mp hb
      simp [hp]

theorem liftable?_eq_some : liftable? fields = some (props, v) ↔
    (Fields.get? fields "dataSource").getD .null = .null ∧
      Fields.get? fields "props" = some (.object props) ∧
      Fields.get? props "dataSource" = some v ∧ isFeed v = true := by
  unfold liftable?
  constructor
  · intro h
    split at h
    · next props' hn hp =>
      split at h
      · next v' hv =>
        split at h
        · next hf =>
          cases h
          exact ⟨hn, hp, hv, hf⟩
        · cases h
      · cases h
    · cases h
  · rintro ⟨hn, hp, hv, hf⟩
    simp only [hn, hp, hv, hf, if_true]

theorem decodeFields_full (h : origin ≠ .text) (draft : ComponentDraft) (fields : Fields Json) :
    decodeFields (componentField origin) draft (fullFields fields) =
      decodeFields (componentField origin) draft fields :=
  foldlM_alike (componentField_full h) fields draft

/-- The data source that moves is decoded where it belongs. -/
theorem feed_moved (h : origin ≠ .text) {v : Json} (hv : isFeed v = true)
    (hf : feed .value v.document = .ok f) :
    optional (feed origin) (renamed remoteAliases v).document = .ok (some f) := by
  have hn : (renamed remoteAliases v).isNull = false := by
    cases v with
    | array | object => rfl
    | _ => cases hv
  rw [optional_document, feed_renamed h, feed_origin h, hf, hn]
  rfl

/-- A component is decoded with the moved data source in its place. -/
theorem component_moved (h : origin ≠ .text) (hd : (Json.object fields).distinct = true)
    (hl : liftable? (fullFields fields) = some (props, v))
    (hf : decodeFields (componentField origin) .empty fields = .ok draft)
    (hfe : feed .value v.document = .ok f) :
    decodeFields (componentField origin) .empty (canonicalComponent fields) = .ok
      { draft with
        props := some (Fields.mapValues Setting.ofJson (Fields.erase props "dataSource"))
        feed := some (some f) } := by
  obtain ⟨-, hp, -, hv⟩ := liftable?_eq_some.mp hl
  rw [get?_fullFields_props] at hp
  have hprops := settings_document (Json.distinct_erase (Json.distinct_of_get? hd hp) "dataSource")
  have h₁ := slot_props.put (fun _ _ => trivial) rfl ((decodeFields_full h _ _).trans hf) hprops
  have ha : ∀ p ∈ Fields.put (fullFields fields) "props" (.object (Fields.erase props "dataSource")),
      p.1 ≠ "dataSpec" := by
    intro p hp
    rcases Fields.mem_put hp with hp | rfl
    · exact fullFields_allowed fields p hp
    · simp
  have h₂ := slot_feed.put ha rfl h₁ (feed_moved h hv hfe)
  simpa only [canonicalComponent, hl] using h₂

theorem liftFeed_of_feed {c : Component} (hf : c.feed = some f) : c.liftFeed = (c, []) := by
  simp [Component.liftFeed, hf]

theorem liftFeed_moves {c : Component} (hn : c.feed = none)
    (hs : Fields.get? c.props "dataSource" = some s) (hf : feed .value s.toJson.document = .ok f) :
    c.liftFeed = ({ c with props := Fields.erase c.props "dataSource", feed := some f }, []) := by
  simp [Component.liftFeed, hn, hs, hf]

/-- A component keeps its props unless a data source among them is to move. -/
theorem liftFeed_keeps {c : Component}
    (h : ∀ s f, c.feed = none → Fields.get? c.props "dataSource" = some s →
      feed .value s.toJson.document ≠ .ok f) : c.liftFeed.1 = c := by
  unfold Component.liftFeed
  split
  · next s hn hs =>
    split
    · next f hf => exact absurd hf (h s f hn hs)
    · rfl
    · rfl
  · rfl

/-- A prop that is moved is one that can be. -/
theorem liftable?_of_feed (hd : (Json.object fields).distinct = true)
    (hn : (Fields.get? (fullFields fields) "dataSource").getD .null = .null)
    (hs : Fields.get? (Fields.mapValues Setting.ofJson (authoredProps fields)) "dataSource" = some s)
    (hf : feed .value s.toJson.document = .ok f) :
    ∃ v, liftable? (fullFields fields) = some (authoredProps fields, v) := by
  rw [Fields.get?_mapValues] at hs
  obtain ⟨v, hv, rfl⟩ := Option.map_eq_some_iff.mp hs
  rw [Setting.toJson_ofJson] at hf
  have hp : Fields.get? fields "props" = some (.object (authoredProps fields)) := by
    unfold authoredProps at hv ⊢
    split at hv
    · next props hp => exact hp
    · cases hv
  have hvd := Json.distinct_of_get? (Json.distinct_of_get? hd hp) hv
  exact ⟨v, liftable?_eq_some.mpr ⟨hn, (get?_fullFields_props fields).trans hp, hv,
    (isFeed_iff hvd).mpr ⟨f, hf⟩⟩⟩

/-- Writing a component in full is of no consequence, and it hands on the props
that are written, without a data source that moves. -/
theorem component_canonical (h : origin ≠ .text) (hd : (Json.object fields).distinct = true)
    (hc : componentOfFields origin (fieldDocuments fields) none = .ok c) :
    ∃ c', componentOfFields origin (fieldDocuments (canonicalComponent fields)) none = .ok c' ∧
      c'.liftFeed = c.liftFeed ∧ c.liftFeed.1.propsJson = handedProps fields := by
  obtain ⟨draft, name, hf, hn, rfl⟩ := componentOfFields_ok.mp hc
  have hprops : (draft.component name).props = Fields.mapValues Setting.ofJson (authoredProps fields) :=
    props_of_fields (Json.distinctFields_iff.mp (Json.distinct_object.mp hd).2) hf
  have hnone : (draft.component name).feed = none ↔ _ :=
    feed_of_fields (fullFields_allowed fields) ((decodeFields_full h _ _).trans hf)
  unfold handedProps
  cases hl : liftable? (fullFields fields) with
  | none =>
    have hkeep : (draft.component name).liftFeed.1 = draft.component name := by
      refine liftFeed_keeps fun s f hfeed hs hok => ?_
      rw [hprops] at hs
      obtain ⟨v, hv⟩ := liftable?_of_feed hd (hnone.mp hfeed) hs hok
      cases hl.symm.trans hv
    refine ⟨_, ?_, rfl, ?_⟩
    · simp only [canonicalComponent, hl, componentOfFields_full h]
      exact hc
    · rw [hkeep]
      simp only [Component.propsJson, hprops, mapValues_settings, Option.isSome_none]
      rfl
  | some found =>
    obtain ⟨props, v⟩ := found
    obtain ⟨hsource, hp, hv, hfv⟩ := liftable?_eq_some.mp hl
    rw [get?_fullFields_props] at hp
    have ha : authoredProps fields = props := by simp [authoredProps, hp]
    obtain ⟨f, hfe⟩ := (isFeed_iff (Json.distinct_of_get? (Json.distinct_of_get? hd hp) hv)).mp hfv
    have hs : Fields.get? (draft.component name).props "dataSource" = some (.ofJson v) := by
      rw [hprops, ha, Fields.get?_mapValues, hv]
      rfl
    have hmoves := liftFeed_moves (hnone.mpr hsource) hs ((Setting.toJson_ofJson v).symm ▸ hfe)
    refine ⟨_, componentOfFields_ok.mpr ⟨_, name, component_moved h hd hl hf hfe, hn, rfl⟩, ?_, ?_⟩
    · rw [liftFeed_of_feed rfl, hmoves]
      simp only [hprops, ha, ← Fields.mapValues_erase]
      rfl
    · rw [hmoves, ha]
      simp only [Component.propsJson, hprops, ha, Fields.mapValues_erase, mapValues_settings,
        Option.isSome_some, if_true]

end

end LiveLayout.Layout
