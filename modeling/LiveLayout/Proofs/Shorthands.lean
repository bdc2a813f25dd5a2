import LiveLayout.Layout.Read

/-!
# Shorthands

A layout can be written shorter than in full: fields have other names, a
handler's name stands for a binding, a string for a list of classes, and the
data source of a component may stand among its props. `canonical` writes a
layout in full.
-/

namespace LiveLayout.Layout

open Json (Document fieldDocuments itemDocuments)
open Decoding

-- ---------------------------------------------------------------------------
-- In full
-- ---------------------------------------------------------------------------

def componentAliases : Fields String := [("dataSpec", "dataSource")]

def remoteAliases : Fields String :=
  [("api", "endpoint"), ("url", "endpoint"), ("params", "queryParameters")]

def cascadeAliases : Fields String :=
  [("parentId", "parentComponent"), ("parentEventName", "parentEvent")]

def mainName (aliases : Fields String) (name : String) : String :=
  (Fields.get? aliases name).getD name

/-- A record with all fields under their main names. -/
def renamed (aliases : Fields String) : Json → Json
  | .object fields => .object (fields.map fun p => (mainName aliases p.1, p.2))
  | v => v

def fullBindingJson : Json → Json
  | .string handler => .object [("handler", .string handler)]
  | v => v

def fullEvents : Json → Json
  | .object events => .object (Fields.mapValues fullBindingJson events)
  | v => v

def listedClasses : Json → Json
  | .string text => .array ((Text.words text).map .string)
  | v => v

/-- A field of a component in full, by its main name. -/
def fullField (name : String) (v : Json) : Json :=
  if name = "dataSource" then renamed remoteAliases v
  else if name = "cascade" then renamed cascadeAliases v
  else if name = "events" then fullEvents v
  else if name = "class" then listedClasses v
  else v

def fullFields (fields : Fields Json) : Fields Json :=
  fields.map fun p =>
    (mainName componentAliases p.1, fullField (mainName componentAliases p.1) p.2)

/-- A data source: any list, or an object that says what is asked of a server. -/
def isFeed : Json → Bool
  | .array _ => true
  | .object fields => (remote .lent (Json.object fields).document).toOption.isSome
  | _ => false

/-- The props of a component, with the data source among them that is to move:
there is one, and the component has none of its own or null for it. -/
def liftable? (fields : Fields Json) : Option (Fields Json × Json) :=
  match (Fields.get? fields "dataSource").getD .null, Fields.get? fields "props" with
  | .null, some (.object props) =>
    match Fields.get? props "dataSource" with
    | some v => if isFeed v then some (props, v) else none
    | none => none
  | _, _ => none

def canonicalComponent (fields : Fields Json) : Fields Json :=
  let fields := fullFields fields
  match liftable? fields with
  | some (props, v) =>
    Fields.put (Fields.put fields "props" (.object (Fields.erase props "dataSource")))
      "dataSource" (renamed remoteAliases v)
  | none => fields

def kind? (fields : Fields Json) : Option Tag :=
  (Fields.get? fields "type").bind fun v => (tag .held v.document).toOption

mutual
/-- A layout in full. Nodes are written as objects. -/
def canonical : Json → Json
  | .object fields =>
    match kind? fields with
    | some .container => .object (canonicalFrame fields)
    | some .component => .object (canonicalComponent fields)
    | none => .object fields
  | v => v
def canonicalFrame : List (String × Json) → List (String × Json)
  | [] => []
  | (name, v) :: rest =>
    let v := if name = "children" then canonicalChildren v
      else if name = "class" then listedClasses v
      else v
    (name, v) :: canonicalFrame rest
def canonicalChildren : Json → Json
  | .array items => .array (canonicalItems items)
  | v => v
def canonicalItems : List Json → List Json
  | [] => []
  | v :: rest => canonical v :: canonicalItems rest
end

-- ---------------------------------------------------------------------------
-- Fields under other names
-- ---------------------------------------------------------------------------

/-- Whatever does the same for an alias and for its main name does not tell
them apart. -/
theorem apply_mainName {f : String → β} (h : ∀ p ∈ aliases, f p.2 = f p.1) (name : String) :
    f (mainName aliases name) = f name := by
  unfold mainName
  cases hg : Fields.get? aliases name with
  | none => rfl
  | some main => exact h (name, main) (Fields.mem_of_get? hg)

/-- A name that has nothing to do with aliases is the main name of itself only. -/
theorem mainName_eq_iff (h : ∀ p ∈ aliases, p.1 ≠ key ∧ p.2 ≠ key) {name : String} :
    mainName aliases name = key ↔ name = key := by
  unfold mainName
  cases hg : Fields.get? aliases name with
  | none => rfl
  | some main =>
    obtain ⟨hname, hmain⟩ := h (name, main) (Fields.mem_of_get? hg)
    simp only [Option.getD_some, hname, hmain]

/-- A field that has one name and one form only is in full as it is. -/
theorem filter_fullFields (hk : ∀ p ∈ componentAliases, p.1 ≠ key ∧ p.2 ≠ key)
    (hv : ∀ v, fullField key v = v) (fields : Fields Json) :
    (fullFields fields).filter (·.1 = key) = fields.filter (·.1 = key) := by
  induction fields with
  | nil => rfl
  | cons p rest ih =>
    obtain ⟨name, v⟩ := p
    have hr : fullFields ((name, v) :: rest) = (mainName componentAliases name,
        fullField (mainName componentAliases name) v) :: fullFields rest := rfl
    by_cases hn : name = key
    · subst hn
      rw [hr, (mainName_eq_iff hk).mpr rfl, hv]
      simp only [List.filter_cons, decide_true, if_true, ih]
    · simp only [hr, List.filter_cons, mainName_eq_iff hk, hn, decide_false, Bool.false_eq_true,
        if_false, ih]

/-- Records are decoded alike if all their fields are. -/
theorem foldlM_alike {f : δ → String → Document → Result δ} {g : String × Json → String × Json}
    (h : ∀ draft p, f draft (g p).1 (g p).2.document = f draft p.1 p.2.document)
    (fields : Fields Json) (draft : δ) :
    (fieldDocuments (fields.map g)).foldlM (fun draft p => f draft p.1 p.2) draft =
      (fieldDocuments fields).foldlM (fun draft p => f draft p.1 p.2) draft := by
  induction fields generalizing draft with
  | nil => rfl
  | cons p rest ih =>
    simp only [List.map_cons, fieldDocuments, List.foldlM_cons, h, ih]

theorem remoteField_mainName (origin : Origin) (draft : RemoteDraft) (name : String)
    (d : Document) :
    remoteField origin draft (mainName remoteAliases name) d = remoteField origin draft name d :=
  apply_mainName (f := fun name => remoteField origin draft name d) (by simp [remoteAliases, remoteField]) name

theorem cascadeField_mainName (draft : CascadeDraft) (name : String) (d : Document) :
    cascadeField draft (mainName cascadeAliases name) d = cascadeField draft name d :=
  apply_mainName (f := fun name => cascadeField draft name d) (by simp [cascadeAliases, cascadeField]) name

theorem componentField_mainName (origin : Origin) (draft : ComponentDraft) (name : String)
    (d : Document) :
    componentField origin draft (mainName componentAliases name) d =
      componentField origin draft name d :=
  apply_mainName (f := fun name => componentField origin draft name d)
    (by simp [componentAliases, componentField]) name

theorem remote_renamed (origin : Origin) (v : Json) :
    remote origin (renamed remoteAliases v).document = remote origin v.document := by
  cases v with
  | object fields =>
    simp only [renamed, Json.document, remote]
    rw [foldlM_alike fun draft p => remoteField_mainName origin draft p.1 p.2.document]
  | _ => rfl

theorem cascade_renamed (origin : Origin) (v : Json) :
    cascade origin (renamed cascadeAliases v).document = cascade origin v.document := by
  cases v with
  | object fields =>
    simp only [renamed, Json.document, cascade]
    rw [foldlM_alike fun draft p => cascadeField_mainName draft p.1 p.2.document]
  | _ => rfl

/-- Only in a text can a part that is read as a whole break off. -/
theorem hold_of_ne_text {origin : Origin} (h : origin ≠ .text) (d : Document) : hold origin d = .ok () := by
  cases origin with
  | text => exact absurd rfl h
  | _ => rfl

section
variable {origin : Origin}

theorem feed_renamed (h : origin ≠ .text) (v : Json) :
    feed origin (renamed remoteAliases v).document = feed origin v.document := by
  have hl : list json (renamed remoteAliases v).document = list json v.document := by
    cases v <;> rfl
  simp only [feed, byShape, hold_of_ne_text h, List.findSome?_cons, List.findSome?_nil, hl,
    remote_renamed]

theorem binding_full (h : origin ≠ .text) (v : Json) :
    binding origin (fullBindingJson v).document = binding origin v.document := by
  cases v with
  | string handler => 
    simp only [binding, byShape, hold_of_ne_text h]
    rfl
  | _ => rfl

theorem entries_bindings (h : origin ≠ .text) (events : Fields Json) :
    entries (binding origin) (fieldDocuments (Fields.mapValues fullBindingJson events)) =
      entries (binding origin) (fieldDocuments events) := by
  induction events with
  | nil => rfl
  | cons p rest ih =>
    have hr : Fields.mapValues fullBindingJson (p :: rest) = (p.1, fullBindingJson p.2) :: Fields.mapValues fullBindingJson rest := rfl
    simp only [hr, fieldDocuments, entries, binding_full h, ih]

theorem events_full (h : origin ≠ .text) (v : Json) :
    map (binding origin) (fullEvents v).document = map (binding origin) v.document := by
  cases v with
  | object events => simp only [fullEvents, Json.document, map, entries_bindings h]
  | _ => rfl

theorem items_strings (texts : List String) :
    items string (itemDocuments (texts.map .string)) = .ok texts := by
  induction texts with
  | nil => rfl
  | cons text rest ih =>
    simp only [List.map_cons, itemDocuments, Json.document, items, ih]
    rfl

theorem classes_listed (h : origin ≠ .text) (v : Json) :
    classes origin (listedClasses v).document = classes origin v.document := by
  cases v with
  | string text =>
    have hl : list string (listedClasses (.string text)).document = .ok (Text.words text) := by
      simp only [listedClasses, Json.document, list, items_strings]
      rfl
    simp only [classes, byShape, hold_of_ne_text h, List.findSome?_cons, hl]
    rfl
  | _ => rfl

theorem optional_document (decode : Document → Result α) (v : Json) :
    optional decode v.document =
      if v.isNull = true then .ok none else (decode v.document).map some := by
  cases v <;> rfl

theorem optional_renamed {decode : Document → Result α} {v : Json}
    (h : decode (renamed aliases v).document = decode v.document) :
    optional decode (renamed aliases v).document = optional decode v.document := by
  have hn : (renamed aliases v).isNull = v.isNull := by cases v <;> rfl
  rw [optional_document, optional_document, hn, h]

theorem once_alike {decode : Document → Result α} {d d' : Document} (h : decode d' = decode d)
    (name : String) (place : Option α) : once name place decode d' = once name place decode d := by
  cases place with
  | none => simp only [once, h]
  | some _ => rfl

/-- A component's field means what it means in full. -/
theorem componentField_full (h : origin ≠ .text) (draft : ComponentDraft) (p : String × Json) :
    componentField origin draft (mainName componentAliases p.1)
        (fullField (mainName componentAliases p.1) p.2).document =
      componentField origin draft p.1 p.2.document := by
  rw [← componentField_mainName origin draft p.1 p.2.document]
  generalize mainName componentAliases p.1 = name
  unfold fullField
  split
  · next hn =>
    subst hn
    simp only [componentField, once_alike (optional_renamed (feed_renamed h p.2))]
  split
  · next hn =>
    subst hn
    simp only [componentField, once_alike (optional_renamed (cascade_renamed origin p.2))]
  split
  · next hn =>
    subst hn
    simp only [componentField, once_alike (events_full h p.2)]
  split
  · next hn =>
    subst hn
    simp only [componentField, once_alike (classes_listed h p.2)]
  · rfl

theorem componentOfFields_full (h : origin ≠ .text) (fields : Fields Json) :
    componentOfFields origin (fieldDocuments (fullFields fields)) none =
      componentOfFields origin (fieldDocuments fields) none := by
  simp only [componentOfFields, fullFields]
  rw [foldlM_alike (componentField_full h)]

end

end LiveLayout.Layout
