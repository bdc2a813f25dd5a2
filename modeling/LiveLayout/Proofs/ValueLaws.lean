import LiveLayout.Decoding.Basic
import LiveLayout.Setting

/-!
# Values and their documents

A value in which the fields of every object have names of their own is told by
its document, and by the setting that it is. Decoding such a document as it is
gives the value back.
-/

namespace LiveLayout

open Json (Document itemDocuments fieldDocuments itemValues fieldValues)

namespace Json

mutual
/-- No object has two fields of one name. -/
def distinct : Json → Bool
  | .array items => distinctItems items
  | .object fields => decide (Fields.names fields).Nodup && distinctFields fields
  | _ => true
def distinctItems : List Json → Bool
  | [] => true
  | v :: rest => v.distinct && distinctItems rest
def distinctFields : List (String × Json) → Bool
  | [] => true
  | (_, v) :: rest => v.distinct && distinctFields rest
end

theorem distinct_object {fields : Fields Json} :
    (Json.object fields).distinct = true ↔
      (Fields.names fields).Nodup ∧ distinctFields fields = true := by
  simp [distinct]

theorem distinctFields_iff {fields : Fields Json} :
    distinctFields fields = true ↔ ∀ p ∈ fields, p.2.distinct = true := by
  induction fields with
  | nil => simp [distinctFields]
  | cons p rest ih => simp [distinctFields, ih]

theorem distinct_of_get? {fields : Fields Json} (h : (Json.object fields).distinct = true)
    (hg : Fields.get? fields name = some v) : v.distinct = true :=
  distinctFields_iff.mp (distinct_object.mp h).2 _ (Fields.mem_of_get? hg)

theorem distinct_erase {fields : Fields Json} (h : (Json.object fields).distinct = true)
    (name : String) : (Json.object (Fields.erase fields name)).distinct = true := by
  obtain ⟨hn, hf⟩ := distinct_object.mp h
  refine distinct_object.mpr ⟨hn.sublist (List.filter_sublist.map _), ?_⟩
  exact distinctFields_iff.mpr fun p hp => distinctFields_iff.mp hf p (List.mem_filter.mp hp).1

-- ---------------------------------------------------------------------------
-- Reading documents back
-- ---------------------------------------------------------------------------

mutual
theorem value_document (v : Json) (h : v.distinct = true) : v.document.value = .ok v := by
  cases v with
  | array items =>
    simp only [document, Document.value, itemValues_documents items h, stopped]
    rfl
  | object fields =>
    obtain ⟨hn, hf⟩ := distinct_object.mp h
    simp only [document, Document.value, fieldValues_documents fields hf, stopped]
    show Except.ok (object (Fields.ofPairs fields)) = _
    rw [Fields.ofPairs_of_nodup hn]
  | _ => rfl
theorem itemValues_documents (items : List Json) (h : distinctItems items = true) :
    itemValues (itemDocuments items) = .ok items := by
  cases items with
  | nil => rfl
  | cons v rest =>
    obtain ⟨hv, hr⟩ := Bool.and_eq_true_iff.mp h
    simp only [itemDocuments, itemValues, value_document v hv, itemValues_documents rest hr]
    rfl
theorem fieldValues_documents (fields : List (String × Json)) (h : distinctFields fields = true) :
    fieldValues (fieldDocuments fields) = .ok fields := by
  cases fields with
  | nil => rfl
  | cons p rest =>
    obtain ⟨hv, hr⟩ := Bool.and_eq_true_iff.mp h
    simp only [fieldDocuments, fieldValues, value_document p.2 hv, fieldValues_documents rest hr]
    rfl
end

end Json

namespace Setting

mutual
theorem toJson_ofJson (v : Json) : (ofJson v).toJson = v := by
  cases v with
  | string s => exact toJson_ofString s
  | array items => simp [ofJson, toJson, itemsJson_ofItems items]
  | object fields => simp [ofJson, toJson, entriesJson_ofFields fields]
  | _ => rfl
theorem itemsJson_ofItems (items : List Json) : itemsJson (ofItems items) = items := by
  cases items with
  | nil => rfl
  | cons v rest => simp [ofItems, itemsJson, toJson_ofJson v, itemsJson_ofItems rest]
theorem entriesJson_ofFields (fields : List (String × Json)) :
    entriesJson (ofFields fields) = fields := by
  cases fields with
  | nil => rfl
  | cons p rest => simp [ofFields, entriesJson, toJson_ofJson p.2, entriesJson_ofFields rest]
end

end Setting

end LiveLayout
