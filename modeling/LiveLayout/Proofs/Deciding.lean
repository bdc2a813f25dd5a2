import LiveLayout.Proofs.Course
import LiveLayout.Proofs.Readability

/-!
# What children decide

Each child that follows an event of its parent decides by the record that the
payload is about. A key in it is fetched for; a key that is null, or a list of
no records, is no key, and only where the record does not tell is the selection
of the parent read, once. What it gives is looked at in the same way, but there
whatever is not a key is none.
-/

namespace LiveLayout.Live

open Layout (Component Cascade)

-- ---------------------------------------------------------------------------
-- Records
-- ---------------------------------------------------------------------------

/-- A list is about its first element, anything else about itself. -/
inductive About : Json → Json → Prop
  | itself (h : ∀ items, payload ≠ .array items) : About payload payload
  | first : About (.array (record :: more)) record

/-- What a payload tells about a key, by the record that it is about. -/
inductive Reads (field : String) (payload : Json) : KeyReading → Prop
  | nobody (h : payload = .array []) : Reads field payload .cleared
  | null (h : About payload (.object fields)) (hf : Fields.get? fields field = some .null) :
      Reads field payload .cleared
  | value (h : About payload (.object fields)) (hf : Fields.get? fields field = some v)
      (hv : v ≠ .null) : Reads field payload (.given v)
  | nothing (h : About payload record)
      (hf : ∀ fields, record = .object fields → Fields.get? fields field = none) :
      Reads field payload .absent

theorem exists_about (payload : Json) : payload = .array [] ∨ ∃ record, About payload record := by
  cases payload with
  | array items =>
    cases items with
    | nil => exact .inl rfl
    | cons first more => exact .inr ⟨first, .first⟩
  | _ => exact .inr ⟨_, .itself (by simp)⟩

theorem About.keyInPayload (h : About payload record) (field : String) :
    keyInPayload payload field = keyInRecord record field := by
  cases h with
  | itself hn =>
    cases payload with
    | array items => exact absurd rfl (hn items)
    | _ => rfl
  | first => rfl

theorem keyInRecord_reads (h : About payload record) (field : String) :
    Reads field payload (keyInRecord record field) := by
  unfold keyInRecord
  cases hf : record.field? field with
  | none => exact .nothing h fun fields hr => by simpa [hr, Json.field?] using hf
  | some v =>
    cases record with
    | object fields =>
      change Fields.get? fields field = some v at hf
      cases v with
      | null => exact .null h hf
      | _ => exact .value h hf (by simp)
    | _ => cases hf

theorem reads_iff : Reads field payload reading ↔ keyInPayload payload field = reading := by
  constructor
  · intro h
    cases h with
    | nobody h => rw [h]; rfl
    | null h hf => rw [h.keyInPayload, keyInRecord, Json.field?, hf]
    | @value _ v h hf hv =>
      rw [h.keyInPayload, keyInRecord, Json.field?, hf]
      cases v with
      | null => exact absurd rfl hv
      | _ => rfl
    | @nothing record h hf =>
      have hn : record.field? field = none := by
        cases record with
        | object fields => exact hf fields rfl
        | _ => rfl
      rw [h.keyInPayload, keyInRecord, hn]
  · rintro rfl
    obtain rfl | ⟨record, h⟩ := exists_about payload
    · exact .nobody rfl
    · rw [h.keyInPayload]
      exact keyInRecord_reads h field

-- ---------------------------------------------------------------------------
-- Decisions
-- ---------------------------------------------------------------------------

section
variable {W : Type} [Widget W] {d : Directory} {payload : Json}

/-- How one child decides, which texts are evaluated for that, and how the stage
is left. -/
inductive Decides (d : Directory) (payload : Json) (s : Stage W) (node : NodeKey) (c : Cascade) :
    Action → List String → Stage W → Prop
  | told (h : Reads c.keyField payload (.given v)) :
      Decides d payload s node c (.fetch node (endpointFor c v)) [] s
  | cleared (h : Reads c.keyField payload .cleared) : Decides d payload s node c (.reset node) [] s
  | selected (h : Reads c.keyField payload .absent)
      (he : (evaluate d c.selectionText s).1 = .value selection)
      (hs : Reads c.keyField selection (.given v)) :
      Decides d payload s node c (.fetch node (endpointFor c v)) [c.selectionText]
        (evaluate d c.selectionText s).2
  | unselected (h : Reads c.keyField payload .absent)
      (hn : ∀ selection v, (evaluate d c.selectionText s).1 = .value selection →
        ¬Reads c.keyField selection (.given v)) :
      Decides d payload s node c (.reset node) [c.selectionText] (evaluate d c.selectionText s).2

/-- Children decide one after the other, each on the stage as the one before
left it. -/
inductive Decisions (d : Directory) (payload : Json) :
    Stage W → KeyMap Cascade → List Action → List String → Stage W → Prop
  | nil : Decisions d payload s [] [] [] s
  | cons (h : Decides d payload s node c a texts s')
      (hr : Decisions d payload s' rest actions more s'') :
      Decisions d payload s ((node, c) :: rest) (a :: actions) (texts ++ more) s''

theorem selectedKey_iff {c : Cascade} {s : Stage W} : (selectedKey d c s).1 = some v ↔
    ∃ selection, (evaluate d c.selectionText s).1 = .value selection ∧
      Reads c.keyField selection (.given v) := by
  simp only [selectedKey, run_bind, reads_iff]
  cases (evaluate d c.selectionText s).1 with
  | value selection => cases hs : keyInPayload selection c.keyField <;> simp [hs]
  | undefined | reference => simp

theorem Decides.eq {s s' : Stage W} (h : Decides d payload s node c a texts s') :
    a = actionFor node c (keyFor d c payload s).1 ∧
      texts = (if (keyInPayload payload c.keyField).isAbsent then [c.selectionText] else []) ∧
      s' = (keyFor d c payload s).2 := by
  cases h with
  | told h | cleared h =>
    rw [reads_iff] at h
    simp [keyFor, h, actionFor, KeyReading.isAbsent]
  | selected h he hs =>
    have hk := selectedKey_iff.mpr ⟨_, he, hs⟩
    rw [reads_iff] at h
    simp [keyFor, h, hk, selectedKey_snd, actionFor, KeyReading.isAbsent]
  | unselected h hn =>
    have hk : (selectedKey d c s).1 = none := by
      refine Option.eq_none_iff_forall_ne_some.mpr fun v hv => ?_
      obtain ⟨selection, he, hs⟩ := selectedKey_iff.mp hv
      exact hn selection v he hs
    rw [reads_iff] at h
    simp [keyFor, h, hk, selectedKey_snd, actionFor, KeyReading.isAbsent]

theorem selectedKey_decides (h : Reads c.keyField payload .absent) (node : NodeKey) (s : Stage W) :
    Decides d payload s node c (actionFor node c (selectedKey d c s).1) [c.selectionText]
      (selectedKey d c s).2 := by
  rw [selectedKey_snd]
  cases hk : (selectedKey d c s).1 with
  | some v =>
    obtain ⟨selection, he, hs⟩ := selectedKey_iff.mp hk
    exact .selected h he hs
  | none =>
    refine .unselected h fun selection v he hs => ?_
    rw [selectedKey_iff.mpr ⟨selection, he, hs⟩] at hk
    cases hk

theorem keyFor_decides (d : Directory) (payload : Json) (node : NodeKey) (c : Cascade)
    (s : Stage W) :
    Decides d payload s node c (actionFor node c (keyFor d c payload s).1)
      (if (keyInPayload payload c.keyField).isAbsent then [c.selectionText] else [])
      (keyFor d c payload s).2 := by
  cases hk : keyInPayload payload c.keyField with
  | given v =>
    simp only [keyFor, hk]
    exact .told (reads_iff.mpr hk)
  | cleared =>
    simp only [keyFor, hk]
    exact .cleared (reads_iff.mpr hk)
  | absent =>
    simp only [keyFor, hk]
    exact selectedKey_decides (reads_iff.mpr hk) node s

theorem Decisions.unique {s s' s'' : Stage W} (h : Decisions d payload s children actions texts s')
    (h' : Decisions d payload s children others more s'') :
    others = actions ∧ more = texts ∧ s'' = s' := by
  induction h generalizing others more with
  | nil =>
    cases h'
    exact ⟨rfl, rfl, rfl⟩
  | cons ha _ ih =>
    cases h' with
    | cons hb hr =>
      obtain ⟨rfl, rfl, rfl⟩ := ha.eq
      obtain ⟨rfl, rfl, rfl⟩ := hb.eq
      obtain ⟨rfl, rfl, rfl⟩ := ih hr
      exact ⟨rfl, rfl, rfl⟩

/-- Those that follow the event decide, and the others have no part in it. -/
theorem actions_decide (d : Directory) (parent event : String) (payload : Json)
    (subs : Subscriptions) (s : Stage W) :
    Decisions d payload s (subs.filter fun p => p.2.parent = parent ∧ p.2.event = event)
      (Subscriptions.actions d parent event payload subs s).1
      (selections parent event payload subs)
      (Subscriptions.actions d parent event payload subs s).2 := by
  induction subs generalizing s with
  | nil => exact .nil
  | cons p rest ih =>
    unfold Subscriptions.actions
    by_cases hp : p.2.parent = parent ∧ p.2.event = event
    · have hhead := keyFor_decides d payload p.1 p.2 s
      rw [if_pos hp, List.filter_cons_of_pos (by simpa using hp)]
      simp only [run_bind, run_pure]
      cases ha : (keyInPayload payload p.2.keyField).isAbsent <;>
        simpa [selections, hp, ha] using Decisions.cons hhead (ih (keyFor d p.2 payload s).2)
    · rw [if_neg hp, List.filter_cons_of_neg (by simpa using hp)]
      simpa [selections, hp] using ih s

end

-- ---------------------------------------------------------------------------
-- Children
-- ---------------------------------------------------------------------------

/-- Those of the widgets whose components follow an event of a parent. -/
def children (given : KeyMap Component) (parent event : String) (widgets : List SceneWidget) :
    KeyMap Cascade :=
  widgets.filterMap fun w => do
    let c ← KeyMap.get? given w.key
    let cascade ← c.cascade
    if cascade.parent = parent ∧ cascade.event = event then some (w.key, cascade) else none

namespace Renderer

variable {W : Type}

theorem Accounts.children {given : KeyMap Component} {xs : List Exhibit} {r : Renderer W}
    (h : Accounts given xs r) (parent event : String) :
    r.subscriptions.filter (fun p => p.2.parent = parent ∧ p.2.event = event) =
      children given parent event (Scene.widgets r.tree) := by
  rw [h.shows.subscriptions, h.scene, Live.children, List.filter_filterMap, List.filterMap_map]
  refine List.filterMap_congr fun x hx => ?_
  have hg := h.get?_given hx
  have hw : x.widget.key = x.key := rfl
  cases hc : x.component.cascade <;>
    simp [Exhibit.subscription?, hw, hg, hc, Option.filter]

variable [Widget W]

/-- After any run, when an event is fired on a node that is mounted with an id,
the children that follow it decide, in document order and on the stage as the
handler has left it. There is one way in which they can, and this is what is
done then. -/
theorem decisions_afterAll (library : Library W) (options : Options) (ops : List Operation)
    {key : NodeKey} {m : Mounted} {id : String}
    (hm : KeyMap.get? ((new library options).afterAll ops).mounted key = some m)
    (hi : m.id = some id) (name : String) (payload : Json) :
    let r := (new library options).afterAll ops
    let handled := dispatch r.bindings r.directory r.handlers ⟨name, key, some id, payload⟩ r.stage
    let following :=
      children (declaredBy (new library options) [] ops) id name (Scene.widgets r.tree)
    fire id name payload r = fireKey key name payload r ∧
      ∃ actions texts decided,
        fireKey key name payload r =
          (handled.1, (applyActions actions { r with stage := decided }).2) ∧
        actions.map (·.node) = following.map (·.1) ∧
        (∀ others more s, Decisions r.directory payload handled.2 following others more s ↔
          others = actions ∧ more = texts ∧ s = decided) ∧
        ∃ said, decided.journal = handled.2.journal ++ said ∧ evaluations said = texts := by
  intro r handled following
  obtain ⟨xs, h⟩ := (accounts_new library options).afterAll ops
  have hfol : r.subscriptions.filter (fun p => p.2.parent = id ∧ p.2.event = name) = following :=
    h.children id name
  have hkey : Directory.keyOf? r.directory id = some key := by
    obtain ⟨x, hx, hxk, rfl⟩ := h.shows.get?_mounted.mp hm
    exact h.shows.keyOf?_directory.mpr ⟨x, hx, hi, hxk⟩
  have hd := actions_decide r.directory id name payload r.subscriptions handled.2
  have hn := actions_nodes r.directory id name payload r.subscriptions handled.2
  obtain ⟨results, hq⟩ := actions_queries r.directory id name payload r.subscriptions handled.2
  obtain ⟨said, hj, he, -⟩ := hq.journal
  rw [hfol] at hd hn
  refine ⟨fire_found hkey name payload, _, _, _, ?_, hn, fun others more s => ?_, said, hj, he⟩
  · refine Prod.ext ?_ ?_
    · rw [fireKey_fst hm, hi]
    · rw [fireKey_some hm, hi]
      rfl
  · constructor
    · exact hd.unique
    · rintro ⟨rfl, rfl, rfl⟩
      exact hd

/-- The form decides about the grid when its event tells nothing. -/
theorem decisions_afterAll_followed :
    let r := (new parentAndChild .default).afterAll [.render (followed "grid") []]
    KeyMap.get? r.mounted ⟨1⟩ = some ⟨some "grid", "Grid"⟩ ∧
      ∃ actions decided, actions.map (·.node) = [⟨2⟩] ∧
        fire "grid" "select" (.object []) r =
          (false, (applyActions actions { r with stage := decided }).2) := by
  have hm : KeyMap.get? ((new parentAndChild .default).afterAll
      [.render (followed "grid") []]).mounted ⟨1⟩ = some ⟨some "grid", "Grid"⟩ := by cbv
  obtain ⟨hf, actions, _, decided, hr, hn, -, -⟩ :=
    decisions_afterAll parentAndChild .default [.render (followed "grid") []] hm rfl "select"
      (.object [])
  refine ⟨hm, actions, decided, hn.trans (by cbv), ?_⟩
  exact (hf.trans hr).trans (Prod.ext (by cbv) rfl)

end Renderer

end LiveLayout.Live
