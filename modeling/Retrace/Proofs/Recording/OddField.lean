import Mathlib.Data.List.Forall2
import Retrace.Proofs.Recording.Acceptance

/-! Odd fields. A field that cannot be read counts as missing, and so do the sides of a viewport and the
parts of an entry. A container out of shape does not: it is refused, and the recording with it. -/
namespace Retrace
open Json (Value Members Cause Node)

namespace Action

/-- A container that counts as missing where it cannot be read. -/
def looseContainer {α : Type} (read : Value → Except Cause (Option α)) (field : Option Value) :
    Option α :=
  (read (field.getD .null)).toOption.join

/-- An action of a known kind, in which every field that cannot be read is missing. -/
def ofLooseFields (kind : Kind) (field : String → Option Value) : Action :=
  let text (key : String) := (field key).bind Field.text
  match kind with
  | .click => click (text "selector")
  | .change => change (text "selector") (text "value") (text "tagName") (text "targetType")
  | .keydown => keydown (text "selector") (text "value") ((field "keyCode").bind Field.whole)
  | .visit => visit (text "href")
  | .viewport => viewport (looseContainer ViewportSize.ofValue? (field "value"))
  | .navigation => navigation (text "href")
  | .cookie => cookie (looseContainer CookieEntry.listOfValue? (field "cookies"))
  | .storage => storage (looseContainer StorageEntry.listOfValue? (field "value"))
  | .unknown => unknown

/-- The kind that the members of an event name; an unknown one where they name none. -/
def Kind.ofMembers (members : Members) : Kind :=
  ((members.lookup "action").bind fun v => (Kind.ofValue v).toOption).getD .unknown

lemma Kind.ofValue_of_named {value : Value} {kind : Kind} (h : Kind.Named value kind) :
    Kind.ofValue value = .ok kind := by
  cases h <;> rfl

lemma Kind.ofMembers_of_named {members : Members} {value : Value} {kind : Kind}
    (h : members.lookup "action" = some value) (hk : Kind.Named value kind) :
    Kind.ofMembers members = kind := by
  rw [ofMembers, h, Option.bind_some, ofValue_of_named hk]
  rfl

lemma looseContainer_of_ok {α : Type} {read : Value → Except Cause (Option α)} {field : Option Value}
    {result : Option α} (h : read (field.getD .null) = .ok result) :
    looseContainer read field = result := by
  rw [looseContainer, h]
  rfl

lemma ofLooseFields_of_ok {kind : Kind} {field : String → Option Value} {action : Action}
    (h : ofFields kind field = .ok action) : ofLooseFields kind field = action := by
  cases kind with
  | viewport | cookie | storage =>
    obtain ⟨result, hr, rfl⟩ := map_eq_ok.mp h
    simp only [ofLooseFields, looseContainer_of_ok hr]
  | _ => exact Except.ok.inj h

theorem ofFields_eq_ok {kind : Kind} {field : String → Option Value} {action : Action}
    (h : ∀ key v, field key = some v → v.KeysDistinct) :
    ofFields kind field = .ok action ↔ kind.Fits field ∧ action = ofLooseFields kind field := by
  constructor
  · intro ha
    exact ⟨(exists_ofFields h).mp ⟨action, ha⟩, (ofLooseFields_of_ok ha).symm⟩
  · rintro ⟨hfits, rfl⟩
    obtain ⟨action, ha⟩ := (exists_ofFields h).mpr hfits
    rw [ofLooseFields_of_ok ha, ha]

end Action

namespace Event

/-- The event that the members of an object hold, in which every field that cannot be read is missing. -/
def ofLooseMembers (members : Members) : Event :=
  ⟨.ofLooseFields (.ofMembers members) (members.lookup ·),
    (members.lookup "frameId").bind Field.whole, (members.lookup "frameUrl").bind Field.text⟩

/-- Why a value is refused as a recording. -/
inductive Refused : Value → Prop
  | document {v : Value} (h : ∀ items, v ≠ .array items) : Refused v
  | element {items : List Value} {item : Value} (hm : item ∈ items) (h : ¬ item.IsObject) :
      Refused (.array items)
  | action {items : List Value} {members : Members} (hm : .object members ∈ items)
      (h : ∀ value kind, members.lookup "action" = some value → ¬ Action.Kind.Named value kind) :
      Refused (.array items)
  | container {items : List Value} {members : Members} (hm : .object members ∈ items)
      (h : ¬ (Action.Kind.ofMembers members).Fits (members.lookup ·)) : Refused (.array items)

lemma ofFields_eq_ok_of_named {members : Members} {event : Event} {value : Value} {kind : Action.Kind}
    (hkeys : ∀ m ∈ members, m.2.KeysDistinct) (ha : members.lookup "action" = some value)
    (hk : Action.Kind.Named value kind) : ofFields (members.lookup ·) = .ok event ↔
      (Action.Kind.ofMembers members).Fits (members.lookup ·) ∧ event = ofLooseMembers members := by
  have hfields : ∀ key v, members.lookup key = some v → v.KeysDistinct :=
    fun key v hv => hkeys _ (Json.Members.mem_of_lookup hv)
  have haction (action : Action) : Action.ofFields kind (members.lookup ·) = .ok action ↔
      kind.Fits (members.lookup ·) ∧ action = .ofLooseFields kind (members.lookup ·) :=
    Action.ofFields_eq_ok hfields
  rw [ofFields, ha, ofLooseMembers, Action.Kind.ofMembers_of_named ha hk]
  simp only [Action.Kind.ofValue_of_named hk, bind_eq_ok, Except.ok.injEq, exists_eq_left', haction,
    pure_eq_ok]
  constructor
  · rintro ⟨action, ⟨hfits, rfl⟩, rfl⟩
    exact ⟨hfits, rfl⟩
  · rintro ⟨hfits, rfl⟩
    exact ⟨_, ⟨hfits, rfl⟩, rfl⟩

theorem refused_iff {v : Value} :
    Refused v ↔ ¬ ∃ items, v = .array items ∧ ∀ item ∈ items, Shaped item := by
  constructor
  · rintro (h | ⟨hm, h⟩ | ⟨hm, h⟩ | ⟨hm, h⟩) ⟨items', he, hshaped⟩
    · exact h items' he
    all_goals
      obtain rfl := Value.array.inj he
      obtain ⟨members, value, kind, hv, ha, hk, hfits⟩ := hshaped _ hm
    · exact h ⟨members, hv⟩
    all_goals obtain rfl := Value.object.inj hv
    · exact h value kind ha hk
    · exact h (Action.Kind.ofMembers_of_named ha hk ▸ hfits)
  · intro h
    cases v with
    | array items =>
      obtain ⟨item, hm, hshaped⟩ : ∃ item ∈ items, ¬ Shaped item := by
        simpa using h
      by_cases hobject : item.IsObject
      · obtain ⟨members, rfl⟩ := hobject
        by_cases haction : ∃ value kind,
            members.lookup "action" = some value ∧ Action.Kind.Named value kind
        · obtain ⟨value, kind, ha, hk⟩ := haction
          refine .container hm fun hfits => hshaped ⟨members, value, kind, rfl, ha, hk, ?_⟩
          exact Action.Kind.ofMembers_of_named ha hk ▸ hfits
        · exact .action hm fun value kind ha hk => haction ⟨value, kind, ha, hk⟩
      · exact .element hm hobject
    | _ => exact .document fun items => by simp

lemma readList_eq_error_iff {text : String} {v : Value} (hread : Json.readText Node.value text = .ok v)
    (hkeys : v.KeysDistinct) : (∃ report, readList text = .error report) ↔ Refused v := by
  rw [exists_error_iff, exists_readList_iff hread hkeys, refused_iff]

/-- Objects that name their kinds are read just where every container is in shape; a field that cannot be read
is missing. -/
theorem readList_with_odd_fields {text : String} {v : Value}
    (hread : Json.readText Node.value text = .ok v) (hkeys : v.KeysDistinct) :
    (∀ items : List Members, v = .array (items.map .object) →
      (∀ members ∈ items, ∃ name, members.lookup "action" = some (.string name)) →
      ∀ events, readList text = .ok events ↔
        (∀ members ∈ items, (Action.Kind.ofMembers members).Fits (members.lookup ·)) ∧
        events = items.map ofLooseMembers) ∧
    ((∃ report, readList text = .error report) ↔ Refused v) := by
  constructor
  · rintro items rfl haction events
    have hevent : ∀ members ∈ items, ∀ event, OfValue (.object members) event ↔
        (Action.Kind.ofMembers members).Fits (members.lookup ·) ∧ event = ofLooseMembers members := by
      intro members hm event
      obtain ⟨name, ha⟩ := haction members hm
      have hmembers := Value.keysDistinct_object.mp
        (Value.keysDistinct_array.mp hkeys _ (List.mem_map_of_mem hm))
      rw [← ofFields_eq_ok_of_named hmembers.2 ha (.word name)]
      simp [OfValue]
    rw [readList_eq_ok hread hkeys]
    simp only [Value.array.injEq, exists_eq_left']
    rw [List.forall₂_map_left_iff, forall₂_iff_eq_map hevent]
  · exact readList_eq_error_iff hread hkeys

/-- A number for a text, an object for a number, and a side of a viewport in words. -/
def oddItems : List Members :=
  [[("selector", .scalar (.number (.whole 5))), ("action", .string "keydown"), ("keyCode", .object []),
      ("frameId", .string "top")],
    [("action", .string "viewport*"), ("value", .object [("width", .string "wide")])]]

theorem readList_with_odd_key_and_width :
    let recording : Value := .array (oddItems.map .object)
    Json.readText Node.value recording.compact = .ok recording ∧ recording.KeysDistinct ∧
    readList recording.compact = .ok [⟨.keydown (some "5") none none, none, none⟩,
      ⟨.viewport (some ⟨none, none⟩), none, none⟩] := by
  intro recording
  have hin : recording.Within Json.Outline.maxDepth := by
    simp [recording, oddItems, Value.string, Json.Outline.maxDepth, Json.Scalar.InRange,
      Json.Number.InRange, twoTo]
  have hread := Json.readText_compact hin (by simp [recording, oddItems, Value.string])
  have hkeys : recording.KeysDistinct := by simp [recording, oddItems, Value.string]
  refine ⟨hread, hkeys, ?_⟩
  have hwords : ∀ members ∈ oddItems, ∃ name, members.lookup "action" = some (.string name) := by
    simp only [oddItems, List.forall_mem_cons]
    exact ⟨⟨_, rfl⟩, ⟨_, rfl⟩, by simp⟩
  have hfits : ∀ members ∈ oddItems, (Action.Kind.ofMembers members).Fits (members.lookup ·) := by
    simp only [oddItems, List.forall_mem_cons]
    refine ⟨trivial, ?_, by simp⟩
    exact Or.inr ⟨_, rfl, Or.inl ⟨_, rfl⟩⟩
  exact ((readList_with_odd_fields hread hkeys).1 oddItems rfl hwords _).mpr ⟨hfits, rfl⟩

/-- A word for a viewport is refused, though its object names a kind. -/
theorem readList_refuses_viewport_word :
    let members : Members := [("action", .string "viewport*"), ("value", .string "wide")]
    let recording : Value := .array [.object members]
    recording.compact = "[\x7b\"action\":\"viewport*\",\"value\":\"wide\"\x7d]" ∧
    Json.readText Node.value recording.compact = .ok recording ∧ recording.KeysDistinct ∧
    members.lookup "action" = some (.string "viewport*") ∧
    ofLooseMembers members = ⟨.viewport none, none, none⟩ ∧
    ∃ report, readList recording.compact = .error report := by
  intro members recording
  have hin : recording.Within Json.Outline.maxDepth := by
    simp [recording, members, Value.string, Json.Outline.maxDepth, Json.Scalar.InRange]
  have hkeys : recording.KeysDistinct := by simp [recording, members, Value.string]
  have hread := Json.readText_compact hin (by simp [recording, members, Value.string])
  have hfits : ¬ (Action.Kind.ofMembers members).Fits (members.lookup ·) := by
    have hvalue : members.lookup "value" = some (.string "wide") := rfl
    rw [Action.Kind.ofMembers_of_named rfl (.word "viewport*")]
    rintro (hmissing | ⟨v, hv, hpair⟩)
    · simp [Action.Kind.Missing, hvalue, Value.null, Value.string] at hmissing
    · obtain rfl := Option.some.inj (hvalue.symm.trans hv)
      simp [Value.IsPair, Value.IsObject, Value.string] at hpair
  exact ⟨by decide +kernel, hread, hkeys, rfl, rfl,
    (readList_eq_error_iff hread hkeys).mpr (.container List.mem_cons_self hfits)⟩

end Event
end Retrace
